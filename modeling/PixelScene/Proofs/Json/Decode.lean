import PixelScene.Json.Decode
import PixelScene.Proofs.FirstWins
import PixelScene.Proofs.Json.RoundTrip
import PixelScene.Proofs.Number.Narrowing

/-!
# Records that are read back

What each kind of field accepts of the values that are written for it, when the text of a record is
read again.

* `Restores` says that a value is read as what it was; there is a lemma for each kind of field.
* `record?_object`: the fields of an object whose names are all different are found by name.
* `single?_reread`: a single is read as the single next to the double that its text denotes, and not
  at all when it is not finite. `throughText_of_isEven`: one with an even mantissa is read as
  itself.

The records are those of recordings and scenarios, which the engine writes and reads with a library.
Reading is by name, so the order in which fields are written does not matter; that no two of them
have one name does. Numbers in single precision are the one kind of field that may change on the
way: the text goes through the double nearest to it (`PixelScene.Proofs.Number.Narrowing`).
-/

namespace PixelScene

/-! ## Dictionaries in order -/

namespace Dictionary

variable {α : Type}

theorem place_of_lt {key : String} {value : α} {es : List (String × α)}
    (h : ∀ e ∈ es, e.1 < key) : place key value es = es ++ [(key, value)] := by
  induction es with
  | nil => rfl
  | cons e es ih =>
    obtain ⟨he, hmore⟩ := List.forall_mem_cons.mp h
    rw [place, if_neg he.ne', if_neg he.not_gt, ih hmore, List.cons_append]

/-- The entries of a dictionary, given again in their order, make the same dictionary. -/
theorem ofList_entries (d : Dictionary α) : ofList d.entries = d := by
  suffices hfold : ∀ (fs : List (String × α)) (e : Dictionary α),
      ((e.entries ++ fs).map Prod.fst).Pairwise (· < ·) →
        (fs.foldl (fun d e => d.insert e.1 e.2) e).entries = e.entries ++ fs from
    Dictionary.ext (hfold d.entries empty d.ascending)
  intro fs
  induction fs with
  | nil => exact fun e _ => (List.append_nil e.entries).symm
  | cons f fs ih =>
    intro e hascending
    have hlt : ∀ g ∈ e.entries, g.1 < f.1 := by
      rw [List.map_append, List.pairwise_append] at hascending
      exact fun g hg => hascending.2.2 g.1 (List.mem_map_of_mem hg) f.1
        (List.mem_map_of_mem List.mem_cons_self)
    have hinsert : (e.insert f.1 f.2).entries = e.entries ++ [f] := place_of_lt hlt
    rw [List.append_cons] at hascending
    rw [List.foldl_cons, ih _ (hinsert ▸ hascending), hinsert, List.append_assoc]
    rfl

end Dictionary

namespace Json

/-! ## Fields -/

theorem mapM_eq_some {β γ : Type} {f : β → Option γ} {g : β → γ} {l : List β}
    (h : ∀ b ∈ l, f b = some (g b)) : l.mapM f = some (l.map g) := by
  induction l with
  | nil => rfl
  | cons b l ih =>
    obtain ⟨hb, hl⟩ := List.forall_mem_cons.mp h
    rw [List.mapM_cons, hb, ih hl]
    rfl

theorem mapM_map_eq_some {β γ : Type} {f : β → Option γ} {g : γ → β} {l : List γ}
    (h : ∀ c ∈ l, f (g c) = some c) : (l.map g).mapM f = some l := by
  rw [List.mapM_map, mapM_eq_some (f := f ∘ g) (g := id) h, List.map_id]

theorem bind_ite {β γ : Type} {p : Prop} [Decidable p] {b : β} {f : β → Option γ} :
    (if p then some b else none).bind f = if p then f b else none := by
  split <;> rfl

theorem filter_eq_of_nodup {fields : List (String × Json)} (h : (fields.map Prod.fst).Nodup)
    (name : String) :
    (fields.filter (·.1 == name)).map Prod.snd = (fields.lookup name).toList := by
  induction fields with
  | nil => rfl
  | cons f fields ih =>
    obtain ⟨hnot, hmore⟩ := List.nodup_cons.mp h
    by_cases hname : f.1 = name
    · subst hname
      have hnone : fields.filter (·.1 == f.1) = [] := by
        rw [List.filter_eq_nil_iff]
        intro g hg heq
        exact hnot (List.mem_map.mpr ⟨g, hg, eq_of_beq heq⟩)
      rw [List.filter_cons, if_pos (beq_self_eq_true f.1), hnone, List.lookup_cons, beq_self_eq_true]
      rfl
    · rw [List.filter_cons_of_neg (by simpa using hname), ih hmore, List.lookup_cons,
        beq_eq_false_iff_ne.mpr (Ne.symm hname)]

/-- The fields of an object whose names are all different are found by name. -/
theorem record?_object {fields : List (String × Json)} (h : (fields.map Prod.fst).Nodup)
    (names : List String) :
    record? names (object fields) = some (names.map fun name => fields.lookup name) := by
  refine mapM_eq_some fun name _ => ?_
  rw [filter_eq_of_nodup h]
  cases fields.lookup name <;> rfl

/-! ## Values that are read back -/

section Restores

variable {α : Type} {write : α → Json} {read : Json → Option α}

/-- Whether what is read of something that was written is what it was. -/
def Restores (write : α → Json) (read : Json → Option α) (a : α) : Prop :=
  read (reread (write a)) = some a

theorem restores_text (s : String) : Restores text text? s := rfl

theorem restores_nat {n : Nat} (h : n ≤ word64) :
    Restores (fun n : Nat => integer n) (nat? word64) n := by
  have hword : word64 < Number.twoTo 64 := by decide
  show nat? word64 (reread (integer n)) = some n
  rw [reread_integer (by omega) (by omega), nat?, if_pos (by omega), Int.toNat_natCast]

theorem restores_int {low high n : Int} (hlow : -Number.twoTo 63 ≤ low)
    (hhigh : high < Number.twoTo 64) (h : low ≤ n ∧ n ≤ high) :
    Restores integer (int? low high) n := by
  show int? low high (reread (integer n)) = some n
  rw [reread_integer (hlow.trans h.1) (h.2.trans_lt hhigh), int?, if_pos h]

theorem restores_double {x : Float} (h : (Number.exact x).isFinite = true) :
    Restores real double? x := by
  show double? (reread (real x)) = some x
  rw [reread_real h, double?, if_pos h]

theorem restores_list {l : List α} (h : ∀ a ∈ l, Restores write read a) :
    Restores (fun l => list (l.map write)) (listOf? read) l := by
  show listOf? read (reread (list (l.map write))) = some l
  rw [reread_list, List.map_map, listOf?]
  exact mapM_map_eq_some h

theorem restores_tuple {l : List α} (h : ∀ a ∈ l, Restores write read a) :
    Restores (fun l => list (l.map write)) (tuple? l.length read) l := by
  show tuple? l.length read (reread (list (l.map write))) = some l
  rw [tuple?, restores_list h, Option.filter, if_pos (beq_self_eq_true _)]

theorem restores_dictionary {d : Dictionary α}
    (h : ∀ e ∈ d.entries, Restores write read e.2) :
    Restores (fun d : Dictionary α => object (d.entries.map fun e => (e.1, write e.2)))
      (dictionary? read) d := by
  show dictionary? read (reread (object (d.entries.map fun e => (e.1, write e.2)))) = some d
  have hentries : ((d.entries.map fun e => (e.1, write e.2)).map
      fun f => (f.1, reread f.2)).mapM (fun f => do return (f.1, ← read f.2)) = some d.entries := by
    rw [List.map_map]
    refine mapM_map_eq_some fun e he => ?_
    show (read (reread (write e.2)) >>= fun a => pure (e.1, a)) = some e
    rw [h e he]
    rfl
  rw [reread_object, dictionary?, hentries]
  exact congrArg some (Dictionary.ofList_entries d)

end Restores

/-! ## Singles -/

/-- The single next to the double that the text of a single denotes. -/
def throughText (x : Float32) : Float32 :=
  match Number.exactSingle x with
  | .finite negative m e =>
    Number.narrow (Number.shortestDecimal .even Number.single negative m e).toFloat
  | _ => x

/-- Whether a single is finite and the last bit of its mantissa is zero. -/
def IsEven (x : Float32) : Prop :=
  match Number.exactSingle x with
  | .finite _ m _ => m % 2 = 0
  | _ => False

/-- A single with an even mantissa comes back, whatever its text is. -/
theorem throughText_of_isEven {x : Float32} (h : IsEven x) : throughText x = x := by
  rw [IsEven] at h
  rw [throughText]
  cases hx : Number.exactSingle x with
  | notNumber => rfl
  | infinite negative => rfl
  | finite negative m e =>
    rw [hx] at h
    exact Number.narrow_toFloat_shortestDecimal .even hx h

/-- A single that is not finite is written as null, and null is no number. -/
theorem single?_reread (x : Float32) : single? (reread (single x)) =
    if (Number.exactSingle x).isFinite then some (throughText x) else none := by
  cases hx : Number.exactSingle x with
  | notNumber =>
    rw [reread, hx]
    rfl
  | infinite negative =>
    rw [reread, hx]
    rfl
  | finite negative m e =>
    have hfinite := Number.isFinite_toFloat (Number.value_shortestDecimal_lt .even negative hx)
    rw [reread, hx, throughText, hx]
    exact if_pos hfinite

/-- A list of singles is read as a whole, or not at all. -/
theorem listOf?_singles (xs : List Float32) :
    listOf? single? (reread (list (xs.map single))) =
      if ∀ x ∈ xs, (Number.exactSingle x).isFinite = true then some (xs.map throughText)
      else none := by
  rw [reread_list, listOf?, List.map_map]
  induction xs with
  | nil => rfl
  | cons x xs ih =>
    rw [List.map_cons, List.mapM_cons, Function.comp_apply, single?_reread, ih]
    simp only [List.forall_mem_cons]
    by_cases hx : (Number.exactSingle x).isFinite = true
    · by_cases hxs : ∀ y ∈ xs, (Number.exactSingle y).isFinite = true
      · rw [if_pos hx, if_pos hxs, if_pos ⟨hx, hxs⟩]
        rfl
      · rw [if_pos hx, if_neg hxs, if_neg fun h => hxs (And.right h)]
        rfl
    · rw [if_neg hx, if_neg fun h => hx (And.left h)]
      rfl

end Json

end PixelScene
