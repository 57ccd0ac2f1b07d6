import Mathlib.Data.String.Basic
import Mathlib.Data.List.Sort
import PixelScene.Proofs.FirstOccurrence
import PixelScene.Table

/-!
# The first definition wins

`union` lays one finite map over another. This file says what comes out of any nesting of unions:
`FirstWins` ties a map to the list of maps that went into it, from the winner to the loser. Only the
order of the parts matters, not how the unions are nested.

* `Table.FirstWins.union`, `Dictionary.FirstWins.union`: a union goes with the two lists of parts
  one after the other.
* `Table.FirstWins.eq`, `Dictionary.FirstWins.eq`: the parts determine the map.
* `Table.FirstWins.of_eraseDups`, `Dictionary.FirstWins.of_eraseDups`: a part that comes a second
  time adds nothing, not even to the order of the keys.
* `Table.entries_overlay`: what a table is after some pairs were laid over it.

Three merges of the engine are unions of this kind: scripts that import scripts, states over the
components of an entity, and key bindings in layers. They nest differently, but each has a list of
parts, and two maps with the same parts are equal, also in the order of keys. That no key comes
twice is part of the maps, so no law here asks for it.
-/

namespace PixelScene

variable {α ι : Type}

/-! ## Lists of pairs -/

theorem mem_of_lookup {es : List (String × α)} {key : String} {value : α}
    (h : es.lookup key = some value) : (key, value) ∈ es := by
  obtain ⟨before, after, hsplit, -⟩ := List.lookup_eq_some_iff.mp h
  rw [hsplit]
  exact List.mem_append_right before List.mem_cons_self

theorem lookup_of_mem {es : List (String × α)} (h : (es.map Prod.fst).Nodup) {e : String × α}
    (he : e ∈ es) : es.lookup e.1 = some e.2 := by
  induction es with
  | nil => exact absurd he List.not_mem_nil
  | cons f es ih =>
    rw [List.map_cons, List.nodup_cons] at h
    rw [lookup_cons_ite]
    rcases List.mem_cons.mp he with rfl | he
    · rw [if_pos rfl]
    · have hne : e.1 ≠ f.1 := fun e' => h.1 (e' ▸ List.mem_map.mpr ⟨e, he, rfl⟩)
      rw [if_neg hne, ih h.2 he]

theorem eq_filterMap_lookup {es : List (String × α)} (h : (es.map Prod.fst).Nodup) :
    es = (es.map Prod.fst).filterMap fun key => (es.lookup key).map fun value => (key, value) := by
  calc es = es.filterMap some := List.filterMap_some.symm
    _ = es.filterMap fun e => (es.lookup e.1).map fun value => (e.1, value) :=
        List.filterMap_congr fun e he => by rw [lookup_of_mem h he, Option.map_some]
    _ = (es.map Prod.fst).filterMap fun key => (es.lookup key).map fun value => (key, value) := by
        rw [List.filterMap_map]
        rfl

/-- Pairs without repeated keys are known by their keys and what is found under them. -/
theorem eq_of_lookup_eq {es fs : List (String × α)} (h : (es.map Prod.fst).Nodup)
    (hkeys : es.map Prod.fst = fs.map Prod.fst) (hget : ∀ key, es.lookup key = fs.lookup key) :
    es = fs := by
  have hfs : (fs.map Prod.fst).Nodup := hkeys ▸ h
  calc es = (es.map Prod.fst).filterMap fun key => (es.lookup key).map fun value => (key, value) :=
        eq_filterMap_lookup h
    _ = (fs.map Prod.fst).filterMap fun key => (fs.lookup key).map fun value => (key, value) := by
        simp only [hkeys, hget]
    _ = fs := (eq_filterMap_lookup hfs).symm

theorem lookup_eq_none_of_notMem {es : List (String × α)} {key : String}
    (h : key ∉ es.map Prod.fst) : es.lookup key = none :=
  List.lookup_eq_none_iff.mpr fun _ he => bne_iff_ne.mpr fun heq => h (heq ▸ List.mem_map_of_mem he)

/-! ## Tables -/

namespace Table

theorem known_or_last (t : Table α) (key : String) :
    (if t.contains key then t.keys else t.keys ++ [key]) = (t.keys ++ [key]).eraseDups := by
  rw [eraseDups_concat, eraseDups_of_nodup t.nodup_keys]
  simp only [contains_iff_mem_keys]

/-- The keys of a union are the keys of both tables in the order of their first occurrence. -/
theorem keys_union (t u : Table α) : (t.union u).keys = (t.keys ++ u.keys).eraseDups := by
  suffices hfold : ∀ (es : List (String × α)) (t : Table α),
      (es.foldl (fun acc e => acc.insertIfAbsent e.1 e.2) t).keys =
        (t.keys ++ es.map Prod.fst).eraseDups from hfold u.entries t
  intro es
  induction es with
  | nil =>
    intro t
    rw [List.map_nil, List.append_nil, eraseDups_of_nodup t.nodup_keys, List.foldl_nil]
  | cons e es ih =>
    intro t
    have hkeys := (keys_insertIfAbsent t e.1 e.2).trans (t.known_or_last e.1)
    rw [List.foldl_cons, ih, hkeys, eraseDups_eraseDups_append, List.append_assoc]
    rfl

/-- The table holds what the parts define: the keys in the order of their first occurrence, each
with the value of the first part that has it. -/
structure FirstWins (t : Table α) (parts : List (Table α)) : Prop where
  keys : t.keys = (parts.flatMap Table.keys).eraseDups
  found : ∀ key, t.get? key = parts.findSome? fun u => u.get? key

namespace FirstWins

theorem single (t : Table α) : t.FirstWins [t] := by
  refine ⟨?_, fun key => ?_⟩
  · rw [List.flatMap_singleton, eraseDups_of_nodup t.nodup_keys]
  · rw [List.findSome?_singleton]

/-- A union has the parts of both tables, those of the winner first. -/
theorem union {t u : Table α} {ps qs : List (Table α)} (ht : t.FirstWins ps)
    (hu : u.FirstWins qs) : (t.union u).FirstWins (ps ++ qs) := by
  refine ⟨?_, fun key => ?_⟩
  · rw [keys_union, ht.keys, hu.keys, eraseDups_append_eraseDups, eraseDups_eraseDups_append,
      List.flatMap_append]
  · rw [get?_union, ht.found, hu.found, List.findSome?_append]

/-- The parts determine the table. -/
theorem eq {t u : Table α} {parts : List (Table α)} (ht : t.FirstWins parts)
    (hu : u.FirstWins parts) : t = u :=
  Table.ext (eq_of_lookup_eq t.distinct (ht.keys.trans hu.keys.symm) fun key =>
    (ht.found key).trans (hu.found key).symm)

/-- A part that comes a second time adds nothing. -/
theorem of_eraseDups [BEq ι] [LawfulBEq ι] {t : Table α} {f : ι → Table α} {l : List ι}
    (h : t.FirstWins (l.eraseDups.map f)) : t.FirstWins (l.map f) := by
  refine ⟨h.keys.trans ?_, fun key => (h.found key).trans ?_⟩
  · simp only [List.flatMap_map]
    exact eraseDups_flatMap_eraseDups (fun i => (f i).keys) l
  · simp only [List.findSome?_map]
    exact findSome?_eraseDups _ l

/-- A part without entries adds nothing. -/
theorem empty_cons {t : Table α} {parts : List (Table α)} (h : t.FirstWins parts) :
    t.FirstWins (∅ :: parts) := ⟨h.keys, h.found⟩

end FirstWins

theorem empty_union (t : Table α) : (∅ : Table α).union t = t :=
  ((FirstWins.single ∅).union (.single t)).eq (FirstWins.single t).empty_cons

/-! ### Overlays -/

/-- The keys of a table stay where they are, each with the value laid over it if there is one, and
the other keys come after them in their own order. -/
theorem entries_overlay (t : Table α) {es : List (String × α)} (h : (es.map Prod.fst).Nodup) :
    (es.foldl (fun t c => t.insert c.1 c.2) t).entries =
      (t.entries.map fun c => (c.1, (es.lookup c.1).getD c.2)) ++
        es.filter fun c => c.1 ∉ t.keys := by
  induction es generalizing t with
  | nil => simp
  | cons e es ih =>
    obtain ⟨hnew, hes⟩ := List.nodup_cons.mp h
    have hlater : es.lookup e.1 = none := lookup_eq_none_of_notMem hnew
    rw [List.foldl_cons, ih _ hes]
    by_cases hknown : e.1 ∈ t.keys
    · -- a known key keeps its place and takes the value, which no later pair changes
      have hinsert : t.insert e.1 e.2 = t.replace e.1 e.2 :=
        dif_pos ((t.contains_iff_mem_keys e.1).mpr hknown)
      rw [hinsert, keys_replace, List.filter_cons_of_neg (by simpa using hknown), replace,
        List.map_map]
      refine congrArg (· ++ _) (List.map_congr_left fun c _ => ?_)
      rw [Function.comp_apply, lookup_cons_ite]
      by_cases heq : c.1 = e.1
      · simp [heq, hlater]
      · simp [heq]
    · -- a new key comes before those of the later pairs
      have hinsert : t.insert e.1 e.2 =
          t.push e.1 e.2 (mt (t.contains_iff_mem_keys e.1).mp hknown) := dif_neg _
      have hkept : ∀ c ∈ t.entries, c.1 ≠ e.1 := fun c hc heq =>
        hknown (heq ▸ List.mem_map_of_mem hc)
      have hothers : ∀ c ∈ es, c.1 ≠ e.1 := fun c hc heq => hnew (heq ▸ List.mem_map_of_mem hc)
      rw [hinsert, keys_push, List.filter_cons_of_pos (by simpa using hknown), push,
        List.map_append, List.append_assoc, List.map_singleton, hlater, Option.getD_none,
        List.singleton_append]
      refine congrArg₂ (· ++ ·) (List.map_congr_left fun c hc => ?_)
        (congrArg (e :: ·) (List.filter_congr fun c hc => ?_))
      · rw [lookup_cons_ite, if_neg (hkept c hc)]
      · simp [hothers c hc]

theorem entries_ofList {pairs : List (String × α)} (h : (pairs.map Prod.fst).Nodup) :
    (ofList pairs).entries = pairs :=
  ((empty : Table α).entries_overlay h).trans
    ((List.nil_append _).trans (List.filter_eq_self.mpr fun _ _ => by simp [keys, empty]))

end Table

/-! ## Dictionaries -/

namespace Dictionary

/-- What is found among some pairs is one of them. -/
theorem mem_of_get?_ofList {pairs : List (String × α)} {key : String}
    {value : α} (h : (Dictionary.ofList pairs).get? key = some value) : (key, value) ∈ pairs := by
  suffices hfold : ∀ (d : Dictionary α), (pairs.foldl (fun d e => d.insert e.1 e.2) d).get? key =
      some value → (key, value) ∈ pairs ∨ d.get? key = some value from
    (hfold Dictionary.empty h).resolve_right nofun
  clear h
  induction pairs with
  | nil => exact fun _ => .inr
  | cons e pairs ih =>
    intro d h
    rcases ih _ h with hmem | hget
    · exact .inl (List.mem_cons_of_mem _ hmem)
    · rw [Dictionary.get?_insert] at hget
      split at hget
      · rename_i hkey
        rw [← Option.some.inj hget, hkey]
        exact .inl List.mem_cons_self
      · exact .inr hget

/-- Dictionaries are known by what is found in them. -/
theorem eq_of_get?_eq {d e : Dictionary α} (hget : ∀ key, d.get? key = e.get? key) : d = e := by
  have hkeys : d.keys = e.keys := by
    refine List.Pairwise.eq_of_mem_iff d.keys_ascending e.keys_ascending fun key => ?_
    rw [← get?_isSome_iff_mem_keys, ← get?_isSome_iff_mem_keys, hget]
  exact Dictionary.ext (eq_of_lookup_eq (d.ascending.imp ne_of_lt) hkeys hget)

/-- What is found in the dictionary is what the first of the parts has that has it. -/
def FirstWins (d : Dictionary α) (parts : List (Dictionary α)) : Prop :=
  ∀ key, d.get? key = parts.findSome? fun e => e.get? key

namespace FirstWins

theorem single (d : Dictionary α) : d.FirstWins [d] :=
  fun key => by rw [List.findSome?_singleton]

/-- A union has the parts of both dictionaries, those of the winner first. -/
theorem union {d e : Dictionary α} {ps qs : List (Dictionary α)} (hd : d.FirstWins ps)
    (he : e.FirstWins qs) : (d.union e).FirstWins (ps ++ qs) := by
  intro key
  rw [get?_union, hd, he, List.findSome?_append]

/-- The parts determine the dictionary. -/
theorem eq {d e : Dictionary α} {parts : List (Dictionary α)} (hd : d.FirstWins parts)
    (he : e.FirstWins parts) : d = e :=
  eq_of_get?_eq fun key => (hd key).trans (he key).symm

/-- A part that comes a second time adds nothing. -/
theorem of_eraseDups [BEq ι] [LawfulBEq ι] {d : Dictionary α} {f : ι → Dictionary α}
    {l : List ι} (h : d.FirstWins (l.eraseDups.map f)) : d.FirstWins (l.map f) := by
  intro key
  rw [h key]
  simp only [List.findSome?_map]
  exact findSome?_eraseDups _ l

/-- A part without entries adds nothing. -/
theorem empty_cons {d : Dictionary α} {parts : List (Dictionary α)} (h : d.FirstWins parts) :
    d.FirstWins (∅ :: parts) := h

end FirstWins

theorem empty_union (d : Dictionary α) : (∅ : Dictionary α).union d = d :=
  ((FirstWins.single ∅).union (.single d)).eq (FirstWins.single d).empty_cons

end Dictionary

end PixelScene
