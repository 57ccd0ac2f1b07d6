import PixelScene.Proofs.Change

/-!
# When a sequence of changes succeeds

A sequence of changes succeeds from every state in which `P` holds, and leads to such a state again;
or something is missing, and then it fails before it changes anything.

* `Looks P x Q`: the step `x` succeeds, changes nothing and returns a value in which `Q` holds.
* `Succeeds P x`: the steps `x` succeed and keep `P`.
* `FailsIff P missing x`: the steps `x` fail and change nothing if `missing` holds, and else they
  succeed and keep `P`.
* `failsIff_look_bind`, `failsIff_bind`: looking around may come before the step that can fail, and
  anything that succeeds may come after it.

`Keeps` says what a sequence leaves alone however it ends; here the question is whether it ends
well. For the components of the engine the answer is always of one form. They look at the world,
find that something is missing or not, and only then write; and the writes that follow are to cells
that are in the memory. So a component fails at once or not at all, which is what `FailsIff` carries
along.
-/

namespace PixelScene

variable {ε σ α β : Type} {P : σ → Prop} {Q : α → Prop} {missing missing' : Prop}

/-- The step succeeds, changes nothing and returns a value in which `Q` holds. -/
def Looks (P : σ → Prop) (x : EStateM ε σ α) (Q : α → Prop) : Prop :=
  ∀ s, P s → ∃ a, x s = .ok a s ∧ Q a

/-- The steps succeed and keep `P`. -/
def Succeeds (P : σ → Prop) (x : EStateM ε σ α) : Prop := ∀ s, P s → ∃ a s', x s = .ok a s' ∧ P s'

/-- The steps fail and change nothing if something is missing; else they succeed and keep `P`. -/
def FailsIff (P : σ → Prop) (missing : Prop) (x : EStateM ε σ α) : Prop :=
  ∀ s, P s → (missing → ∃ e, x s = .error e s) ∧ (¬ missing → ∃ a s', x s = .ok a s' ∧ P s')

/-! ## Looking -/

theorem looks_pure {a : α} (h : Q a) : Looks P (pure a : EStateM ε σ α) Q :=
  fun _ _ => ⟨a, rfl, h⟩

theorem looks_bind {R : β → Prop} {x : EStateM ε σ α} {f : α → EStateM ε σ β} (hx : Looks P x Q)
    (hf : ∀ a, Q a → Looks P (f a) R) : Looks P (x >>= f) R := by
  intro s hs
  obtain ⟨a, ha, hQ⟩ := hx s hs
  rw [bind_of_ok ha]
  exact hf a hQ s hs

theorem looks_ite {c : Prop} [Decidable c] {x y : EStateM ε σ α} (hx : Looks P x Q)
    (hy : Looks P y Q) : Looks P (if c then x else y) Q := by
  split
  · exact hx
  · exact hy

theorem looks_get : Looks P (get : EStateM ε σ σ) P := fun s hs => ⟨s, rfl, hs⟩

theorem looks_foldlM {R : β → Prop} {f : β → α → EStateM ε σ β} {l : List α}
    (hf : ∀ b, ∀ a ∈ l, R b → Looks P (f b a) R) {b : β} (hb : R b) :
    Looks P (l.foldlM f b) R := by
  induction l generalizing b with
  | nil => exact looks_pure hb
  | cons a l ih =>
    rw [List.foldlM_cons]
    refine looks_bind (hf b a List.mem_cons_self hb) fun b' hb' => ?_
    exact ih (fun b a ha => hf b a (List.mem_cons_of_mem _ ha)) hb'

/-! ## Succeeding -/

theorem succeeds_pure (a : α) : Succeeds P (pure a : EStateM ε σ α) := fun s hs => ⟨a, s, rfl, hs⟩

theorem succeeds_bind {x : EStateM ε σ α} {f : α → EStateM ε σ β} (hx : Succeeds P x)
    (hf : ∀ a, Succeeds P (f a)) : Succeeds P (x >>= f) := by
  intro s hs
  obtain ⟨a, s', ha, hs'⟩ := hx s hs
  rw [bind_of_ok ha]
  exact hf a s' hs'

theorem succeeds_look_bind {x : EStateM ε σ α} {f : α → EStateM ε σ β} (hx : Looks P x Q)
    (hf : ∀ a, Q a → Succeeds P (f a)) : Succeeds P (x >>= f) := by
  intro s hs
  obtain ⟨a, ha, hQ⟩ := hx s hs
  rw [bind_of_ok ha]
  exact hf a hQ s hs

theorem set_eq_ok (s' : σ) {s : σ} : (set s' : EStateM ε σ PUnit) s = .ok ⟨⟩ s' := rfl

/-- What follows a look at the state has to succeed from that state only. -/
theorem succeeds_get_bind {f : σ → EStateM ε σ β}
    (hf : ∀ s, P s → ∃ b s', f s s = .ok b s' ∧ P s') : Succeeds P (get >>= f) := hf

theorem succeeds_ite {c : Prop} [Decidable c] {x y : EStateM ε σ α} (hx : Succeeds P x)
    (hy : Succeeds P y) : Succeeds P (if c then x else y) := by
  split
  · exact hx
  · exact hy

theorem succeeds_forM {f : α → EStateM ε σ PUnit} {l : List α} (hf : ∀ a ∈ l, Succeeds P (f a)) :
    Succeeds P (l.forM f) := by
  induction l with
  | nil => exact succeeds_pure _
  | cons a l ih =>
    exact succeeds_bind (hf a List.mem_cons_self) fun _ =>
      ih fun a ha => hf a (List.mem_cons_of_mem _ ha)

/-! ## Failing -/

theorem Succeeds.failsIff {x : EStateM ε σ α} (h : Succeeds P x) (hmissing : ¬ missing) :
    FailsIff P missing x :=
  fun s hs => ⟨fun hm => absurd hm hmissing, fun _ => h s hs⟩

theorem failsIff_throw (hmissing : missing) (e : ε) :
    FailsIff P missing (throw e : EStateM ε σ α) :=
  fun _ _ => ⟨fun _ => ⟨e, rfl⟩, fun h => absurd hmissing h⟩

theorem FailsIff.congr {x : EStateM ε σ α} (h : FailsIff P missing x) (hiff : missing' ↔ missing) :
    FailsIff P missing' x := by
  rwa [propext hiff]

/-- A step that can fail stands first, and the steps behind it succeed if it does. -/
theorem failsIff_bind {x : EStateM ε σ α} {f : α → EStateM ε σ β} (hx : FailsIff P missing x)
    (hf : ¬ missing → ∀ a, Succeeds P (f a)) : FailsIff P missing (x >>= f) := by
  intro s hs
  obtain ⟨hfail, hok⟩ := hx s hs
  constructor
  · intro hmissing
    obtain ⟨e, he⟩ := hfail hmissing
    exact ⟨e, bind_of_error he⟩
  · intro hmissing
    obtain ⟨a, s', ha, hs'⟩ := hok hmissing
    rw [bind_of_ok ha]
    exact hf hmissing a s' hs'

/-- A step that changes nothing stands before steps that can fail. -/
theorem failsIff_look_bind {x : EStateM ε σ α} {f : α → EStateM ε σ β} (hx : Looks P x Q)
    (hf : ∀ a, Q a → FailsIff P missing (f a)) : FailsIff P missing (x >>= f) := by
  intro s hs
  obtain ⟨a, ha, hQ⟩ := hx s hs
  rw [bind_of_ok ha]
  exact hf a hQ s hs

theorem failsIff_ite {c : Prop} [Decidable c] {x y : EStateM ε σ α} (hx : FailsIff P missing x)
    (hy : FailsIff P missing y) : FailsIff P missing (if c then x else y) := by
  split
  · exact hx
  · exact hy

/-- Steps that can fail do so exactly if something is missing, and then nothing is changed. -/
theorem FailsIff.error_iff {x : EStateM ε σ α} (h : FailsIff P missing x) {s : σ} (hs : P s) :
    ((∃ e s', x s = .error e s') ↔ missing) ∧ ∀ e s', x s = .error e s' → s' = s := by
  obtain ⟨hfail, hok⟩ := h s hs
  have hmissing : ∀ e s', x s = .error e s' → missing := by
    intro e s' herror
    refine Classical.not_not.mp fun hm => ?_
    obtain ⟨a, s'', ha, -⟩ := hok hm
    exact absurd (herror.symm.trans ha) nofun
  refine ⟨⟨fun ⟨e, s', he⟩ => hmissing e s' he, fun hm => ?_⟩, fun e s' herror => ?_⟩
  · obtain ⟨e, he⟩ := hfail hm
    exact ⟨e, s, he⟩
  · obtain ⟨e', he'⟩ := hfail (hmissing e s' herror)
    cases herror.symm.trans he'
    rfl

end PixelScene
