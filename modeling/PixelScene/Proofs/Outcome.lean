/-!
# Steps that may fail

* `bind_eq_ok_iff`, `bind_eq_error_iff`: when a sequence of steps succeeds and when it fails.
* `foldlM_trace`, `foldlM_invariant`: what a loop adds up, and what it keeps.
* `Yields x a`: the step `x` returns `a`, together with what it proves about `a`. The readers return
  what is left of their input with a bound on its length; `Yields` speaks about the rest alone.

The readers of scripts, of expressions and of options are loops over steps that may fail, and they
stop at the first one that does. These are the rules that take such loops apart, so that a statement
about a reader is proved along its steps and not by unfolding it.
-/

namespace PixelScene

variable {α β ε : Type}

/-! ## Sequences of steps -/

theorem bind_eq_ok_iff {x : Except ε α} {f : α → Except ε β} {b : β} :
    (x >>= f) = .ok b ↔ ∃ a, x = .ok a ∧ f a = .ok b := by
  cases x <;> simp [bind, Except.bind]

theorem bind_eq_error_iff {x : Except ε α} {f : α → Except ε β} {e : ε} :
    (x >>= f) = .error e ↔ x = .error e ∨ ∃ a, x = .ok a ∧ f a = .error e := by
  cases x <;> simp [bind, Except.bind]

theorem pure_eq_ok_iff {a b : α} : (pure a : Except ε α) = .ok b ↔ a = b :=
  ⟨Except.ok.inj, congrArg Except.ok⟩

/-- Wording a failure in another way makes no success of it. -/
theorem mapError_eq_ok_iff {ε' : Type} {x : Except ε α} {f : ε → ε'} {a : α} :
    x.mapError f = .ok a ↔ x = .ok a := by
  cases x with
  | ok b => exact ⟨fun h => congrArg Except.ok (Except.ok.inj h),
      fun h => congrArg Except.ok (Except.ok.inj h)⟩
  | error e => exact ⟨nofun, nofun⟩

theorem throw_bind_ne_ok {e : ε} {f : α → Except ε β} {b : β} : (throw e >>= f) ≠ .ok b := nofun

/-- A loop adds up what each of its steps puts out. -/
theorem foldlM_trace {γ : Type} {P : List γ → β → Prop} {step : β → α → Except ε β}
    {out : α → List γ}
    (hstep : ∀ xs b a b', P xs b → step b a = .ok b' → P (xs ++ out a) b') :
    ∀ {l : List α} {xs : List γ} {b b' : β}, P xs b → l.foldlM step b = .ok b' →
      P (xs ++ l.flatMap out) b'
  | [], xs, b, b', hb, h => by
    rw [List.foldlM_nil, pure_eq_ok_iff] at h
    rw [List.flatMap_nil, List.append_nil]
    exact h ▸ hb
  | a :: l, xs, b, b', hb, h => by
    rw [List.foldlM_cons, bind_eq_ok_iff] at h
    obtain ⟨c, hc, hl⟩ := h
    rw [List.flatMap_cons, ← List.append_assoc]
    exact foldlM_trace hstep (hstep xs b a c hb hc) hl

/-- What every step of a loop keeps holds of what the loop returns. -/
theorem foldlM_invariant {P : β → Prop} {step : β → α → Except ε β}
    (hstep : ∀ b a b', P b → step b a = .ok b' → P b') {l : List α} {b b' : β} (hb : P b)
    (h : l.foldlM step b = .ok b') : P b' :=
  -- a loop whose steps put nothing out
  @foldlM_trace α β ε Unit (fun _ => P) step (fun _ => []) (fun _ => hstep) l [] b b' hb h

/-! ## What a step returns -/

/-- The step returns `a`, whatever it proves about it. -/
def Yields {p : α → Prop} (x : Except ε { a // p a }) (a : α) : Prop := ∃ h, x = .ok ⟨a, h⟩

section Yields

variable {p : α → Prop} {q : β → Prop}

theorem yields_pure_iff {a b : α} {h : p a} :
    Yields (pure ⟨a, h⟩ : Except ε { a // p a }) b ↔ b = a := by
  constructor
  · rintro ⟨_, hb⟩
    exact (congrArg Subtype.val (Except.ok.inj hb)).symm
  · rintro rfl
    exact ⟨h, rfl⟩

theorem not_yields_throw {e : ε} {a : α} : ¬ Yields (throw e : Except ε { a // p a }) a := by
  rintro ⟨_, h⟩
  exact absurd h nofun

/-- A step returns one thing only. -/
theorem Yields.unique {x : Except ε { a // p a }} {a b : α} (ha : Yields x a) (hb : Yields x b) :
    a = b := by
  obtain ⟨_, ha⟩ := ha
  obtain ⟨_, hb⟩ := hb
  exact congrArg Subtype.val (Except.ok.inj (ha.symm.trans hb))

/-- A sequence of two steps returns what the second returns on what the first returns. -/
theorem yields_bind_iff {x : Except ε { a // p a }} {f : { a // p a } → Except ε { b // q b }}
    {b : β} : Yields (x >>= f) b ↔ ∃ a h, Yields x a ∧ Yields (f ⟨a, h⟩) b := by
  constructor
  · rintro ⟨hb, h⟩
    obtain ⟨⟨a, ha⟩, hx, hf⟩ := bind_eq_ok_iff.mp h
    exact ⟨a, ha, ⟨ha, hx⟩, ⟨hb, hf⟩⟩
  · rintro ⟨a, ha, ⟨_, hx⟩, ⟨hb, hf⟩⟩
    exact ⟨hb, bind_eq_ok_iff.mpr ⟨⟨a, ha⟩, hx, hf⟩⟩

/-- A sequence of two steps fails with the first, or with the second on what the first returns. -/
theorem bind_eq_error_iff_yields {x : Except ε { a // p a }} {f : { a // p a } → Except ε β}
    {e : ε} : (x >>= f) = .error e ↔ x = .error e ∨ ∃ a h, Yields x a ∧ f ⟨a, h⟩ = .error e := by
  rw [bind_eq_error_iff]
  refine or_congr_right ⟨?_, ?_⟩
  · rintro ⟨⟨a, h⟩, hx, hf⟩
    exact ⟨a, h, ⟨h, hx⟩, hf⟩
  · rintro ⟨a, _, ⟨h, hx⟩, hf⟩
    exact ⟨⟨a, h⟩, hx, hf⟩

/-- The first step may return something without a proof. -/
theorem yields_bind_ok_iff {x : Except ε α} {f : α → Except ε { b // q b }} {b : β} :
    Yields (x >>= f) b ↔ ∃ a, x = .ok a ∧ Yields (f a) b := by
  constructor
  · rintro ⟨hb, h⟩
    obtain ⟨a, hx, hf⟩ := bind_eq_ok_iff.mp h
    exact ⟨a, hx, ⟨hb, hf⟩⟩
  · rintro ⟨a, hx, ⟨hb, hf⟩⟩
    exact ⟨hb, bind_eq_ok_iff.mpr ⟨a, hx, hf⟩⟩

/-- A step that only rearranges what the step before it returns. -/
theorem yields_bind_pure_iff {x : Except ε { a // p a }} {f : { a // p a } → Except ε { b // q b }}
    (g : α → β) (hf : ∀ a h, ∃ h', f ⟨a, h⟩ = pure ⟨g a, h'⟩) {b : β} :
    Yields (x >>= f) b ↔ ∃ a, Yields x a ∧ b = g a := by
  rw [yields_bind_iff]
  constructor
  · rintro ⟨a, h, hx, hb⟩
    obtain ⟨_, hf⟩ := hf a h
    rw [hf] at hb
    exact ⟨a, hx, yields_pure_iff.mp hb⟩
  · rintro ⟨a, hx, rfl⟩
    obtain ⟨_, hf⟩ := hf a hx.choose
    exact ⟨a, hx.choose, hx, hf ▸ yields_pure_iff.mpr rfl⟩

/-- A step that puts an element in front of what the step before it returns. -/
theorem yields_bind_cons_iff {p q : List α × β → Prop} {x : Except ε { a // p a }}
    {f : { a // p a } → Except ε { b // q b }} (b : α)
    (hf : ∀ a h, ∃ h', f ⟨a, h⟩ = pure ⟨(b :: a.1, a.2), h'⟩) {r : List α × β} :
    Yields (x >>= f) r ↔ ∃ a, Yields x a ∧ r = (b :: a.1, a.2) :=
  yields_bind_pure_iff (fun a : List α × β => (b :: a.1, a.2)) hf

theorem map_val_eq_ok_iff {x : Except ε { a // p a }} {a : α} :
    x.map Subtype.val = .ok a ↔ Yields x a := by
  cases x with
  | error e => exact ⟨fun h => absurd h nofun, fun h => absurd h not_yields_throw⟩
  | ok r =>
    refine Iff.trans ?_ yields_pure_iff.symm
    exact ⟨fun h => (Except.ok.inj h).symm, fun h => congrArg Except.ok h.symm⟩

end Yields

end PixelScene
