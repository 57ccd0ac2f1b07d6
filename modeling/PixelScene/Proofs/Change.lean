import Mathlib.Order.Defs.Unbundled

/-!
# What a sequence of changes keeps

A sequence of changes may fail on the way, and then what was changed before stays changed.
`Keeps R x` says that `R` relates the state before `x` to the state after it, however `x` ends. If
`R` is reflexive and transitive, a sequence keeps what its parts keep.

* `keeps_bind`, `keeps_ite`, `keeps_forM`, `keeps_foldlM`: sequences, choices and loops.
* `keeps_get_bind`: a part may depend on the state that it starts from.
* `foldl_keeps`: the same for a fold over a list.

The edits of a memory and the ticks of a component are such sequences (`Edit`, `Tick`), and so is a
session of a program. What a component may write, what keeps the size of the memory and what keeps a
memory sound are relations `R`, each of them carried through the components by these rules. A
failure needs no rule of its own, since `Keeps` speaks of both ends.
-/

namespace PixelScene

variable {ε σ τ α β : Type}

/-- The state that a sequence of changes leaves, whether it succeeds or fails. -/
def leaves (x : EStateM ε σ α) (s : σ) : σ :=
  match x s with
  | .ok _ s' => s'
  | .error _ s' => s'

/-- The relation holds between the state before and the state after, from every start. -/
def Keeps (R : σ → σ → Prop) (x : EStateM ε σ α) : Prop := ∀ s, R s (leaves x s)

theorem leaves_of_ok {x : EStateM ε σ α} {s s' : σ} {a : α} (h : x s = .ok a s') :
    leaves x s = s' := by
  rw [leaves, h]

theorem leaves_of_error {x : EStateM ε σ α} {s s' : σ} {e : ε} (h : x s = .error e s') :
    leaves x s = s' := by
  rw [leaves, h]

theorem bind_of_ok {x : EStateM ε σ α} {f : α → EStateM ε σ β} {s s' : σ} {a : α}
    (h : x s = .ok a s') : (x >>= f) s = f a s' := by
  change EStateM.bind x f s = _
  rw [EStateM.bind, h]

theorem bind_of_error {x : EStateM ε σ α} {f : α → EStateM ε σ β} {s s' : σ} {e : ε}
    (h : x s = .error e s') : (x >>= f) s = .error e s' := by
  change EStateM.bind x f s = _
  rw [EStateM.bind, h]

theorem leaves_bind_of_ok {x : EStateM ε σ α} {f : α → EStateM ε σ β} {s s' : σ} {a : α}
    (h : x s = .ok a s') : leaves (x >>= f) s = leaves (f a) s' := by
  rw [leaves, bind_of_ok h, leaves]

/-- A sequence succeeds when both of its parts do. -/
theorem bind_run_eq_ok_iff {x : EStateM ε σ α} {f : α → EStateM ε σ β} {s s' : σ} {b : β} :
    (x >>= f) s = .ok b s' ↔ ∃ a s₁, x s = .ok a s₁ ∧ f a s₁ = .ok b s' := by
  refine ⟨fun h => ?_, fun ⟨a, s₁, hx, hf⟩ => (bind_of_ok hx).trans hf⟩
  cases hx : x s with
  | ok a s₁ => exact ⟨a, s₁, rfl, (bind_of_ok hx).symm.trans h⟩
  | error e s₁ =>
    rw [bind_of_error hx] at h
    cases h

theorem get_eq_ok {s : σ} : (get : EStateM ε σ σ) s = .ok s s := rfl

/-- A sequence leaves what its second part leaves, or what its first part leaves if that fails. -/
theorem leaves_bind_cases (x : EStateM ε σ α) (f : α → EStateM ε σ β) (s : σ) :
    leaves (x >>= f) s = leaves x s ∨ ∃ a, leaves (x >>= f) s = leaves (f a) (leaves x s) := by
  cases h : x s with
  | ok a s' =>
    refine .inr ⟨a, ?_⟩
    rw [leaves_of_ok h, leaves, bind_of_ok h]
    rfl
  | error e s' =>
    refine .inl ?_
    rw [leaves_of_error h, leaves_of_error (bind_of_error h)]

theorem leaves_set_bind (s' : σ) (f : PUnit → EStateM ε σ β) (s : σ) :
    leaves (set s' >>= f) s = leaves (f ⟨⟩) s' := rfl

theorem Keeps.mono {R S : σ → σ → Prop} {x : EStateM ε σ α} (h : Keeps R x)
    (hRS : ∀ s s', R s s' → S s s') : Keeps S x := fun s => hRS _ _ (h s)

/-- What follows a look at the state has to keep the relation from that state only. -/
theorem keeps_get_bind {R : σ → σ → Prop} {f : σ → EStateM ε σ β}
    (hf : ∀ s, R s (leaves (f s) s)) : Keeps R (get >>= f) := hf

theorem keeps_ite {R : σ → σ → Prop} {c : Prop} [Decidable c] {x y : EStateM ε σ α} (hx : Keeps R x)
    (hy : Keeps R y) : Keeps R (if c then x else y) := by
  split
  · exact hx
  · exact hy

section Preorder

variable {R : σ → σ → Prop} [IsPreorder σ R]

theorem keeps_pure (a : α) : Keeps R (pure a : EStateM ε σ α) := Std.Refl.refl

theorem keeps_throw (e : ε) : Keeps R (throw e : EStateM ε σ α) := Std.Refl.refl

theorem keeps_bind {x : EStateM ε σ α} {f : α → EStateM ε σ β} (hx : Keeps R x)
    (hf : ∀ a, Keeps R (f a)) : Keeps R (x >>= f) := by
  intro s
  rcases leaves_bind_cases x f s with h | ⟨a, h⟩
  · rw [h]
    exact hx s
  · rw [h]
    exact IsTrans.trans _ _ _ (hx s) (hf a _)

theorem keeps_forM {f : α → EStateM ε σ PUnit} (hf : ∀ a, Keeps R (f a)) (l : List α) :
    Keeps R (l.forM f) := by
  induction l with
  | nil => exact keeps_pure _
  | cons a l ih => exact keeps_bind (hf a) fun _ => ih

theorem keeps_foldlM {f : β → α → EStateM ε σ β} (hf : ∀ b a, Keeps R (f b a)) (l : List α)
    (b : β) : Keeps R (l.foldlM f b) := by
  induction l generalizing b with
  | nil => exact keeps_pure _
  | cons a l ih => exact keeps_bind (hf b a) fun b => ih b

/-- A fold keeps what each of its steps keeps. -/
theorem foldl_keeps {step : τ → α → τ} {f : τ → σ} {l : List α}
    (hstep : ∀ b, ∀ a ∈ l, R (f b) (f (step b a))) (b : τ) : R (f b) (f (l.foldl step b)) := by
  induction l generalizing b with
  | nil => exact Std.Refl.refl _
  | cons a l ih =>
    have hrest := ih (fun b a ha => hstep b a (List.mem_cons_of_mem _ ha)) (step b a)
    exact IsTrans.trans _ _ _ (hstep b a List.mem_cons_self) hrest

end Preorder

end PixelScene
