import Mathlib.Data.List.Infix

/-!
# Loops that may run on

A reader written as a loop does not show that it ends. Here a loop gets a number of rounds and is
left unfinished when these do not suffice, so that ending is something to prove.

* `Run` is a run that may fail or be left unfinished, `Reading` one that takes a front of its input.
* `loop` repeats a pass; `Progresses` says that a pass which is followed by another one has moved on
  in the input.
* `loop_ends`: a loop whose passes move on ends within as many rounds as there is input, and one
  more.
* `loop_agrees`: what a loop comes to, if it ends, is the result that solves its equation
  (`Solves`).

The readers of this library return with what they leave a proof that it is shorter, which is how
their recursion is justified. That says that they end, but not why the loops of the engine do, which
carry no such proof. Here the reason is a property of one pass, and running on is a value,
`unfinished`, that a run might have had.
-/

namespace PixelScene

/-! ## Runs -/

/-- A run that may fail, or be left unfinished. -/
abbrev Run (ε α : Type) := ExceptT ε Option α

namespace Run

variable {ε α β : Type}

/-- A run that is left unfinished. -/
def unfinished : Run ε α := ExceptT.mk none

/-- A run that ends at once. -/
def of (x : Except ε α) : Run ε α := ExceptT.mk (some x)

/-- The run returns a value. -/
def Returns (x : Run ε α) (a : α) : Prop := x = of (.ok a)

/-- The run ends, with a value or with an error. -/
def Ends (x : Run ε α) : Prop := ∃ r, x = of r

/-- The first run is the second one as far as it gets. -/
def Agrees (x y : Run ε α) : Prop := x = unfinished ∨ x = y

variable {x y : Run ε α} {f g : α → Run ε β} {a : α} {b : β} {e : ε}

/-- A run is left unfinished, fails or returns. -/
theorem cases (x : Run ε α) : x = unfinished ∨ (∃ e, x = of (.error e)) ∨ ∃ a, x.Returns a := by
  rcases x with _ | (e | a)
  · exact .inl rfl
  · exact .inr (.inl ⟨e, rfl⟩)
  · exact .inr (.inr ⟨a, rfl⟩)

theorem of_ne_unfinished (r : Except ε α) : of r ≠ unfinished := nofun

theorem of_inj {r r' : Except ε α} (h : of r = of r') : r = r' := Option.some.inj h

theorem error_bind (e : ε) (f : α → Run ε β) : (of (.error e) >>= f : Run ε β) = of (.error e) :=
  rfl

theorem ok_bind (a : α) (f : α → Run ε β) : (of (.ok a) >>= f : Run ε β) = f a := rfl

theorem Returns.bind_eq (h : x.Returns a) (f : α → Run ε β) : (x >>= f : Run ε β) = f a := by
  rw [h, ok_bind]

theorem returns_pure_iff {a b : α} : (pure a : Run ε α).Returns b ↔ b = a :=
  ⟨fun h => (Except.ok.inj (of_inj h)).symm, fun h => h ▸ rfl⟩

theorem not_returns_throw : ¬ (throw e : Run ε α).Returns a := fun h => absurd (of_inj h) nofun

theorem returns_bind_iff : (x >>= f : Run ε β).Returns b ↔ ∃ a, x.Returns a ∧ (f a).Returns b := by
  constructor
  · intro h
    rcases x.cases with rfl | ⟨e, rfl⟩ | ⟨a, hx⟩
    · exact absurd h.symm (of_ne_unfinished _)
    · exact absurd (of_inj h) nofun
    · exact ⟨a, hx, hx.bind_eq f ▸ h⟩
  · rintro ⟨a, hx, hf⟩
    rwa [hx.bind_eq]

theorem returns_of_iff {r : Except ε α} : (of r).Returns a ↔ r = .ok a :=
  ⟨of_inj, congrArg of⟩

/-! ### Ending -/

theorem ends_of (r : Except ε α) : (of r).Ends := ⟨r, rfl⟩

theorem ends_pure (a : α) : (pure a : Run ε α).Ends := ⟨.ok a, rfl⟩

theorem ends_throw (e : ε) : (throw e : Run ε α).Ends := ⟨.error e, rfl⟩

theorem Ends.bind (hx : x.Ends) (hf : ∀ a, x.Returns a → (f a).Ends) : (x >>= f : Run ε β).Ends := by
  obtain ⟨e | a, rfl⟩ := hx
  · exact ends_of _
  · exact hf a rfl

/-! ### Agreeing -/

theorem Agrees.refl (x : Run ε α) : Agrees x x := .inr rfl

theorem Agrees.eq (h : Agrees x y) (hx : x.Ends) : x = y := by
  obtain ⟨r, rfl⟩ := hx
  exact h.resolve_left (of_ne_unfinished r)

theorem Agrees.returns (h : Agrees x y) (hx : x.Returns a) : y.Returns a := by
  rcases h with rfl | rfl
  · exact absurd hx.symm (of_ne_unfinished _)
  · exact hx

theorem Agrees.bind (hx : Agrees x y) (hf : ∀ a, Agrees (f a) (g a)) :
    Agrees (x >>= f : Run ε β) (y >>= g) := by
  rcases hx with rfl | rfl
  · exact .inl rfl
  rcases x.cases with rfl | ⟨e, rfl⟩ | ⟨a, hx⟩
  · exact .inl rfl
  · exact .inr rfl
  · rw [hx.bind_eq, hx.bind_eq]
    exact hf a

end Run

/-! ## Readings -/

/-- A run that takes a front of its input and returns a value and the rest. -/
abbrev Reading (γ ε α : Type) := List γ → Run ε (α × List γ)

/-- The second rest of an input is further on than the first. -/
def Further {γ : Type} (xs rest : List γ) : Prop := rest <:+ xs ∧ rest.length < xs.length

section Further

variable {γ : Type} {xs ys zs : List γ} {x : γ}

theorem Further.suffix (h : Further xs ys) : ys <:+ xs := h.1

theorem Further.trans_suffix (h : Further xs ys) (hz : zs <:+ ys) : Further xs zs :=
  ⟨hz.trans h.1, Nat.lt_of_le_of_lt hz.length_le h.2⟩

theorem Further.of_suffix (hy : ys <:+ xs) (h : Further ys zs) : Further xs zs :=
  ⟨h.1.trans hy, Nat.lt_of_lt_of_le h.2 hy.length_le⟩

theorem further_cons (x : γ) (xs : List γ) : Further (x :: xs) xs :=
  ⟨List.suffix_cons x xs, Nat.lt_succ_self _⟩

/-- A rest is the whole input, or it is further on. -/
theorem eq_or_further (h : ys <:+ xs) : ys = xs ∨ Further xs ys := by
  rcases Nat.lt_or_ge ys.length xs.length with hlt | hge
  · exact .inr ⟨h, hlt⟩
  · exact .inl (h.eq_of_length_le hge)

end Further

/-- The reading takes a front of its input. -/
def Takes {γ ε α : Type} (reading : Reading γ ε α) : Prop :=
  ∀ xs a rest, (reading xs).Returns (a, rest) → rest <:+ xs

/-! ## Loops -/

/-- What one pass of a loop comes to: another pass, or a result. -/
inductive Pass (σ α : Type) where
  | again (s : σ)
  | done (a : α)

section Loop

variable {γ ε σ α : Type}

/-- What follows a pass: the result of going on from there, or the result it came to. -/
def Pass.follow (result : σ → Reading γ ε α) : Pass σ α × List γ → Run ε (α × List γ)
  | (.again s, rest) => result s rest
  | (.done a, rest) => pure (a, rest)

/-- Repeats a pass until it comes to a result, for a number of rounds. -/
def loop (pass : σ → Reading γ ε (Pass σ α)) : (rounds : Nat) → σ → Reading γ ε α
  | 0, _, _ => Run.unfinished
  | rounds + 1, s, xs => pass s xs >>= Pass.follow (loop pass rounds)

/-- The results solve the equation of the loop. -/
def Solves (pass : σ → Reading γ ε (Pass σ α)) (result : σ → Reading γ ε α) : Prop :=
  ∀ s xs, result s xs = pass s xs >>= Pass.follow result

/-- A pass that another one follows has moved on in the input. -/
def Progresses (pass : σ → Reading γ ε (Pass σ α)) : Prop :=
  ∀ s xs s' rest, (pass s xs).Returns (.again s', rest) → Further xs rest

variable {pass : σ → Reading γ ε (Pass σ α)}

/-- A loop returns after some passes, of which all but the last go on. -/
theorem loop_returns {rounds : Nat} {s : σ} {xs : List γ} {r : α × List γ}
    (h : (loop pass rounds s xs).Returns r) :
    (∃ s' rest n, (pass s xs).Returns (.again s', rest) ∧ n < rounds ∧
      (loop pass n s' rest).Returns r) ∨ (pass s xs).Returns (.done r.1, r.2) := by
  cases rounds with
  | zero => exact absurd h.symm (Run.of_ne_unfinished _)
  | succ rounds =>
    rw [loop, Run.returns_bind_iff] at h
    obtain ⟨⟨s' | a, rest⟩, hpass, hrest⟩ := h
    · exact .inl ⟨s', rest, rounds, hpass, Nat.lt_succ_self _, hrest⟩
    · rw [Run.returns_pure_iff.mp hrest]
      exact .inr hpass

theorem takes_loop (h : ∀ s, Takes (pass s)) (rounds : Nat) (s : σ) : Takes (loop pass rounds s) := by
  induction rounds using Nat.strong_induction_on generalizing s with
  | h rounds ih =>
    intro xs a rest hreturns
    rcases loop_returns hreturns with ⟨s', left, n, hpass, hn, hleft⟩ | hpass
    · exact (ih n hn s' left a rest hleft).trans (h s xs _ _ hpass)
    · exact h s xs _ _ hpass

/-- A loop whose first pass moves on does so. -/
theorem further_of_loop (h : ∀ s, Takes (pass s)) {rounds : Nat} {s : σ} {xs rest : List γ} {a : α}
    (hfirst : ∀ r left, (pass s xs).Returns (r, left) → Further xs left)
    (hreturns : (loop pass rounds s xs).Returns (a, rest)) : Further xs rest := by
  rcases loop_returns hreturns with ⟨s', left, n, hpass, -, hleft⟩ | hpass
  · exact (hfirst _ left hpass).trans_suffix (takes_loop h n s' left a rest hleft)
  · exact hfirst _ rest hpass

/-- **A loop whose passes move on ends**: it needs no more rounds than there is input, and one. -/
theorem loop_ends (hprogress : Progresses pass) {rounds : Nat} {s : σ} {xs : List γ}
    (hpass : ∀ s ys, ys <:+ xs → (pass s ys).Ends) (h : xs.length < rounds) :
    (loop pass rounds s xs).Ends := by
  induction rounds generalizing s xs with
  | zero => exact absurd h (Nat.not_lt_zero _)
  | succ rounds ih =>
    rw [loop]
    refine (hpass s xs List.suffix_rfl).bind fun r hr => ?_
    obtain ⟨s' | a, rest⟩ := r
    · obtain ⟨hsuffix, hlt⟩ := hprogress s xs s' rest hr
      exact ih (fun s ys hys => hpass s ys (hys.trans hsuffix))
        (Nat.lt_of_lt_of_le hlt (Nat.le_of_lt_succ h))
    · exact Run.ends_pure _

/-- What a loop comes to solves its equation, if its passes are those of the equation. -/
theorem loop_agrees {pass' : σ → Reading γ ε (Pass σ α)} {result : σ → Reading γ ε α}
    (hpass : ∀ s xs, (pass s xs).Agrees (pass' s xs)) (hresult : Solves pass' result)
    (rounds : Nat) (s : σ) (xs : List γ) : (loop pass rounds s xs).Agrees (result s xs) := by
  induction rounds generalizing s xs with
  | zero => exact .inl rfl
  | succ rounds ih =>
    rw [loop, hresult]
    refine (hpass s xs).bind fun r => ?_
    obtain ⟨s' | a, rest⟩ := r
    · exact ih s' rest
    · exact .refl _

end Loop

end PixelScene
