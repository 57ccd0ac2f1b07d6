import PixelScene.Proofs.Change
import PixelScene.World

/-!
# Guarded steps

Some operations are not meant for every operand: an element behind the end of a sequence, a
difference of numbers without a sign that falls below zero, a remainder by zero, a number held
between bounds of which the lower one is the greater, a random number out of an empty range. The
definitions of this library give all of them some value. A guarded computation looks at the operands
first, and a `Misuse` stops it when they do not fit.

* `Guarded` has the operations, and with `Guarded.anyM_eq_ok` and its like the loops that go on to
  the end.
* `GuardedSteps` are steps that may fail, with guarded operations among them.
* `Mirrors g x`: the guarded steps `g` are never stopped, and do what the steps `x` do.
* `mirrors_bind`, `mirrors_read_bind`, `mirrors_forM`: sequences and loops.

The operations are those of the engine that stop the program when they are misused, in a release as
in any other build. Sums that overflow are not among them: they wrap around in a release. A guarded
definition is written beside each definition that a tick uses, with the same shape, so a reader can
compare the two line by line.
-/

namespace PixelScene

/-! ## Guarded operations -/

/-- An operation on operands that it is not meant for. -/
inductive Misuse where
  | index (i size : Nat)
  | slice (start stop size : Nat)
  | negative
  | zeroDivisor
  | emptyClamp
  | emptyRange
  | unreachable
deriving DecidableEq, Repr

/-- A computation that a misuse stops. -/
abbrev Guarded (α : Type) := Except Misuse α

namespace Guarded

variable {α β : Type}

/-- The byte at an address. -/
def byte (m : Memory) (address : Nat) : Guarded UInt8 :=
  if address < m.size then .ok (m.byte address) else .error (.index address m.size)

/-- The memory with another byte at an address. -/
def setByte (m : Memory) (address : Nat) (value : UInt8) : Guarded Memory :=
  if address < m.size then .ok (m.setByte address value) else .error (.index address m.size)

/-- The element of a list at a place. -/
def item (l : List α) (i : Nat) : Guarded α :=
  match l[i]? with
  | some a => .ok a
  | none => .error (.index i l.length)

/-- The elements of a list from one place up to but without another. -/
def slice (l : List α) (start stop : Nat) : Guarded (List α) :=
  if start ≤ stop ∧ stop ≤ l.length then .ok ((l.drop start).take (stop - start))
  else .error (.slice start stop l.length)

/-- A difference that must not fall below zero. -/
def minus [LE α] [DecidableLE α] [Sub α] (a b : α) : Guarded α :=
  if b ≤ a then .ok (a - b) else .error .negative

/-- A quotient. -/
def divide (a b : Nat) : Guarded Nat := if b = 0 then .error .zeroDivisor else .ok (a / b)

/-- A remainder. -/
def modulo (a b : Nat) : Guarded Nat := if b = 0 then .error .zeroDivisor else .ok (a % b)

/-- A number held between two bounds. -/
def clamp (low high n : Int) : Guarded Int :=
  if low ≤ high then .ok (Number.clamp low high n) else .error .emptyClamp

/-- The nearest integer to a number, held between two bounds. -/
def round (low high : Int) (x : Number.Exact) : Guarded Int :=
  if low ≤ high then .ok (x.round low high) else .error .emptyClamp

/-- A random number between two bounds, both included, and the rest of the sequence. -/
def between (r : Random) (low high : Int) : Guarded (Int × Random) :=
  if low ≤ high then .ok (r.between low high) else .error .emptyRange

theorem byte_eq_ok {m : Memory} {address : Nat} (h : address < m.size) :
    byte m address = .ok (m.byte address) := if_pos h

theorem setByte_eq_ok {m : Memory} {address : Nat} (h : address < m.size) (value : UInt8) :
    setByte m address value = .ok (m.setByte address value) := if_pos h

theorem item_eq_ok {l : List α} {i : Nat} {a : α} (h : l[i]? = some a) : item l i = .ok a := by
  rw [item, h]

theorem slice_eq_ok {l : List α} {start stop : Nat} (h : start ≤ stop) (hstop : stop ≤ l.length) :
    slice l start stop = .ok ((l.drop start).take (stop - start)) := if_pos ⟨h, hstop⟩

theorem minus_eq_ok [LE α] [DecidableLE α] [Sub α] {a b : α} (h : b ≤ a) :
    minus a b = .ok (a - b) := if_pos h

theorem divide_eq_ok {b : Nat} (h : b ≠ 0) (a : Nat) : divide a b = .ok (a / b) := if_neg h

theorem modulo_eq_ok {b : Nat} (h : b ≠ 0) (a : Nat) : modulo a b = .ok (a % b) := if_neg h

theorem clamp_eq_ok {low high : Int} (h : low ≤ high) (n : Int) :
    clamp low high n = .ok (Number.clamp low high n) := if_pos h

theorem between_eq_ok (r : Random) {low high : Int} (h : low ≤ high) :
    between r low high = .ok (r.between low high) := if_pos h

/-- Nothing stands behind the end of a memory. -/
example : byte (Memory.zeros 4) 4 = .error (.index 4 4) := rfl

/-! ## Loops -/

theorem ok_bind (a : α) (f : α → Guarded β) : (Except.ok a >>= f) = f a := rfl

/-- A search among elements of which none is misused. -/
theorem anyM_eq_ok {p : α → Guarded Bool} {q : α → Bool} {l : List α}
    (h : ∀ a ∈ l, p a = .ok (q a)) : l.anyM p = .ok (l.any q) := by
  induction l with
  | nil => rfl
  | cons a l ih =>
    rw [List.anyM, h a List.mem_cons_self, ok_bind, List.any_cons]
    cases q a with
    | true => rfl
    | false => exact ih fun b hb => h b (List.mem_cons_of_mem _ hb)

theorem filterM_eq_ok {p : α → Guarded Bool} {q : α → Bool} (h : ∀ a, p a = .ok (q a))
    (l : List α) : l.filterM p = .ok (l.filter q) := by
  have haux : ∀ l acc : List α, l.filterAuxM p acc = .ok ((l.filter q).reverse ++ acc) := by
    intro l
    induction l with
    | nil => exact fun _ => rfl
    | cons a l ih =>
      intro acc
      rw [List.filterAuxM, h a, ok_bind, ih]
      cases hq : q a <;> simp [hq]
  rw [List.filterM, haux, ok_bind, List.append_nil, List.reverse_reverse]
  rfl

theorem foldlM_eq_ok {step : β → α → Guarded β} {f : β → α → β}
    (h : ∀ b a, step b a = .ok (f b a)) (l : List α) (b : β) :
    l.foldlM step b = .ok (l.foldl f b) := by
  rw [funext fun b => funext (h b)]
  exact List.foldlM_pure

theorem findM?_eq_ok {p : α → Guarded Bool} {q : α → Bool} (h : ∀ a, p a = .ok (q a))
    (l : List α) : l.findM? p = .ok (l.find? q) := by
  rw [funext h]
  exact List.findM?_pure q l

theorem mapM_eq_ok {p : α → Guarded β} {f : α → β} (h : ∀ a, p a = .ok (f a)) (l : List α) :
    l.mapM p = .ok (l.map f) := by
  rw [funext h]
  exact List.mapM_pure

end Guarded

/-! ## Steps -/

/-- Steps that may fail, and that a misuse stops. -/
def GuardedSteps (ε σ α : Type) := σ → Guarded (EStateM.Result ε σ α)

/-- Guarded changes to the memory. -/
abbrev GuardedEdit (α : Type) := GuardedSteps AccessError Memory α

variable {ε σ α β : Type}

namespace GuardedSteps

/-- One step after the other; a failure ends the sequence. -/
def bind (g : GuardedSteps ε σ α) (k : α → GuardedSteps ε σ β) : GuardedSteps ε σ β := fun s => do
  match ← g s with
  | .ok a s' => k a s'
  | .error e s' => return .error e s'

instance : Monad (GuardedSteps ε σ) where
  pure a := fun s => .ok (.ok a s)
  bind := bind

/-- Steps without an operation that could be misused. -/
instance : MonadLift (EStateM ε σ) (GuardedSteps ε σ) where
  monadLift x := fun s => .ok (x s)

/-- A guarded operation as a step. -/
instance : MonadLift Guarded (GuardedSteps ε σ) where
  monadLift g := fun s => do return .ok (← g) s

/-- What the steps return from a state, if they do not fail there. -/
def outcome? (g : GuardedSteps ε σ α) (s : σ) : Guarded (Option α) := do
  match ← g s with
  | .ok a _ => return some a
  | .error _ _ => return none

end GuardedSteps

/-- The guarded steps are never stopped, and do what the steps do. -/
def Mirrors (g : GuardedSteps ε σ α) (x : EStateM ε σ α) : Prop := ∀ s, g s = .ok (x s)

section Mirrors

variable {g : GuardedSteps ε σ α} {x : EStateM ε σ α} {k : α → GuardedSteps ε σ β}
  {f : α → EStateM ε σ β}

theorem mirrors_lift (x : EStateM ε σ α) : Mirrors (liftM x) x := fun _ => rfl

theorem mirrors_pure (a : α) : Mirrors (pure a : GuardedSteps ε σ α) (pure a) := fun _ => rfl

theorem Mirrors.bind_of_ok (hx : Mirrors g x) {s s' : σ} {a : α} (h : x s = .ok a s') :
    (g >>= k) s = k a s' := by
  change GuardedSteps.bind g k s = _
  rw [GuardedSteps.bind, hx s, h, Guarded.ok_bind]

theorem Mirrors.bind_of_error (hx : Mirrors g x) {s s' : σ} {e : ε} (h : x s = .error e s') :
    (g >>= k) s = .ok (.error e s') := by
  change GuardedSteps.bind g k s = _
  rw [GuardedSteps.bind, hx s, h, Guarded.ok_bind]
  rfl

/-- The second part of a sequence may rely on what the first returns. -/
theorem mirrors_bind_of_returns (hx : Mirrors g x)
    (hk : ∀ s a s', x s = .ok a s' → k a s' = .ok (f a s')) : Mirrors (g >>= k) (x >>= f) := by
  intro s
  cases h : x s with
  | ok a s' => rw [hx.bind_of_ok h, PixelScene.bind_of_ok h, hk s a s' h]
  | error e s' => rw [hx.bind_of_error h, PixelScene.bind_of_error h]

theorem mirrors_bind (hx : Mirrors g x) (hk : ∀ a, Mirrors (k a) (f a)) :
    Mirrors (g >>= k) (x >>= f) := mirrors_bind_of_returns hx fun _ a s' _ => hk a s'

/-- A guarded operation with a result leaves no trace. -/
theorem mirrors_guard_bind {o : Guarded α} {a : α} {y : EStateM ε σ β} (h : o = .ok a)
    (hk : Mirrors (k a) y) : Mirrors (liftM o >>= k) y := by
  subst h
  exact hk

theorem mirrors_guard {o : Guarded α} {a : α} (h : o = .ok a) :
    Mirrors (liftM o : GuardedSteps ε σ α) (pure a) := by
  subst h
  exact mirrors_pure a

theorem mirrors_ite {c : Prop} [Decidable c] {h : GuardedSteps ε σ α} {y : EStateM ε σ α}
    (hx : Mirrors g x) (hy : Mirrors h y) : Mirrors (if c then g else h) (if c then x else y) := by
  split
  · exact hx
  · exact hy

theorem mirrors_forM {k : α → GuardedSteps ε σ PUnit} {f : α → EStateM ε σ PUnit}
    (hk : ∀ a, Mirrors (k a) (f a)) (l : List α) : Mirrors (l.forM k) (l.forM f) := by
  induction l with
  | nil => exact mirrors_pure _
  | cons a l ih => exact mirrors_bind (hk a) fun _ => ih

theorem mirrors_foldlM {k : β → α → GuardedSteps ε σ β} {f : β → α → EStateM ε σ β}
    (hk : ∀ b a, Mirrors (k b a) (f b a)) (l : List α) (b : β) :
    Mirrors (l.foldlM k b) (l.foldlM f b) := by
  induction l generalizing b with
  | nil => exact mirrors_pure _
  | cons a l ih => exact mirrors_bind (hk b a) fun b => ih b

end Mirrors

/-! ## Readings -/

section Readings

variable {f : Memory → Except AccessError α} {g : GuardedEdit α}

theorem mirrors_read_pure (a : α) :
    Mirrors (pure a : GuardedEdit α) (Edit.read fun _ => return a) := fun _ => rfl

theorem Edit.read_eq_ok_iff {m m' : Memory} {a : α} :
    Edit.read f m = .ok a m' ↔ f m = .ok a ∧ m' = m := by
  rw [Edit.read]
  cases f m with
  | ok b =>
    constructor
    · intro h
      cases h
      exact ⟨rfl, rfl⟩
    · rintro ⟨h, rfl⟩
      cases h
      rfl
  | error e => exact ⟨nofun, fun h => absurd h.1 nofun⟩

theorem Edit.read_bind (f : Memory → Except AccessError α) (h : α → Memory → Except AccessError β) :
    (Edit.read fun m => f m >>= fun a => h a m) = Edit.read f >>= fun a => Edit.read (h a) := by
  funext m
  cases hm : f m with
  | ok a => rw [bind_of_ok (by rw [Edit.read, hm]), Edit.read, Edit.read, hm]; rfl
  | error e => rw [bind_of_error (by rw [Edit.read, hm]), Edit.read, hm]; rfl

/-- One reading after the other. -/
theorem mirrors_read_bind {k : α → GuardedEdit β} {h : α → Memory → Except AccessError β}
    (hf : Mirrors g (Edit.read f)) (hk : ∀ a, Mirrors (k a) (Edit.read (h a))) :
    Mirrors (g >>= k) (Edit.read fun m => f m >>= fun a => h a m) := by
  rw [Edit.read_bind]
  exact mirrors_bind hf hk

/-- What comes after a check may rely on it. -/
theorem mirrors_check_bind {check : Memory → Except AccessError Unit} {k : GuardedEdit α}
    {y : Edit α} (h : ∀ m, check m = .ok () → k m = .ok (y m)) :
    Mirrors (liftM (Edit.read check) >>= fun _ => k) (Edit.read check >>= fun _ => y) := by
  refine mirrors_bind_of_returns (mirrors_lift _) fun m _ m' hread => ?_
  obtain ⟨hm, rfl⟩ := Edit.read_eq_ok_iff.mp hread
  exact h _ hm

/-- A guarded reading gives what the reading gives. -/
theorem Mirrors.outcome? (h : Mirrors g (Edit.read f)) (m : Memory) :
    g.outcome? m = .ok ((f m).toOption) := by
  rw [GuardedSteps.outcome?, h m, Guarded.ok_bind, Edit.read]
  cases f m <;> rfl

end Readings

end PixelScene
