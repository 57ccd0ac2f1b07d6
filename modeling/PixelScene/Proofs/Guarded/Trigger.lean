import PixelScene.Proofs.Guarded.Memory
import PixelScene.Proofs.Touching

/-!
# Guarded triggers and actions

A collision looks at every pixel of the canvas and at its neighbours. The number of rows is counted
off the memory, while the number of columns is given; so every pixel that is looked at lies in the
memory, however many columns there are.

* `Guarded.touches_eq_ok`: pixels and their neighbours.
* `Guarded.eval_eq_ok`: expressions, whose variables are read from the memory.
* `Guarded.fires_eq_ok`, `Guarded.apply_mirrors`: triggers and actions.

Looking at a neighbour subtracts from the number of a pixel, which must not go below zero: the
engine asks for the row and the column first. A canvas without columns is refused before anything is
divided by their number. Logical operators stop early in the engine and have an arm that cannot be
reached; here the arm is a misuse.
-/

namespace PixelScene.Guarded

/-! ## Touching colours -/

/-- Whether a pixel has a colour. -/
def pixelIs (m : Memory) (c : Colour) (index : Nat) : Guarded Bool := do
  let start := index * pixelBytes
  let red ← byte m start
  let green ← byte m (start + 1)
  let blue ← byte m (start + 2)
  return red == c.red && green == c.green && blue == c.blue

/-- A number, if a condition holds. -/
def numberIf (c : Prop) [Decidable c] (i : Guarded Nat) : Guarded (List Nat) :=
  if c then i.map fun i => [i] else return []

/-- The numbers of the pixels beside, above and below the pixel at column `x` and row `y`. -/
def neighbours (width height x y : Nat) : Guarded (List Nat) := do
  let left ← numberIf (0 < x) (minus (y * width + x) 1)
  let right ← numberIf (x + 1 < width) (.ok (y * width + x + 1))
  let above ← numberIf (0 < y) ((minus y 1).map fun row => row * width + x)
  let below ← numberIf (y + 1 < height) (.ok ((y + 1) * width + x))
  return left ++ right ++ above ++ below

/-- Whether the pixel at column `x` and row `y` has a colour and one of its neighbours another. -/
def touchesAt (m : Memory) (width height : Nat) (a b : Colour) (y x : Nat) : Guarded Bool := do
  if ← pixelIs m a (y * width + x) then
    (← neighbours width height x y).anyM (pixelIs m b)
  else return false

/-- Whether some pixel of one colour has a neighbour of the other. -/
def touches (m : Memory) (width : Nat) (a b : Colour) : Guarded Bool := do
  if width = 0 then return false
  let height ← divide m.pixelCount width
  (List.range height).anyM fun y => (List.range width).anyM (touchesAt m width height a b y)

theorem pixelIs_eq_ok {m : Memory} {index : Nat} (h : index < m.pixelCount) (c : Colour) :
    pixelIs m c index = .ok (m.pixelIs index c) := by
  rw [Memory.pixelCount, pixelBytes] at h
  have hfits : index * pixelBytes + 2 < m.size := by
    rw [pixelBytes]
    omega
  rw [pixelIs, byte_eq_ok (by omega), ok_bind, byte_eq_ok (by omega), ok_bind, byte_eq_ok hfits]
  rfl

section NumberIf

variable {c : Prop} [Decidable c] {i j : Nat}

theorem numberIf_eq_ok {o : Guarded Nat} (h : c → o = .ok i) :
    numberIf c o = .ok (if c then [i] else []) := by
  unfold numberIf
  split
  · rename_i hc
    rw [h hc]
    rfl
  · rfl

theorem mem_ite_singleton : i ∈ (if c then [j] else []) ↔ c ∧ i = j := by
  split <;> simp_all

theorem any_ite_singleton (p : Nat → Bool) :
    (if c then [i] else []).any p = (decide c && p i) := by
  split <;> simp_all

end NumberIf

section Canvas

variable {width height x y : Nat}

/-- The pixels beside, above and below a pixel of the canvas are pixels of the canvas. -/
theorem exists_neighbours_eq_ok (hx : x < width) (hy : y < height) :
    ∃ l, neighbours width height x y = .ok l ∧ (∀ i ∈ l, i < height * width) ∧
      ∀ (m : Memory) (c : Colour), l.any (m.pixelIs · c) = m.neighbourIs width height x y c := by
  have hrow : 0 < y → (y - 1) * width + x = y * width + x - width := by
    intro hy
    have := Nat.le_mul_of_pos_left width hy
    rw [Nat.sub_mul, Nat.one_mul]
    omega
  have habove : 0 < y → (minus y 1).map (fun row => row * width + x) =
      .ok (y * width + x - width) := by
    intro hy
    rw [minus_eq_ok hy, ← hrow hy]
    rfl
  have hlist : neighbours width height x y = .ok ((if 0 < x then [y * width + x - 1] else []) ++
      (if x + 1 < width then [y * width + x + 1] else []) ++
      (if 0 < y then [y * width + x - width] else []) ++
      (if y + 1 < height then [(y + 1) * width + x] else [])) := by
    rw [neighbours, numberIf_eq_ok fun _ => minus_eq_ok (by omega), ok_bind,
      numberIf_eq_ok fun _ => rfl, ok_bind, numberIf_eq_ok habove, ok_bind,
      numberIf_eq_ok fun _ => rfl, ok_bind]
    rfl
  refine ⟨_, hlist, ?_, ?_⟩
  · have hpixel := Memory.place_lt hx hy
    intro i hi
    simp only [List.mem_append, mem_ite_singleton] at hi
    rcases hi with ((⟨_, rfl⟩ | ⟨hright, rfl⟩) | ⟨_, rfl⟩) | ⟨hbelow, rfl⟩
    · omega
    · exact Memory.place_lt hright hy
    · omega
    · exact Memory.place_lt hx hbelow
  · intro m c
    have hnext : (y + 1) * width + x = y * width + x + width := by
      rw [Nat.succ_mul]
      omega
    simp only [List.any_append, any_ite_singleton, hnext]
    rfl

end Canvas

theorem touches_eq_ok (m : Memory) (width : Nat) (a b : Colour) :
    touches m width a b = .ok (m.touches width a b) := by
  unfold touches Memory.touches
  split
  · rename_i hwidth
    subst hwidth
    rw [Nat.div_zero]
    rfl
  · rename_i hwidth
    -- the rows are counted off the memory, so the memory has all of their pixels
    have hfits : m.pixelCount / width * width ≤ m.pixelCount := Nat.div_mul_le_self _ _
    rw [divide_eq_ok hwidth, ok_bind]
    refine anyM_eq_ok fun y hy => anyM_eq_ok fun x hx => ?_
    rw [List.mem_range] at hx hy
    obtain ⟨l, hl, hmem, hany⟩ := exists_neighbours_eq_ok hx hy
    rw [touchesAt, pixelIs_eq_ok ((Memory.place_lt hx hy).trans_le hfits), ok_bind]
    cases m.pixelIs (y * width + x) a with
    | false => rfl
    | true =>
      rw [if_pos rfl, hl, ok_bind, Bool.true_and, ← hany]
      exact anyM_eq_ok fun i hi => pixelIs_eq_ok ((hmem i hi).trans_le hfits) b

/-! ## Conditions -/

/-- The value of a variable, zero when there is none or its bytes are not all in the memory. -/
def valueOf (m : Memory) (globals : Table Variable) (name : String) : Guarded Float :=
  match globals.get? name with
  | some v => do return (← (fetchNumber v.storage v.address).outcome? m).getD 0
  | none => return 0

/-- The value of an operator whose two operands are both needed. -/
def applyOp (op : BinaryOp) (a b : Float) : Guarded Float :=
  match op with
  | .and | .or => .error .unreachable
  | op => .ok (Expr.applyOp op a b)

/-- The value of an expression; a logical operator may not need its second operand. -/
def eval (read : String → Guarded Float) : Expr → Guarded Float
  | .number value => return value
  | .var name => read name
  | .neg inner => do return -(← eval read inner)
  | .not inner => do return Expr.truth ((← eval read inner) == 0)
  | .binary .and lhs rhs => do
    if Expr.holds (← eval read lhs) then return Expr.truth (Expr.holds (← eval read rhs))
    else return Expr.truth false
  | .binary .or lhs rhs => do
    if Expr.holds (← eval read lhs) then return Expr.truth true
    else return Expr.truth (Expr.holds (← eval read rhs))
  | .binary op lhs rhs => do
    let a ← eval read lhs
    let b ← eval read rhs
    applyOp op a b

/-- Whether an expression counts as true. -/
def isTrue (read : String → Guarded Float) (e : Expr) : Guarded Bool := do
  return Expr.holds (← eval read e)

/-- Whether a trigger fires in a frame. -/
def fires (t : Trigger) (m : Memory) (width : Nat) (held : Held) (globals : Table Variable) :
    Guarded Bool :=
  match t with
  | .frame => return true
  | .input action => return held.isActive action
  | .collision first second => touches m width first second
  | .state condition => isTrue (valueOf m globals) condition

theorem valueOf_eq_ok (m : Memory) (globals : Table Variable) (name : String) :
    valueOf m globals name = .ok (m.valueOf globals name) := by
  unfold valueOf Memory.valueOf
  cases globals.get? name with
  | none => rfl
  | some v =>
    dsimp only
    rw [(fetchNumber_mirrors v.storage v.address).outcome?]
    rfl

theorem eval_eq_ok {read : String → Guarded Float} {reading : String → Float}
    (h : ∀ name, read name = .ok (reading name)) (e : Expr) :
    eval read e = .ok (e.eval reading) := by
  induction e with
  | number value => rfl
  | var name => exact h name
  | neg inner ih => rw [eval, ih]; rfl
  | not inner ih => rw [eval, ih]; rfl
  | binary op lhs rhs ihl ihr =>
    -- a logical operator that stops early has its value all the same
    have hand : eval read (.binary .and lhs rhs) =
        .ok ((Expr.binary .and lhs rhs).eval reading) := by
      rw [eval, ihl, ihr, ok_bind, Expr.eval, Expr.applyOp]
      cases Expr.holds (lhs.eval reading) <;> rfl
    have hor : eval read (.binary .or lhs rhs) = .ok ((Expr.binary .or lhs rhs).eval reading) := by
      rw [eval, ihl, ihr, ok_bind, Expr.eval, Expr.applyOp]
      cases Expr.holds (lhs.eval reading) <;> rfl
    cases op with
    | and => exact hand
    | or => exact hor
    | _ =>
      change (eval read lhs >>= fun a => eval read rhs >>= fun b => applyOp _ a b) = _
      rw [ihl, ok_bind, ihr]
      rfl

theorem isTrue_eq_ok {read : String → Guarded Float} {reading : String → Float}
    (h : ∀ name, read name = .ok (reading name)) (e : Expr) :
    isTrue read e = .ok (e.isTrue reading) := by
  rw [isTrue, eval_eq_ok h]
  rfl

theorem fires_eq_ok (t : Trigger) (m : Memory) (width : Nat) (held : Held)
    (globals : Table Variable) :
    fires t m width held globals = .ok (t.fires m width held globals) := by
  cases t with
  | frame => rfl
  | input action => rfl
  | collision first second => exact touches_eq_ok m width first second
  | state condition => exact isTrue_eq_ok (valueOf_eq_ok m globals) condition

/-! ## Actions -/

/-- Carries an action out; tells whether its variable is declared. -/
def apply (a : Assignment) (globals : Table Variable) : GuardedEdit Bool := do
  match globals.get? a.target with
  | none => return false
  | some v =>
    let m ← (get : Edit Memory)
    let value ← eval (valueOf m globals) a.value
    let old ← match a.op with
      | .set => pure 0
      | _ => fetchNumber v.storage v.address
    storeNumber v.storage v.address (Assignment.combine a.op old value)
    return true

theorem apply_mirrors (a : Assignment) (globals : Table Variable) :
    Mirrors (apply a globals) (a.apply globals) := by
  obtain ⟨target, op, value⟩ := a
  unfold apply Assignment.apply
  cases globals.get? target with
  | none => exact mirrors_pure _
  | some v =>
    refine mirrors_bind (mirrors_lift _) fun m => ?_
    refine mirrors_guard_bind (eval_eq_ok (valueOf_eq_ok m globals) value) ?_
    have hstore : ∀ x, Mirrors (do storeNumber v.storage v.address x; return true)
        (do Edit.storeNumber v.storage v.address x; return true) :=
      fun x => mirrors_bind (storeNumber_mirrors _ _ _) fun _ => mirrors_pure _
    cases op with
    | set => exact mirrors_bind (mirrors_pure _) fun _ => hstore _
    | add => exact mirrors_bind (fetchNumber_mirrors _ _) fun _ => hstore _
    | sub => exact mirrors_bind (fetchNumber_mirrors _ _) fun _ => hstore _

end PixelScene.Guarded
