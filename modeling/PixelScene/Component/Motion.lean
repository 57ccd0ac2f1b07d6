import PixelScene.Component.Basic

/-!
# Components that move their entity

Each of these changes the position or the velocity of its own entity only.

* `gravity`, `kinematic`, `friction`, `bounds` work on numbers alone;
* `collider`, `platformController`, `patrol`, `pathFollower` look at the baked geometry;
* `playerController` follows the actions that are held, `chase` the nearest other entity.

A component first reads what it needs and then writes, so it either fails and leaves the world as it
was, or gets to its end, as far as the scratch bytes that it was given allow. Integers have 64 bits
and wrap around, as in `PixelScene.Component.Life`; what a position or a velocity of a slot can grow
to is far from that bound, but properties are any doubles.
-/

namespace PixelScene.Component

/-! ## Positions -/

/-- The position of an entity as a point. -/
def center (slot : Nat) : Tick Point := do
  let (x, y) ← Tick.read (·.position slot)
  return Point.ofInts x y

/-- Whether the entity of another slot is one that the component looks for. -/
def isTarget (m : Memory) (target : Option (Option Nat)) (other : Nat) : Bool :=
  match target with
  | none => true
  | some none => false
  | some (some id) => (m.field other .typeId).toOption == some (id : Int)

/-- The active slots but the entity's own that hold what the `target` property names. -/
def others (slot : Nat) (p : Properties) (env : Surroundings) : Tick (List Nat) := do
  let m := (← get).memory
  let target := env.target? p
  return m.activeSlots.filter fun other => other != slot && isTarget m target other

/-- Minus one, zero or one, by which of two opposite actions is held. -/
def axis (held : Held) (negative positive : String) : Int :=
  (if held.isActive positive then 1 else 0) - (if held.isActive negative then 1 else 0)

/-! ## Numbers alone -/

/-- Adds a force to the downward velocity. -/
def gravity (slot : Nat) (p : Properties) (_ : Surroundings) : Tick Unit := do
  let force := p.number "force" 1
  let (vx, vy) ← Tick.read (·.velocity slot)
  Tick.edit (Edit.setVelocity slot vx (Number.roundFinite (Number.ofInt vy + force)))

/-- Adds the velocity to the position. -/
def kinematic (slot : Nat) (_ : Properties) (_ : Surroundings) : Tick Unit := do
  let (x, y) ← Tick.read (·.position slot)
  let (vx, vy) ← Tick.read (·.velocity slot)
  Tick.edit (Edit.setPosition slot (x + vx) (y + vy))

/-- Position and velocity for conditions. -/
def kinematicContext (slot : Nat) (_ : Properties) (_ : Scratch) (m : Memory) :
    Except AccessError Context := do
  let (x, y) ← m.position slot
  let (vx, vy) ← m.velocity slot
  return [("$px", Number.ofInt x), ("$py", Number.ofInt y),
    ("$vx", Number.ofInt vx), ("$vy", Number.ofInt vy)]

/-- A velocity multiplied by a factor, without its fraction. -/
def damped (factor : Float) (v : Int) : Int :=
  let scaled := Number.ofInt v * factor
  if (Number.exact scaled).isFinite then Number.truncateInt64 scaled else 0

/-- Multiplies the velocity by a factor. -/
def friction (slot : Nat) (p : Properties) (_ : Surroundings) : Tick Unit := do
  let factor := p.number "factor" 0.9
  let (vx, vy) ← Tick.read (·.velocity slot)
  Tick.edit (Edit.setVelocity slot (damped factor vx) (damped factor vy))

/-- Keeps the position within limits, and stops the motion in a direction in which it was not. -/
def bounds (slot : Nat) (p : Properties) (_ : Surroundings) : Tick Unit := do
  let w ← get
  let minX := p.rounded "minX" 0
  let minY := p.rounded "minY" 0
  let maxX := max (p.rounded "maxX" (Number.ofInt w.width)) minX
  let maxY := max (p.rounded "maxY" (Number.ofInt w.height)) minY
  let (x, y) ← Tick.read (·.position slot)
  let (vx, vy) ← Tick.read (·.velocity slot)
  let x' := Number.clamp minX maxX x
  let y' := Number.clamp minY maxY y
  Tick.edit (Edit.setPosition slot x' y')
  Tick.edit (Edit.setVelocity slot (if x' ≠ x then 0 else vx) (if y' ≠ y then 0 else vy))

/-! ## Geometry -/

/-- Stops an entity that stands inside a polygon. -/
def collider (slot : Nat) (_ : Properties) (env : Surroundings) : Tick Unit := do
  if env.geometry.blocks (← center slot) then Tick.edit (Edit.setVelocity slot 0 0)

/-- Walks and jumps; the scratch byte tells whether there is ground under the feet. -/
def platformController (slot : Nat) (p : Properties) (env : Surroundings) : Tick Unit := do
  let speed := p.rounded "speed" 2
  let jumpForce := p.rounded "jumpForce" 6
  let feet := (← center slot).add ⟨0, 1⟩
  let grounded := env.geometry.blocks feet
  Tick.edit (Edit.setScratch slot env.scratch .int8 0 (if grounded then 1 else 0))
  let (_, vy) ← Tick.read (·.velocity slot)
  let vx := Number.wrapInt64 (axis env.held "MoveLeft" "MoveRight" * speed)
  let vy := if grounded && env.held.isActive "Jump" then Number.wrapInt64 (-jumpForce) else vy
  Tick.edit (Edit.setVelocity slot vx vy)

/-- The ground under the feet and the downward velocity for conditions. -/
def platformContext (slot : Nat) (_ : Properties) (s : Scratch) (m : Memory) :
    Except AccessError Context := do
  let (_, vy) ← m.velocity slot
  let grounded ← m.scratch slot s .int8 0
  return [("$isGrounded", Number.ofInt grounded), ("$vy", Number.ofInt vy)]

/-- Walks to and fro and turns at polygons and at the left edge; the scratch byte is one while it
walks to the left. -/
def patrol (slot : Nat) (p : Properties) (env : Surroundings) : Tick Unit := do
  let speed := Number.wrapInt64 (p.rounded "speed" 1).natAbs
  let back := Number.wrapInt64 (-speed)
  let wasLeft := (← Tick.read (·.scratch slot env.scratch .int8 0)) != 0
  let position ← center slot
  let step := if wasLeft then back else speed
  let ahead := position.add ⟨Number.singleOfInt step, 0⟩
  let turns := ahead.x < 0 || env.geometry.blocks ahead
  let left := xor wasLeft turns
  Tick.edit (Edit.setScratch slot env.scratch .int8 0 (if left then 1 else 0))
  let (_, vy) ← Tick.read (·.velocity slot)
  Tick.edit (Edit.setVelocity slot (if left then back else speed) vy)

/-- The point after `progress` on a path of `size` points. -/
def nextPoint (size progress step : Nat) (loops : Bool) : Nat :=
  let next := progress + step
  if next < size then next else if loops then next % size else size - 1

/-- Moves from point to point of a path; the scratch bytes hold the number of the point. -/
def pathFollower (slot : Nat) (p : Properties) (env : Surroundings) : Tick Unit := do
  let path := Number.truncateWord64 (p.number "path" 0)
  let size := env.geometry.pathSize path
  if size = 0 then return
  let stored ← Tick.read (·.scratch slot env.scratch .int16 0)
  let progress := min stored.toNat (size - 1)
  match env.geometry.pathPoint? path progress with
  | some point =>
    Tick.edit (Edit.setPosition slot (Number.roundFinite (Number.widen point.x))
      (Number.roundFinite (Number.widen point.y)))
  | none => pure ()
  let step := (max (p.rounded "speed" 1) 0).toNat
  let next := nextPoint size progress step (p.flag "loop" true)
  Tick.edit (Edit.setScratch slot env.scratch .int16 0 (min next 65535 : Nat))

/-- The number of the point on the path for conditions. -/
def pathContext (slot : Nat) (_ : Properties) (s : Scratch) (m : Memory) :
    Except AccessError Context := do
  return [("$progress", Number.ofInt (← m.scratch slot s .int16 0))]

/-! ## Actions and other entities -/

/-- Moves in the four directions that are held. -/
def playerController (slot : Nat) (p : Properties) (env : Surroundings) : Tick Unit := do
  let speed := p.rounded "speed" 1
  Tick.edit (Edit.setVelocity slot (Number.wrapInt64 (axis env.held "Left" "Right" * speed))
    (Number.wrapInt64 (axis env.held "Up" "Down" * speed)))

/-- The nearer of two positions; the first one when neither is nearer. -/
def nearer (origin : Point) (best : Option (Float32 × Point)) (q : Point) :
    Option (Float32 × Point) :=
  let distance := (q.sub origin).lengthSquared
  match best with
  | some (d, _) => if distance < d then some (distance, q) else best
  | none => some (distance, q)

/-- Heads for the nearest other entity. -/
def chase (slot : Nat) (p : Properties) (env : Surroundings) : Tick Unit := do
  let speed := p.single "speed" 1
  let origin ← center slot
  let found ← (← others slot p env).foldlM (fun best other => do
    return nearer origin best (← center other)) none
  match found with
  | some (_, position) =>
    let direction := ((position.sub origin).unit?).getD Point.zero
    let (vx, vy) := (direction.scale speed).rounded
    Tick.edit (Edit.setVelocity slot vx vy)
  | none => pure ()

end PixelScene.Component
