import PixelScene.Component.Motion
import PixelScene.Proofs.Guarded.Geometry
import PixelScene.Proofs.Guarded.Memory

/-!
# Guarded components that move their entity

The components that move their entity once more, with every operation guarded: the limits of
`Bounds`, the place on a path of `PathFollower`, and the polygons and the other entities that many
of them look at.

* `Guarded.edit_bind_mirrors`: what comes after a reading may rely on it.
* `Guarded.bounds_mirrors`, `Guarded.pathFollower_mirrors` and their like: no component is stopped,
  in any slot and with any properties.

`Bounds` clamps a position between two properties, and the engine takes the maximum of both for the
upper one beforehand. `PathFollower` takes a remainder by the number of points of a path, and the
last point by its number, after it asked that there is one.
-/

namespace PixelScene

/-- Guarded changes to the world. -/
abbrev GuardedTick (α : Type) := GuardedSteps ComponentFault World α

namespace Guarded

variable {α β : Type}

/-- Changes to the memory of the world. -/
def edit (g : GuardedEdit α) : GuardedTick α := fun w => do
  match ← g w.memory with
  | .ok a m => return .ok a { w with memory := m }
  | .error fault m => return .error (.access fault) { w with memory := m }

theorem edit_mirrors {g : GuardedEdit α} {e : Edit α} (h : Mirrors g e) :
    Mirrors (edit g) (Tick.edit e) := by
  intro w
  rw [edit, h w.memory, ok_bind, Tick.edit]
  cases e w.memory <;> rfl

/-- What comes after a reading may rely on where its value comes from. -/
theorem edit_bind_mirrors {g : GuardedEdit α} {f : Memory → Except AccessError α}
    {k : α → GuardedTick β} {x : α → Tick β} (h : Mirrors g (Edit.read f))
    (hk : ∀ a m, f m = .ok a → Mirrors (k a) (x a)) :
    Mirrors (edit g >>= k) (Tick.read f >>= x) := by
  refine mirrors_bind_of_returns (edit_mirrors h) fun w a w' hread => ?_
  cases hm : Edit.read f w.memory with
  | ok b m =>
    rw [Tick.read, Tick.edit, hm] at hread
    cases hread
    exact hk _ _ (Edit.read_eq_ok_iff.mp hm).1 _
  | error e m =>
    rw [Tick.read, Tick.edit, hm] at hread
    cases hread

/-! ## Looking around -/

/-- The position of an entity as a point. -/
def center (slot : Nat) : GuardedTick Point := do
  let (x, y) ← edit (position slot)
  return Point.ofInts x y

/-- Whether the entity of another slot is one that the component looks for. -/
def isTarget (m : Memory) (target : Option (Option Nat)) (other : Nat) : Guarded Bool :=
  match target with
  | none => return true
  | some none => return false
  | some (some id) => do return (← (field other .typeId).outcome? m) == some (id : Int)

/-- The active slots but one that hold what a component looks for. -/
def targets (m : Memory) (slot : Nat) (target : Option (Option Nat)) : Guarded (List Nat) := do
  let active ← activeSlots m
  active.filterM fun other => if other != slot then isTarget m target other else return false

/-- The active slots but the entity's own that hold what the `target` property names. -/
def others (slot : Nat) (p : Properties) (env : Surroundings) : GuardedTick (List Nat) := do
  let w ← (get : Tick World)
  targets w.memory slot (env.target? p)

theorem center_mirrors (slot : Nat) : Mirrors (center slot) (Component.center slot) :=
  mirrors_bind (edit_mirrors (position_mirrors slot)) fun _ => mirrors_pure _

theorem isTarget_eq_ok (m : Memory) (target : Option (Option Nat)) (other : Nat) :
    isTarget m target other = .ok (Component.isTarget m target other) := by
  match target with
  | none => rfl
  | some none => rfl
  | some (some id) =>
    rw [isTarget, (field_mirrors other .typeId).outcome?]
    rfl

theorem others_mirrors (slot : Nat) (p : Properties) (env : Surroundings) :
    Mirrors (others slot p env) (Component.others slot p env) := by
  refine mirrors_bind (mirrors_lift _) fun w => mirrors_guard ?_
  rw [targets, activeSlots_eq_ok, ok_bind]
  refine filterM_eq_ok (fun other => ?_) _
  cases other != slot with
  | true => exact isTarget_eq_ok w.memory (env.target? p) other
  | false => rfl

/-! ## Components that move their entity -/

/-- Adds a force to the downward velocity. -/
def gravity (slot : Nat) (p : Properties) (_ : Surroundings) : GuardedTick Unit := do
  let force := p.number "force" 1
  let (vx, vy) ← edit (velocity slot)
  edit (setVelocity slot vx (Number.roundFinite (Number.ofInt vy + force)))

/-- Adds the velocity to the position. -/
def kinematic (slot : Nat) (_ : Properties) (_ : Surroundings) : GuardedTick Unit := do
  let (x, y) ← edit (position slot)
  let (vx, vy) ← edit (velocity slot)
  edit (setPosition slot (x + vx) (y + vy))

/-- Position and velocity for conditions. -/
def kinematicContext (slot : Nat) (_ : Properties) (_ : Scratch) : GuardedEdit Context := do
  let (x, y) ← position slot
  let (vx, vy) ← velocity slot
  return [("$px", Number.ofInt x), ("$py", Number.ofInt y),
    ("$vx", Number.ofInt vx), ("$vy", Number.ofInt vy)]

/-- Multiplies the velocity by a factor. -/
def friction (slot : Nat) (p : Properties) (_ : Surroundings) : GuardedTick Unit := do
  let factor := p.number "factor" 0.9
  let (vx, vy) ← edit (velocity slot)
  edit (setVelocity slot (Component.damped factor vx) (Component.damped factor vy))

/-- Keeps the position within limits, and stops the motion in a direction in which it was not. -/
def bounds (slot : Nat) (p : Properties) (_ : Surroundings) : GuardedTick Unit := do
  let w ← (get : Tick World)
  let minX := p.rounded "minX" 0
  let minY := p.rounded "minY" 0
  let maxX := max (p.rounded "maxX" (Number.ofInt w.width)) minX
  let maxY := max (p.rounded "maxY" (Number.ofInt w.height)) minY
  let (x, y) ← edit (position slot)
  let (vx, vy) ← edit (velocity slot)
  let x' ← clamp minX maxX x
  let y' ← clamp minY maxY y
  edit (setPosition slot x' y')
  edit (setVelocity slot (if x' ≠ x then 0 else vx) (if y' ≠ y then 0 else vy))

/-- Stops an entity that stands inside a polygon. -/
def collider (slot : Nat) (_ : Properties) (env : Surroundings) : GuardedTick Unit := do
  let inside ← blocks env.geometry (← center slot)
  if inside then edit (setVelocity slot 0 0)

/-- Walks and jumps; the scratch byte tells whether there is ground under the feet. -/
def platformController (slot : Nat) (p : Properties) (env : Surroundings) : GuardedTick Unit := do
  let speed := p.rounded "speed" 2
  let jumpForce := p.rounded "jumpForce" 6
  let feet := (← center slot).add ⟨0, 1⟩
  let grounded ← blocks env.geometry feet
  edit (setScratch slot env.scratch .int8 0 (if grounded then 1 else 0))
  let (_, vy) ← edit (velocity slot)
  let vx := Number.wrapInt64 (Component.axis env.held "MoveLeft" "MoveRight" * speed)
  let vy := if grounded && env.held.isActive "Jump" then Number.wrapInt64 (-jumpForce) else vy
  edit (setVelocity slot vx vy)

/-- The ground under the feet and the downward velocity for conditions. -/
def platformContext (slot : Nat) (_ : Properties) (s : Scratch) : GuardedEdit Context := do
  let (_, vy) ← velocity slot
  let grounded ← scratch slot s .int8 0
  return [("$isGrounded", Number.ofInt grounded), ("$vy", Number.ofInt vy)]

/-- Whether the left edge or a polygon is in the way; the edge is asked first. -/
def turnsAt (g : Geometry) (ahead : Point) : Guarded Bool :=
  if ahead.x < 0 then return true else blocks g ahead

/-- Walks to and fro and turns at polygons and at the left edge. -/
def patrol (slot : Nat) (p : Properties) (env : Surroundings) : GuardedTick Unit := do
  let speed := Number.wrapInt64 (p.rounded "speed" 1).natAbs
  let back := Number.wrapInt64 (-speed)
  let wasLeft := (← edit (scratch slot env.scratch .int8 0)) != 0
  let position ← center slot
  let step := if wasLeft then back else speed
  let ahead := position.add ⟨Number.singleOfInt step, 0⟩
  let turns ← turnsAt env.geometry ahead
  let left := xor wasLeft turns
  edit (setScratch slot env.scratch .int8 0 (if left then 1 else 0))
  let (_, vy) ← edit (velocity slot)
  edit (setVelocity slot (if left then back else speed) vy)

/-- The point after `progress` on a path of `size` points. -/
def nextPoint (size progress step : Nat) (loops : Bool) : Guarded Nat :=
  let next := progress + step
  if next < size then return next else if loops then modulo next size else minus size 1

/-- Moves from point to point of a path; the scratch bytes hold the number of the point. -/
def pathFollower (slot : Nat) (p : Properties) (env : Surroundings) : GuardedTick Unit := do
  let path := Number.truncateWord64 (p.number "path" 0)
  let size := env.geometry.pathSize path
  if size = 0 then return
  let stored ← edit (scratch slot env.scratch .int16 0)
  let progress := min stored.toNat (← minus size 1)
  match env.geometry.pathPoint? path progress with
  | some point =>
    edit (setPosition slot (Number.roundFinite (Number.widen point.x))
      (Number.roundFinite (Number.widen point.y)))
  | none => pure ()
  let step := (max (p.rounded "speed" 1) 0).toNat
  let next ← nextPoint size progress step (p.flag "loop" true)
  edit (setScratch slot env.scratch .int16 0 (min next 65535 : Nat))

/-- The number of the point on the path for conditions. -/
def pathContext (slot : Nat) (_ : Properties) (s : Scratch) : GuardedEdit Context := do
  return [("$progress", Number.ofInt (← scratch slot s .int16 0))]

/-- Moves in the four directions that are held. -/
def playerController (slot : Nat) (p : Properties) (env : Surroundings) : GuardedTick Unit := do
  let speed := p.rounded "speed" 1
  edit (setVelocity slot (Number.wrapInt64 (Component.axis env.held "Left" "Right" * speed))
    (Number.wrapInt64 (Component.axis env.held "Up" "Down" * speed)))

/-- Heads for the nearest other entity. -/
def chase (slot : Nat) (p : Properties) (env : Surroundings) : GuardedTick Unit := do
  let speed := p.single "speed" 1
  let origin ← center slot
  let found ← (← others slot p env).foldlM (fun best other => do
    return Component.nearer origin best (← center other)) none
  match found with
  | some (_, position) =>
    let direction := ((position.sub origin).unit?).getD Point.zero
    let (vx, vy) := (direction.scale speed).rounded
    edit (setVelocity slot vx vy)
  | none => pure ()

section Moving

variable (slot : Nat) (p : Properties) (env : Surroundings)

theorem gravity_mirrors : Mirrors (gravity slot p env) (Component.gravity slot p env) :=
  mirrors_bind (edit_mirrors (velocity_mirrors slot)) fun _ =>
    edit_mirrors (setVelocity_mirrors _ _ _)

theorem kinematic_mirrors : Mirrors (kinematic slot p env) (Component.kinematic slot p env) :=
  mirrors_bind (edit_mirrors (position_mirrors slot)) fun _ =>
    mirrors_bind (edit_mirrors (velocity_mirrors slot)) fun _ =>
    edit_mirrors (setPosition_mirrors _ _ _)

theorem kinematicContext_mirrors (s : Scratch) : Mirrors (kinematicContext slot p s)
    (Edit.read (Component.kinematicContext slot p s)) :=
  mirrors_read_bind (position_mirrors slot) fun _ =>
    mirrors_read_bind (velocity_mirrors slot) fun _ => mirrors_read_pure _

theorem friction_mirrors : Mirrors (friction slot p env) (Component.friction slot p env) :=
  mirrors_bind (edit_mirrors (velocity_mirrors slot)) fun _ =>
    edit_mirrors (setVelocity_mirrors _ _ _)

/-- The upper limit is raised to the lower one first. -/
theorem bounds_mirrors : Mirrors (bounds slot p env) (Component.bounds slot p env) := by
  refine mirrors_bind (mirrors_lift _) fun w => ?_
  refine mirrors_bind (edit_mirrors (position_mirrors slot)) fun _ => ?_
  refine mirrors_bind (edit_mirrors (velocity_mirrors slot)) fun _ => ?_
  refine mirrors_guard_bind (clamp_eq_ok (le_max_right _ _) _) ?_
  refine mirrors_guard_bind (clamp_eq_ok (le_max_right _ _) _) ?_
  exact mirrors_bind (edit_mirrors (setPosition_mirrors _ _ _)) fun _ =>
    edit_mirrors (setVelocity_mirrors _ _ _)

theorem collider_mirrors : Mirrors (collider slot p env) (Component.collider slot p env) := by
  refine mirrors_bind (center_mirrors slot) fun point => ?_
  refine mirrors_guard_bind (blocks_eq_ok env.geometry point) ?_
  exact mirrors_ite (edit_mirrors (setVelocity_mirrors _ _ _)) (mirrors_pure _)

theorem platformController_mirrors :
    Mirrors (platformController slot p env) (Component.platformController slot p env) := by
  refine mirrors_bind (center_mirrors slot) fun point => ?_
  refine mirrors_guard_bind (blocks_eq_ok env.geometry _) ?_
  refine mirrors_bind (edit_mirrors (setScratch_mirrors _ _ _ _ _)) fun _ => ?_
  exact mirrors_bind (edit_mirrors (velocity_mirrors slot)) fun _ =>
    edit_mirrors (setVelocity_mirrors _ _ _)

theorem platformContext_mirrors (s : Scratch) : Mirrors (platformContext slot p s)
    (Edit.read (Component.platformContext slot p s)) :=
  mirrors_read_bind (velocity_mirrors slot) fun _ =>
    mirrors_read_bind (scratch_mirrors slot s .int8 0) fun _ => mirrors_read_pure _

omit slot p env in
theorem turnsAt_eq_ok (g : Geometry) (ahead : Point) :
    turnsAt g ahead = .ok (ahead.x < 0 || g.blocks ahead) := by
  unfold turnsAt
  split
  · rename_i h
    rw [decide_eq_true h, Bool.true_or]
    rfl
  · rename_i h
    rw [blocks_eq_ok, decide_eq_false h, Bool.false_or]

theorem patrol_mirrors : Mirrors (patrol slot p env) (Component.patrol slot p env) := by
  refine mirrors_bind (edit_mirrors (scratch_mirrors _ _ _ _)) fun stored => ?_
  refine mirrors_bind (center_mirrors slot) fun point => ?_
  refine mirrors_guard_bind (turnsAt_eq_ok env.geometry _) ?_
  refine mirrors_bind (edit_mirrors (setScratch_mirrors _ _ _ _ _)) fun _ => ?_
  exact mirrors_bind (edit_mirrors (velocity_mirrors slot)) fun _ =>
    edit_mirrors (setVelocity_mirrors _ _ _)

theorem nextPoint_eq_ok {size : Nat} (h : size ≠ 0) (progress step : Nat) (loops : Bool) :
    nextPoint size progress step loops = .ok (Component.nextPoint size progress step loops) := by
  unfold nextPoint Component.nextPoint
  dsimp only
  split
  · rfl
  · split
    · exact modulo_eq_ok h _
    · exact minus_eq_ok (Nat.one_le_iff_ne_zero.mpr h)

theorem pathFollower_mirrors :
    Mirrors (pathFollower slot p env) (Component.pathFollower slot p env) := by
  unfold pathFollower Component.pathFollower
  dsimp only
  split
  · exact mirrors_pure _
  · rename_i hsize
    refine mirrors_bind (edit_mirrors (scratch_mirrors _ _ _ _)) fun stored => ?_
    refine mirrors_guard_bind (minus_eq_ok (Nat.one_le_iff_ne_zero.mpr hsize)) ?_
    generalize env.geometry.pathPoint? _ _ = point
    cases point with
    | some point =>
      refine mirrors_bind (edit_mirrors (setPosition_mirrors _ _ _)) fun _ => ?_
      refine mirrors_guard_bind (nextPoint_eq_ok hsize _ _ _) ?_
      exact edit_mirrors (setScratch_mirrors _ _ _ _ _)
    | none =>
      refine mirrors_guard_bind (nextPoint_eq_ok hsize _ _ _) ?_
      exact edit_mirrors (setScratch_mirrors _ _ _ _ _)

theorem pathContext_mirrors (s : Scratch) : Mirrors (pathContext slot p s)
    (Edit.read (Component.pathContext slot p s)) :=
  mirrors_read_bind (scratch_mirrors slot s .int16 0) fun _ => mirrors_read_pure _

theorem playerController_mirrors :
    Mirrors (playerController slot p env) (Component.playerController slot p env) :=
  edit_mirrors (setVelocity_mirrors _ _ _)

theorem chase_mirrors : Mirrors (chase slot p env) (Component.chase slot p env) := by
  refine mirrors_bind (center_mirrors slot) fun origin => ?_
  refine mirrors_bind (others_mirrors slot p env) fun l => ?_
  refine mirrors_bind (mirrors_foldlM (fun _ other => ?_) l none) fun found => ?_
  · exact mirrors_bind (center_mirrors other) fun _ => mirrors_pure _
  · cases found with
    | none => exact mirrors_pure _
    | some found => exact edit_mirrors (setVelocity_mirrors _ _ _)

end Moving

end Guarded

end PixelScene
