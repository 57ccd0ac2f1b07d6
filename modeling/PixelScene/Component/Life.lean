import PixelScene.Component.Motion

/-!
# Components of life, contact and view

* `health` and `lifetime` end an entity, `spawner` makes new ones;
* `hitbox`, `interactable` and `areaTrigger` look for other entities close by;
* `screenShake` and `camera` act on the view.

Numbers follow the engine step by step. A property is a double; distances and positions on the way
are in single precision where the engine computes with vectors. Integers have 64 bits: a sum, a
difference or a negation that leaves them wraps around (`Number.wrapInt64`), so an enormous offset
of a spawner may come out on the other side. That is the engine as it is released; a build that
checks for overflow stops there instead. Only what is written into a slot is saturated.

The random numbers of `screenShake` are drawn from the source of the world.
-/

namespace PixelScene.Component

/-! ## Beginning and end -/

/-- Ends an entity without health. -/
def health (slot : Nat) (_ : Properties) (_ : Surroundings) : Tick Unit := do
  if (← Tick.read (·.field slot .health)) = 0 then Tick.edit (Edit.setActive slot false)

/-- The health for conditions. -/
def healthContext (slot : Nat) (_ : Properties) (_ : Scratch) (m : Memory) :
    Except AccessError Context := do
  return [("$health", Number.ofInt (← m.field slot .health))]

/-- Ends an entity after some frames; the scratch byte counts them down, and zero means that the
count has not begun. -/
def lifetime (slot : Nat) (p : Properties) (env : Surroundings) : Tick Unit := do
  let frames := p.rounded "frames" 60
  let remaining ← Tick.read (·.scratch slot env.scratch .int8 0)
  if remaining = 0 then
    if frames ≤ 0 then Tick.edit (Edit.setActive slot false)
    else Tick.edit (Edit.setScratch slot env.scratch .int8 0 (min frames 255))
  else
    Tick.edit (Edit.setScratch slot env.scratch .int8 0 (remaining - 1))
    if remaining - 1 = 0 then Tick.edit (Edit.setActive slot false)

/-- Puts a fresh entity beside its own every few frames; the scratch byte counts down to the next
one, and zero means that the count has not begun. -/
def spawner (slot : Nat) (p : Properties) (env : Surroundings) : Tick Unit := do
  match p.text? "entity" with
  | none => throw .missingEntity
  | some name =>
    match env.script.typeId? name with
    | none => throw (.unknownEntity name)
    | some id =>
      let interval := Number.clamp 1 255 (p.rounded "interval" 60)
      let stored ← Tick.read (·.scratch slot env.scratch .int8 0)
      let remaining := (if stored = 0 then interval else stored) - 1
      if remaining = 0 then
        let (x, y) ← Tick.read (·.position slot)
        let _ ← Tick.edit (Edit.spawn id (Number.wrapInt64 (x + p.rounded "offsetX" 0))
          (Number.wrapInt64 (y + p.rounded "offsetY" 0)) (env.script.freshHealth id))
        Tick.edit (Edit.setScratch slot env.scratch .int8 0 interval)
      else Tick.edit (Edit.setScratch slot env.scratch .int8 0 remaining)

/-! ## Contact -/

/-- Whether two points are closer than a width and a height. -/
def overlaps (p q : Point) (width height : Float) : Bool :=
  let d := q.sub p
  Number.widen d.x.abs < width && Number.widen d.y.abs < height

/-- Damages another entity, and pushes it away when there is a knockback. -/
def hit (damage : Int) (knockback : Float32) (origin position : Point) (other : Nat) :
    Tick Unit := do
  let health ← Tick.read (·.field other .health)
  Tick.edit (Edit.setField other .health (max (Number.wrapInt64 (health - damage)) 0))
  if knockback != 0 then
    let direction := ((position.sub origin).unit?).getD Point.right
    let (pushX, pushY) := (direction.scale knockback).rounded
    let (vx, vy) ← Tick.read (·.velocity other)
    Tick.edit (Edit.setVelocity other (Number.wrapInt64 (vx + pushX))
      (Number.wrapInt64 (vy + pushY)))

/-- Damages the entities within a rectangle. -/
def hitbox (slot : Nat) (p : Properties) (env : Surroundings) : Tick Unit := do
  let width := p.number "width" 8
  let height := p.number "height" 8
  let damage := p.rounded "damage" 1
  let knockback := p.single "knockback" 0
  let origin ← center slot
  (← others slot p env).forM fun other => do
    let position ← center other
    if overlaps origin position width height then hit damage knockback origin position other

/-- Whether a test holds of the position of one of some entities, asked in order. -/
def anyPosition (test : Point → Bool) : List Nat → Tick Bool
  | [] => return false
  | other :: more => do
    if test (← center other) then return true else anyPosition test more

/-- Tells in the scratch byte whether an action is held while another entity is within reach. -/
def interactable (slot : Nat) (p : Properties) (env : Surroundings) : Tick Unit := do
  let radius := p.single "radius" 16
  let action := (p.text? "action").getD "Interact"
  let origin ← center slot
  let triggered ←
    if env.held.isActive action then
      anyPosition (fun q => (q.sub origin).length ≤ radius) (← others slot p env)
    else pure false
  Tick.edit (Edit.setScratch slot env.scratch .int8 0 (if triggered then 1 else 0))

/-- Tells in the scratch byte whether another entity is within a rectangle. -/
def areaTrigger (slot : Nat) (p : Properties) (env : Surroundings) : Tick Unit := do
  let width := p.number "width" 16
  let height := p.number "height" 16
  let origin ← center slot
  let triggered ← anyPosition (fun q => overlaps origin q width height) (← others slot p env)
  Tick.edit (Edit.setScratch slot env.scratch .int8 0 (if triggered then 1 else 0))

/-- The scratch byte for conditions, under a given name. -/
def scratchContext (name : String) (slot : Nat) (_ : Properties) (s : Scratch) (m : Memory) :
    Except AccessError Context := do
  return [(name, Number.ofInt (← m.scratch slot s .int8 0))]

/-! ## View -/

/-- Shakes the camera by a random distance of at most the intensity in each direction. -/
def screenShake (_ : Nat) (p : Properties) (_ : Surroundings) : Tick Unit := do
  let intensity := Number.wrapInt64 (p.rounded "intensity" 2).natAbs
  let w ← get
  let (x, next) := w.random.between (Number.wrapInt64 (-intensity)) intensity
  let (y, last) := next.between (Number.wrapInt64 (-intensity)) intensity
  set { w with random := last }
  Tick.edit (Edit.setShake x y)

/-- Sets zoom, shake and tint of the camera and lets it follow the entity. -/
def camera (slot : Nat) (p : Properties) (_ : Surroundings) : Tick Unit := do
  let focus ← center slot
  let w ← get
  let view : Camera :=
    { w.camera with
      zoom := p.single "zoom" 1
      shake := p.single "shake" 0
      tint := Tint.parse ((p.text? "tint").getD "").toList }
  let target := view.targetFor focus w.view
  set { w with camera := view.follow target (p.single "followSpeed" 1) }

/-- Changes nothing: the speed in its properties is read when the sprite is chosen. -/
def animator (_ : Nat) (_ : Properties) (_ : Surroundings) : Tick Unit := return

end PixelScene.Component
