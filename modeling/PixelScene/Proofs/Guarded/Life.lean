import PixelScene.Component.Builtin
import PixelScene.Proofs.Guarded.Motion
import PixelScene.Proofs.Scenario.Run

/-!
# Guarded components of life, contact and view

The other components with every operation guarded, and the table of all of them: the countdowns of
`Lifetime` and `Spawner`, the colours and the way of `Camera`, the distance that `ScreenShake`
draws.

* `Guarded.lifetime_mirrors`, `Guarded.spawner_mirrors`: a stored byte is not negative, and a
  countdown goes down only from a byte that is not zero.
* `Guarded.screenShake_mirrors`: what the distance is drawn from is not empty.
* `Guarded.registry_guards`: what a name stands for is never stopped.

Clamps are guarded by their bounds being in order, draws by their range not being empty: the bounds
of `ScreenShake` are an intensity without its sign and its negation. Overflow of sums is not a guard
here; sums wrap around, as in the definitions that are mirrored.
-/

namespace PixelScene

namespace Guarded

/-! ## Components of life, contact and view -/

/-- Ends an entity without health. -/
def health (slot : Nat) (_ : Properties) (_ : Surroundings) : GuardedTick Unit := do
  if (← edit (field slot .health)) = 0 then edit (setActive slot false)

/-- The health for conditions. -/
def healthContext (slot : Nat) (_ : Properties) (_ : Scratch) : GuardedEdit Context := do
  return [("$health", Number.ofInt (← field slot .health))]

/-- Ends an entity after some frames, which the scratch byte counts down. -/
def lifetime (slot : Nat) (p : Properties) (env : Surroundings) : GuardedTick Unit := do
  let frames := p.rounded "frames" 60
  let remaining ← edit (scratch slot env.scratch .int8 0)
  if remaining = 0 then
    if frames ≤ 0 then edit (setActive slot false)
    else edit (setScratch slot env.scratch .int8 0 (min frames 255))
  else
    let next ← minus remaining 1
    edit (setScratch slot env.scratch .int8 0 next)
    if next = 0 then edit (setActive slot false)

/-- Puts a fresh entity beside its own every few frames, which the scratch byte counts down. -/
def spawner (slot : Nat) (p : Properties) (env : Surroundings) : GuardedTick Unit := do
  match p.text? "entity" with
  | none => (throw .missingEntity : Tick Unit)
  | some name =>
    match env.script.typeId? name with
    | none => (throw (.unknownEntity name) : Tick Unit)
    | some id =>
      let interval ← clamp 1 255 (p.rounded "interval" 60)
      let stored ← edit (scratch slot env.scratch .int8 0)
      let remaining ← minus (if stored = 0 then interval else stored) 1
      if remaining = 0 then
        let (x, y) ← edit (position slot)
        let _ ← edit (spawn id (Number.wrapInt64 (x + p.rounded "offsetX" 0))
          (Number.wrapInt64 (y + p.rounded "offsetY" 0)) (env.script.freshHealth id))
        edit (setScratch slot env.scratch .int8 0 interval)
      else edit (setScratch slot env.scratch .int8 0 remaining)

/-- Damages another entity, and pushes it away when there is a knockback. -/
def hit (damage : Int) (knockback : Float32) (origin position : Point) (other : Nat) :
    GuardedTick Unit := do
  let health ← edit (field other .health)
  edit (setField other .health (max (Number.wrapInt64 (health - damage)) 0))
  if knockback != 0 then
    let direction := ((position.sub origin).unit?).getD Point.right
    let (pushX, pushY) := (direction.scale knockback).rounded
    let (vx, vy) ← edit (velocity other)
    edit (setVelocity other (Number.wrapInt64 (vx + pushX)) (Number.wrapInt64 (vy + pushY)))

/-- Damages the entities within a rectangle. -/
def hitbox (slot : Nat) (p : Properties) (env : Surroundings) : GuardedTick Unit := do
  let width := p.number "width" 8
  let height := p.number "height" 8
  let damage := p.rounded "damage" 1
  let knockback := p.single "knockback" 0
  let origin ← center slot
  (← others slot p env).forM fun other => do
    let position ← center other
    if Component.overlaps origin position width height then
      hit damage knockback origin position other

/-- Whether a test holds of the position of one of some entities, asked in order. -/
def anyPosition (test : Point → Bool) : List Nat → GuardedTick Bool
  | [] => return false
  | other :: more => do
    if test (← center other) then return true else anyPosition test more

/-- Tells in the scratch byte whether an action is held while another entity is within reach. -/
def interactable (slot : Nat) (p : Properties) (env : Surroundings) : GuardedTick Unit := do
  let radius := p.single "radius" 16
  let action := (p.text? "action").getD "Interact"
  let origin ← center slot
  let triggered ←
    if env.held.isActive action then
      anyPosition (fun q => (q.sub origin).length ≤ radius) (← others slot p env)
    else pure false
  edit (setScratch slot env.scratch .int8 0 (if triggered then 1 else 0))

/-- Tells in the scratch byte whether another entity is within a rectangle. -/
def areaTrigger (slot : Nat) (p : Properties) (env : Surroundings) : GuardedTick Unit := do
  let width := p.number "width" 16
  let height := p.number "height" 16
  let origin ← center slot
  let triggered ← anyPosition (fun q => Component.overlaps origin q width height)
    (← others slot p env)
  edit (setScratch slot env.scratch .int8 0 (if triggered then 1 else 0))

/-- The scratch byte for conditions, under a given name. -/
def scratchContext (name : String) (slot : Nat) (_ : Properties) (s : Scratch) :
    GuardedEdit Context := do
  return [(name, Number.ofInt (← scratch slot s .int8 0))]

/-- Shakes the camera by a random distance of at most the intensity in each direction. -/
def screenShake (_ : Nat) (p : Properties) (_ : Surroundings) : GuardedTick Unit := do
  let intensity := Number.wrapInt64 (p.rounded "intensity" 2).natAbs
  let w ← (get : Tick World)
  let (x, next) ← between w.random (Number.wrapInt64 (-intensity)) intensity
  let (y, last) ← between next (Number.wrapInt64 (-intensity)) intensity
  (set { w with random := last } : Tick PUnit)
  edit (setShake x y)

/-- Sets zoom, shake and tint of the camera and lets it follow the entity. -/
def camera (slot : Nat) (p : Properties) (_ : Surroundings) : GuardedTick Unit := do
  let focus ← center slot
  let w ← (get : Tick World)
  let view : Camera :=
    { w.camera with
      zoom := p.single "zoom" 1
      shake := p.single "shake" 0
      tint := ← tint ((p.text? "tint").getD "").toList }
  let target := view.targetFor focus w.view
  let moved ← follow view target (p.single "followSpeed" 1)
  (set { w with camera := moved } : Tick PUnit)

/-- Changes nothing. -/
def animator (_ : Nat) (_ : Properties) (_ : Surroundings) : GuardedTick Unit := return

theorem anyPosition_mirrors (test : Point → Bool) (slots : List Nat) :
    Mirrors (anyPosition test slots) (Component.anyPosition test slots) := by
  induction slots with
  | nil => exact mirrors_pure _
  | cons other more ih =>
    exact mirrors_bind (center_mirrors other) fun _ => mirrors_ite (mirrors_pure _) ih

section Living

variable (slot : Nat) (p : Properties) (env : Surroundings)

theorem health_mirrors : Mirrors (health slot p env) (Component.health slot p env) :=
  mirrors_bind (edit_mirrors (field_mirrors slot .health)) fun _ =>
    mirrors_ite (edit_mirrors (setActive_mirrors slot false)) (mirrors_pure _)

theorem healthContext_mirrors (s : Scratch) : Mirrors (healthContext slot p s)
    (Edit.read (Component.healthContext slot p s)) :=
  mirrors_read_bind (field_mirrors slot .health) fun _ => mirrors_read_pure _

/-- A countdown goes down only from a byte that is not zero. -/
theorem lifetime_mirrors : Mirrors (lifetime slot p env) (Component.lifetime slot p env) := by
  refine edit_bind_mirrors (scratch_mirrors _ _ _ _) fun remaining m hread => ?_
  have hbyte : 0 ≤ remaining := (Memory.scratch_mem hread).1
  by_cases hzero : remaining = 0
  · rw [if_pos hzero, if_pos hzero]
    exact mirrors_ite (edit_mirrors (setActive_mirrors slot false))
      (edit_mirrors (setScratch_mirrors _ _ _ _ _))
  · rw [if_neg hzero, if_neg hzero]
    refine mirrors_guard_bind (minus_eq_ok (by omega)) ?_
    exact mirrors_bind (edit_mirrors (setScratch_mirrors _ _ _ _ _)) fun _ =>
      mirrors_ite (edit_mirrors (setActive_mirrors slot false)) (mirrors_pure _)

/-- A countdown that has not begun starts from the interval, which is not zero. -/
theorem spawner_mirrors : Mirrors (spawner slot p env) (Component.spawner slot p env) := by
  unfold spawner Component.spawner
  cases p.text? "entity" with
  | none => exact mirrors_lift _
  | some name =>
    dsimp only
    cases env.script.typeId? name with
    | none => exact mirrors_lift _
    | some id =>
      have hbounds : (1 : Int) ≤ 255 := by decide
      have hinterval := (Number.clamp_mem hbounds (p.rounded "interval" 60)).1
      -- the countdown starts from the interval or goes on from the stored byte, one or more
      refine mirrors_guard_bind (clamp_eq_ok hbounds _) ?_
      refine edit_bind_mirrors (scratch_mirrors _ _ _ _) fun stored m hread => ?_
      have hbyte : 0 ≤ stored := (Memory.scratch_mem hread).1
      refine mirrors_guard_bind (minus_eq_ok (by split <;> omega)) ?_
      refine mirrors_ite ?_ (edit_mirrors (setScratch_mirrors _ _ _ _ _))
      refine mirrors_bind (edit_mirrors (position_mirrors slot)) fun _ => ?_
      exact mirrors_bind (edit_mirrors (spawn_mirrors _ _ _ _)) fun _ =>
        edit_mirrors (setScratch_mirrors _ _ _ _ _)

omit slot p env in
theorem hit_mirrors (damage : Int) (knockback : Float32) (origin position : Point) (other : Nat) :
    Mirrors (hit damage knockback origin position other)
      (Component.hit damage knockback origin position other) := by
  refine mirrors_bind (edit_mirrors (field_mirrors other .health)) fun _ => ?_
  refine mirrors_bind (edit_mirrors (setField_mirrors _ _ _)) fun _ => ?_
  refine mirrors_ite ?_ (mirrors_pure _)
  exact mirrors_bind (edit_mirrors (velocity_mirrors other)) fun _ =>
    edit_mirrors (setVelocity_mirrors _ _ _)

theorem hitbox_mirrors : Mirrors (hitbox slot p env) (Component.hitbox slot p env) := by
  refine mirrors_bind (center_mirrors slot) fun origin => ?_
  refine mirrors_bind (others_mirrors slot p env) fun l => mirrors_forM (fun other => ?_) l
  refine mirrors_bind (center_mirrors other) fun position => ?_
  exact mirrors_ite (hit_mirrors _ _ _ _ _) (mirrors_pure _)

theorem interactable_mirrors :
    Mirrors (interactable slot p env) (Component.interactable slot p env) := by
  refine mirrors_bind (center_mirrors slot) fun origin => ?_
  refine mirrors_ite ?_ ?_
  · refine mirrors_bind (others_mirrors slot p env) fun l => ?_
    exact mirrors_bind (anyPosition_mirrors _ l) fun _ =>
      edit_mirrors (setScratch_mirrors _ _ _ _ _)
  · exact mirrors_bind (mirrors_pure _) fun _ => edit_mirrors (setScratch_mirrors _ _ _ _ _)

theorem areaTrigger_mirrors :
    Mirrors (areaTrigger slot p env) (Component.areaTrigger slot p env) := by
  refine mirrors_bind (center_mirrors slot) fun origin => ?_
  refine mirrors_bind (others_mirrors slot p env) fun l => ?_
  exact mirrors_bind (anyPosition_mirrors _ l) fun _ =>
    edit_mirrors (setScratch_mirrors _ _ _ _ _)

omit p env in
theorem scratchContext_mirrors (name : String) (p : Properties) (s : Scratch) :
    Mirrors (scratchContext name slot p s) (Edit.read (Component.scratchContext name slot p s)) :=
  mirrors_read_bind (scratch_mirrors slot s .int8 0) fun _ => mirrors_read_pure _

/-- An absolute value is not below its opposite, even where both go around. -/
theorem screenShake_mirrors :
    Mirrors (screenShake slot p env) (Component.screenShake slot p env) := by
  have hrange := Number.wrapInt64_neg_natAbs_le (p.rounded_mem "intensity" 2)
  refine mirrors_bind (mirrors_lift _) fun w => ?_
  refine mirrors_guard_bind (between_eq_ok _ hrange) ?_
  refine mirrors_guard_bind (between_eq_ok _ hrange) ?_
  exact mirrors_bind (mirrors_lift _) fun _ => edit_mirrors (setShake_mirrors _ _)

theorem camera_mirrors : Mirrors (camera slot p env) (Component.camera slot p env) := by
  refine mirrors_bind (center_mirrors slot) fun focus => ?_
  refine mirrors_bind (mirrors_lift _) fun w => ?_
  refine mirrors_guard_bind (tint_eq_ok _) ?_
  exact mirrors_guard_bind (follow_eq_ok _ _ _) (mirrors_lift _)

theorem animator_mirrors : Mirrors (animator slot p env) (Component.animator slot p env) :=
  mirrors_pure _

end Living

end Guarded

/-! ## The built-in components -/

/-- A component with guarded operations. -/
structure GuardedComponent where
  tick : (slot : Nat) → Properties → Surroundings → GuardedTick Unit
  context : Option ((slot : Nat) → Properties → Scratch → GuardedEdit Context)

/-- The guarded component is never stopped, and does and offers what the component does. -/
structure GuardedComponent.Guards (g : GuardedComponent) (c : Component) : Prop where
  tick : ∀ slot p env, Mirrors (g.tick slot p env) (c.tick slot p env)
  context : Option.Rel (fun g c => ∀ slot p s, Mirrors (g slot p s) (Edit.read (c slot p s)))
    g.context c.context

/-- Related values under the same keys are found under the same keys. -/
theorem Dictionary.rel_get?_ofList {α β : Type} {R : α → β → Prop} {l : List (String × α)}
    {l' : List (String × β)} (h : List.Forall₂ (fun a b => a.1 = b.1 ∧ R a.2 b.2) l l')
    (key : String) : Option.Rel R ((ofList l).get? key) ((ofList l').get? key) := by
  suffices hfold : ∀ (d : Dictionary α) (e : Dictionary β), Option.Rel R (d.get? key) (e.get? key) →
      Option.Rel R ((l.foldl (fun d a => d.insert a.1 a.2) d).get? key)
        ((l'.foldl (fun e b => e.insert b.1 b.2) e).get? key) from hfold empty empty .none
  induction h with
  | nil => exact fun _ _ hget => hget
  | cons hab _ ih =>
    intro d e hget
    refine ih _ _ ?_
    rw [get?_insert, get?_insert, hab.1]
    split
    · exact .some hab.2
    · exact hget

namespace Guarded

/-- The built-in components by name. -/
def builtins : List (String × GuardedComponent) := [
  ("Gravity", ⟨gravity, none⟩),
  ("Kinematic", ⟨kinematic, some kinematicContext⟩),
  ("Collider", ⟨collider, none⟩),
  ("Friction", ⟨friction, none⟩),
  ("PlayerController", ⟨playerController, none⟩),
  ("Health", ⟨health, some healthContext⟩),
  ("Lifetime", ⟨lifetime, some (scratchContext "$lifetime")⟩),
  ("Hitbox", ⟨hitbox, none⟩),
  ("PlatformController", ⟨platformController, some platformContext⟩),
  ("ScreenShake", ⟨screenShake, none⟩),
  ("Camera", ⟨camera, none⟩),
  ("Interactable", ⟨interactable, some (scratchContext "$triggered")⟩),
  ("AreaTrigger", ⟨areaTrigger, some (scratchContext "$triggered")⟩),
  ("Animator", ⟨animator, none⟩),
  ("PathFollower", ⟨pathFollower, some pathContext⟩),
  ("Patrol", ⟨patrol, none⟩),
  ("Chase", ⟨chase, none⟩),
  ("Bounds", ⟨bounds, none⟩),
  ("Spawner", ⟨spawner, none⟩)]

/-- The registry of the built-in components. -/
def registry : Dictionary GuardedComponent := Dictionary.ofList builtins

theorem builtins_guard :
    List.Forall₂ (fun g c => g.1 = c.1 ∧ g.2.Guards c.2) builtins Component.builtins := by
  -- one entry after the other, in the order of the table
  have entry : ∀ {name : String} {g : GuardedComponent} {c : Component}
      {l : List (String × GuardedComponent)} {l' : List (String × Component)}, g.Guards c →
      List.Forall₂ (fun g c => g.1 = c.1 ∧ g.2.Guards c.2) l l' →
      List.Forall₂ (fun g c => g.1 = c.1 ∧ g.2.Guards c.2) ((name, g) :: l) ((name, c) :: l') :=
    fun h hl => .cons ⟨rfl, h⟩ hl
  refine entry ⟨gravity_mirrors, .none⟩ ?_
  refine entry ⟨kinematic_mirrors, .some kinematicContext_mirrors⟩ ?_
  refine entry ⟨collider_mirrors, .none⟩ ?_
  refine entry ⟨friction_mirrors, .none⟩ ?_
  refine entry ⟨playerController_mirrors, .none⟩ ?_
  refine entry ⟨health_mirrors, .some healthContext_mirrors⟩ ?_
  refine entry ⟨lifetime_mirrors, .some (scratchContext_mirrors · _)⟩ ?_
  refine entry ⟨hitbox_mirrors, .none⟩ ?_
  refine entry ⟨platformController_mirrors, .some platformContext_mirrors⟩ ?_
  refine entry ⟨screenShake_mirrors, .none⟩ ?_
  refine entry ⟨camera_mirrors, .none⟩ ?_
  refine entry ⟨interactable_mirrors, .some (scratchContext_mirrors · _)⟩ ?_
  refine entry ⟨areaTrigger_mirrors, .some (scratchContext_mirrors · _)⟩ ?_
  refine entry ⟨animator_mirrors, .none⟩ ?_
  refine entry ⟨pathFollower_mirrors, .some pathContext_mirrors⟩ ?_
  refine entry ⟨patrol_mirrors, .none⟩ ?_
  refine entry ⟨chase_mirrors, .none⟩ ?_
  refine entry ⟨bounds_mirrors, .none⟩ ?_
  exact entry ⟨spawner_mirrors, .none⟩ .nil

/-- What a name stands for is never stopped. -/
theorem registry_guards (id : String) :
    Option.Rel GuardedComponent.Guards (registry.get? id) (Registry.builtins.get? id) :=
  Dictionary.rel_get?_ofList builtins_guard id

end Guarded

end PixelScene
