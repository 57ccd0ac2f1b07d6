import PixelScene.Simulation.Basic

/-!
# Ticks

In a tick the events come first, then every active entity in the order of the slots, and then the
count of ticks goes up (`tick`, `run_events`, `run_entities`). An entity runs the components of the
state it is in; a component that fails is reported, and the others run all the same. At the end of
its turn an entity shows its sprite.

* `Simulation.stateOf`: the first state, in the order of declaration, whose condition holds
  (`resolve_state`).
* `Simulation.tick`: a whole tick, with a report of what happened.
* `Simulation.spawn`, `Simulation.spawnPlacements`: putting entities into the world.

Whether a slot takes a turn is asked when it is its turn: an entity that is spawned into a slot
further behind takes one in the same tick, and one that was ended on the way is passed over. The
type and the state of an entity are those at the beginning of its turn. A sprite number too large
for its byte is held at 255, which no report mentions.
-/

namespace PixelScene

/-! ## Reports -/

/-- A component that failed. -/
structure Fault where
  slot : Nat
  entity : String
  component : String
  cause : ComponentFault
deriving DecidableEq, Repr

/-- What went wrong outside of components. -/
inductive Warning where
  | action (target : String) (e : AccessError)
  | sprite (slot : Nat) (e : AccessError)
deriving DecidableEq, Repr

/-- The wording of a warning. -/
def Warning.message : Warning → String
  | action target e => s!"action on ${target} failed: {e.message}"
  | sprite slot e => s!"sprite sync failed at slot {slot}: {e.message}"

/-- What happened in a tick. -/
structure Report where
  fired : Nat
  ticked : Nat
  faults : List Fault
  warnings : List Warning
deriving DecidableEq, Repr

namespace Report

/-- Nothing happened. -/
def empty : Report := ⟨0, 0, [], []⟩

instance : Inhabited Report := ⟨empty⟩

/-- Notes a warning. -/
def warn (r : Report) (w : Warning) : Report := { r with warnings := r.warnings ++ [w] }

/-- Notes a fault. -/
def blame (r : Report) (f : Fault) : Report := { r with faults := r.faults ++ [f] }

end Report

namespace Simulation

/-! ## Events -/

/-- Carries out an action; a refused one is reported. -/
def runAction (s : Simulation) (wr : World × Report) (a : Assignment) : World × Report :=
  let (w, report) := wr
  match a.apply s.script.globals w.memory with
  | .ok _ m => ({ w with memory := m }, report)
  | .error e m => ({ w with memory := m }, report.warn (.action a.target e))

/-- Carries out the actions of an event if its trigger fires. -/
def runEvent (s : Simulation) (held : Held) (wr : World × Report) (e : Event) : World × Report :=
  let (w, report) := wr
  if e.trigger.fires w.memory w.width held s.script.globals then
    e.actions.foldl s.runAction (w, { report with fired := report.fired + 1 })
  else (w, report)

/-- The events of a tick. -/
def runEvents (s : Simulation) (held : Held) (w : World) : World × Report :=
  s.events.foldl (s.runEvent (held.consult s.bindings)) (w, Report.empty)

/-! ## States -/

/-- The values that a component offers to conditions, none when it offers nothing or fails. -/
def contextOf (s : Simulation) (t : EntityType) (m : Memory) (slot : Nat)
    (c : String × Properties) : Context :=
  match (s.registry.get? c.1).bind Component.context with
  | some accessor => ((accessor slot c.2 (t.scratchOf c.1) m).toOption).getD []
  | none => []

/-- The values that conditions of an entity see; of two with one name the first counts. -/
def context (s : Simulation) (t : EntityType) (m : Memory) (slot : Nat) : Context :=
  t.entity.allComponents.entries.flatMap (s.contextOf t m slot)

/-- The reading of variables in the conditions of an entity: what its components offer, then the
variables of the script. -/
def lookup (s : Simulation) (t : EntityType) (m : Memory) (slot : Nat) (name : String) : Float :=
  match (s.context t m slot).lookup ("$" ++ name) with
  | some x => x
  | none => m.valueOf s.script.globals name

/-- Whether a condition was read and holds. -/
def conditionHolds (read : String → Float) (condition : Option Expr) : Bool :=
  condition.any (·.isTrue read)

/-- The first state, in the order of declaration, whose condition holds. -/
def stateOf (s : Simulation) (t : EntityType) (m : Memory) (slot : Nat) : Option StateRule :=
  if t.conditions.all Option.isNone then none
  else
    match t.conditions.findIdx? (conditionHolds (s.lookup t m slot)) with
    | some i => (t.entity.states.at? i).map Prod.snd
    | none => none

/-! ## Entities -/

/-- Runs a component; a failure is reported. -/
def runComponent (s : Simulation) (t : EntityType) (held : Held) (geometry : Geometry)
    (slot : Nat) (wr : World × Report) (c : String × Properties) : World × Report :=
  let (w, report) := wr
  match s.registry.get? c.1 with
  | none => (w, report)
  | some component =>
    match component.tick slot c.2 ⟨held, geometry, s.script, t.scratchOf c.1⟩ w with
    | .ok _ w' => (w', report)
    | .error cause w' => (w', report.blame ⟨slot, t.name, c.1, cause⟩)

/-- The number of ticks that a frame of an entity's sprite lasts. -/
def animationSpeed (components : Table Properties) : Float :=
  match components.get? "Animator" with
  | some p => p.number "speed" 1
  | none => 1

/-- The sprite number that an entity shows: zero when its visual is missing or unknown. -/
def spriteNumber (s : Simulation) (visual : Option String) (components : Table Properties)
    (tick : Nat) : Nat :=
  match visual.bind s.atlas.range? with
  | some range => range.frameAt tick (animationSpeed components)
  | none => 0

/-- Shows a sprite; a refusal is reported. -/
def showSprite (slot number : Nat) (wr : World × Report) : World × Report :=
  let (w, report) := wr
  match Edit.setField slot .sprite number w.memory with
  | .ok _ m => ({ w with memory := m }, report)
  | .error e m => ({ w with memory := m }, report.warn (.sprite slot e))

/-- The turn of an entity. -/
def runEntity (s : Simulation) (t : EntityType) (held : Held) (geometry : Geometry) (slot : Nat)
    (wr : World × Report) : World × Report :=
  let state := s.stateOf t wr.1.memory slot
  let components := t.entity.componentsIn state
  let visual := (state.bind StateRule.visual).or t.entity.visual
  let (w, report) := components.entries.foldl (s.runComponent t held geometry slot) wr
  let number := s.spriteNumber visual components w.ticks
  let (w, report) := showSprite slot number (w, report)
  (w, { report with ticked := report.ticked + 1 })

/-- The type of the entity in a slot, if it is active and has one. -/
def typeAt? (s : Simulation) (m : Memory) (slot : Nat) : Option EntityType :=
  match m.isActive slot, m.field slot .typeId with
  | .ok true, .ok id => if id ≤ 0 then none else s.types[id.toNat - 1]?
  | _, _ => none

/-- The turn of a slot. -/
def runSlot (s : Simulation) (held : Held) (geometry : Geometry) (wr : World × Report)
    (slot : Nat) : World × Report :=
  match s.typeAt? wr.1.memory slot with
  | some t => s.runEntity t (held.consult t.bindings) geometry slot wr
  | none => wr

/-- The turns of all slots. -/
def runEntities (s : Simulation) (held : Held) (geometry : Geometry) (wr : World × Report) :
    World × Report :=
  (slotAddresses wr.1.memory.size).foldl (s.runSlot held geometry) wr

/-! ## Ticks -/

/-- A tick. -/
def tick (s : Simulation) (held : Held) (geometry : Geometry) (w : World) : World × Report :=
  let (w, report) := s.runEntities held geometry (s.runEvents held w)
  ({ w with ticks := w.ticks + 1 }, report)

/-- A single tick of a script with the built-in components. -/
def tickOnce (script : Script) (held : Held) (geometry : Geometry) (w : World) : World × Report :=
  (ofScript script Registry.builtins).tick held geometry w

/-! ## Entities that a host puts into the world -/

/-- Why an entity cannot be put into the world. -/
inductive SpawnFault where
  | unknownEntity (name : String)
  | access (e : AccessError)
deriving DecidableEq, Repr

/-- The wording of a fault. -/
def SpawnFault.message : SpawnFault → String
  | unknownEntity name => s!"unknown entity '{name}'"
  | access e => e.message

/-- Puts a fresh entity into the first free slot and gives its address, if there is such a slot. -/
def spawn (s : Simulation) (entity : String) (x y : Int) (w : World) :
    Except SpawnFault (Option Nat) × World :=
  match s.script.typeId? entity with
  | none => (.error (.unknownEntity entity), w)
  | some id =>
    match Edit.spawn id x y (s.script.freshHealth id) w.memory with
    | .ok slot m => (.ok slot, { w with memory := m })
    | .error e m => (.error (.access e), { w with memory := m })

/-- What is said when the pool is full before all entities are placed. -/
def poolFullNotice : String := "[engine] entity pool is full; skipping remaining instances"

/-- Places entities until the pool is full; one that cannot be placed is skipped. Gives how many
were placed, and what is said about the others. -/
def spawnAll (s : Simulation) : List Placement → World → Nat × List String × World
  | [], w => (0, [], w)
  | p :: more, w =>
    match s.spawn p.entity p.x p.y w with
    | (.ok (some _), w) =>
      let (count, notices, w) := s.spawnAll more w
      (count + 1, notices, w)
    | (.ok none, w) => (0, [poolFullNotice], w)
    | (.error fault, w) =>
      let (count, notices, w) := s.spawnAll more w
      (count, s!"[engine] instance skipped: {fault.message}" :: notices, w)

/-- Places the entities that are there from the start. -/
def spawnPlacements (s : Simulation) (w : World) : Nat × List String × World :=
  s.spawnAll s.script.placements w

end Simulation

end PixelScene
