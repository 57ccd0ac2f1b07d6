import PixelScene.Proofs.Guarded.Life
import PixelScene.Proofs.Guarded.Trigger
import PixelScene.Proofs.Simulation.Pass

/-!
# Guarded ticks

A tick of a script with the built-in components, with every operation guarded. What is held is
worked out for every type of entity before the turns begin, and looked up by the number of the type
in each turn.

* `Guarded.runEvents_eq_ok`: events are never stopped.
* `Guarded.stateOf_eq_ok`, `Guarded.runComponent_eq_ok`, `Guarded.frameAt_eq_ok`: the parts of a
  turn.
* `Guarded.runSlot_eq_ok`: the turn of a slot, whose type has its input.
* `Guarded.tick_eq_ok`: no operation of a tick is misused.

The tick of the engine has two tables that it indexes without asking: the types of entities, and
what is held for each of them. Both are as long as the list of types, and a type number that is
stored in a slot is looked up with a check before either of them is used. The numbers of sprites are
read off ranges of the atlas, whose sums stay within the number of its frames.
-/

namespace PixelScene.Guarded

variable (s : Simulation)

/-! ## Events -/

/-- Carries out an action; a refused one is reported. -/
def runAction (wr : World × Report) (a : Assignment) : Guarded (World × Report) := do
  let (w, report) := wr
  match ← apply a s.script.globals w.memory with
  | .ok _ m => return ({ w with memory := m }, report)
  | .error e m => return ({ w with memory := m }, report.warn (.action a.target e))

/-- Carries out the actions of an event if its trigger fires. -/
def runEvent (held : Held) (wr : World × Report) (e : Event) : Guarded (World × Report) := do
  let (w, report) := wr
  if ← fires e.trigger w.memory w.width held s.script.globals then
    e.actions.foldlM (runAction s) (w, { report with fired := report.fired + 1 })
  else return (w, report)

/-- The events of a tick. -/
def runEvents (held : Held) (w : World) : Guarded (World × Report) :=
  s.events.foldlM (runEvent s (held.consult s.bindings)) (w, Report.empty)

theorem runAction_eq_ok (wr : World × Report) (a : Assignment) :
    runAction s wr a = .ok (s.runAction wr a) := by
  obtain ⟨w, report⟩ := wr
  unfold runAction Simulation.runAction
  dsimp only
  rw [apply_mirrors a s.script.globals w.memory, ok_bind]
  cases a.apply s.script.globals w.memory <;> rfl

theorem runEvent_eq_ok (held : Held) (wr : World × Report) (e : Event) :
    runEvent s held wr e = .ok (s.runEvent held wr e) := by
  obtain ⟨w, report⟩ := wr
  unfold runEvent Simulation.runEvent
  dsimp only
  rw [fires_eq_ok, ok_bind]
  split
  · exact foldlM_eq_ok (runAction_eq_ok s) _ _
  · rfl

theorem runEvents_eq_ok (held : Held) (w : World) :
    runEvents s held w = .ok (s.runEvents held w) :=
  foldlM_eq_ok (runEvent_eq_ok s _) _ _

/-! ## States -/

variable (t : EntityType) (m : Memory) (slot : Nat)

/-- The values that a component offers to conditions, none when it offers nothing or fails. -/
def contextOf (c : String × Properties) : Guarded Context :=
  match (registry.get? c.1).bind GuardedComponent.context with
  | some accessor => do return ((← (accessor slot c.2 (t.scratchOf c.1)).outcome? m)).getD []
  | none => return []

/-- The values that conditions of an entity see. -/
def context : Guarded Context := do
  return (← t.entity.allComponents.entries.mapM (contextOf t m slot)).flatten

/-- The reading of variables in the conditions of an entity. -/
def lookup (values : Context) (name : String) : Guarded Float :=
  match values.lookup ("$" ++ name) with
  | some x => return x
  | none => valueOf m s.script.globals name

/-- Whether a condition was read and holds. -/
def conditionHolds (read : String → Guarded Float) (condition : Option Expr) : Guarded Bool :=
  match condition with
  | some e => isTrue read e
  | none => return false

/-- The first state, in the order of declaration, whose condition holds. -/
def stateOf : Guarded (Option StateRule) := do
  if t.conditions.all Option.isNone then return none
  let values ← context t m slot
  -- conditions behind the first that holds are looked at as well
  let holding ← t.conditions.mapM (conditionHolds (lookup s m values))
  match holding.findIdx? id with
  | some i => return (t.entity.states.at? i).map Prod.snd
  | none => return none

variable {s}

theorem contextOf_eq_ok (hregistry : s.registry = Registry.builtins) (c : String × Properties) :
    contextOf t m slot c = .ok (s.contextOf t m slot c) := by
  have hguards := registry_guards c.1
  unfold contextOf Simulation.contextOf
  rw [hregistry]
  generalize registry.get? c.1 = guarded, Registry.builtins.get? c.1 = component at hguards ⊢
  cases hguards with
  | none => rfl
  | @some g c' hguards =>
    have hcontext := hguards.context
    rw [Option.bind_some, Option.bind_some]
    generalize g.context = offered, c'.context = offered' at hcontext ⊢
    cases hcontext with
    | none => rfl
    | some h =>
      dsimp only
      rw [(h slot c.2 (t.scratchOf c.1)).outcome?]
      rfl

theorem context_eq_ok (hregistry : s.registry = Registry.builtins) :
    context t m slot = .ok (s.context t m slot) := by
  rw [context, mapM_eq_ok (contextOf_eq_ok t m slot hregistry), ok_bind, Simulation.context,
    List.flatMap_def]
  rfl

theorem lookup_eq_ok (name : String) :
    lookup s m (s.context t m slot) name = .ok (s.lookup t m slot name) := by
  unfold lookup Simulation.lookup
  cases (s.context t m slot).lookup ("$" ++ name) with
  | some x => rfl
  | none => exact valueOf_eq_ok m s.script.globals name

theorem conditionHolds_eq_ok {read : String → Guarded Float} {reading : String → Float}
    (h : ∀ name, read name = .ok (reading name)) (condition : Option Expr) :
    conditionHolds read condition = .ok (Simulation.conditionHolds reading condition) := by
  cases condition with
  | none => rfl
  | some e => exact isTrue_eq_ok h e

theorem stateOf_eq_ok (hregistry : s.registry = Registry.builtins) :
    stateOf s t m slot = .ok (s.stateOf t m slot) := by
  unfold stateOf Simulation.stateOf
  split
  · rfl
  · rw [context_eq_ok t m slot hregistry, ok_bind,
      mapM_eq_ok (conditionHolds_eq_ok (lookup_eq_ok t m slot)), ok_bind, List.findIdx?_map,
      Function.id_comp]
    cases t.conditions.findIdx? (Simulation.conditionHolds (s.lookup t m slot)) <;> rfl

/-! ## Turns -/

variable (s) (held : Held) (geometry : Geometry)

/-- Runs a component; a failure is reported. -/
def runComponent (wr : World × Report) (c : String × Properties) : Guarded (World × Report) := do
  let (w, report) := wr
  match registry.get? c.1 with
  | none => return (w, report)
  | some component =>
    match ← component.tick slot c.2 ⟨held, geometry, s.script, t.scratchOf c.1⟩ w with
    | .ok _ w' => return (w', report)
    | .error cause w' => return (w', report.blame ⟨slot, t.name, c.1, cause⟩)

/-- The sprite number shown in a tick when a frame lasts `speed` ticks. -/
def frameAt (r : SpriteRange) (tick : Nat) (speed : Float) : Guarded Nat := do
  let step := Number.truncateWord64 (Number.ofInt tick / SpriteRange.usableSpeed speed)
  return r.first + (← modulo step (max r.count 1))

/-- The sprite number that an entity shows. -/
def spriteNumber (visual : Option String) (components : Table Properties) (tick : Nat) :
    Guarded Nat :=
  match visual.bind s.atlas.range? with
  | some range => frameAt range tick (Simulation.animationSpeed components)
  | none => return 0

/-- Shows a sprite; a refusal is reported. -/
def showSprite (slot number : Nat) (wr : World × Report) : Guarded (World × Report) := do
  let (w, report) := wr
  match ← setField slot .sprite number w.memory with
  | .ok _ m => return ({ w with memory := m }, report)
  | .error e m => return ({ w with memory := m }, report.warn (.sprite slot e))

/-- The turn of an entity. -/
def runEntity (wr : World × Report) : Guarded (World × Report) := do
  let state ← stateOf s t wr.1.memory slot
  let components := t.entity.componentsIn state
  let visual := (state.bind StateRule.visual).or t.entity.visual
  let wr ← components.entries.foldlM (runComponent s t slot held geometry) wr
  let number ← spriteNumber s visual components wr.1.ticks
  let (w, report) ← showSprite slot number wr
  return (w, { report with ticked := report.ticked + 1 })

/-- The turn of a slot; `inputs` is what is held, for every type of entity. -/
def runSlot (inputs : List Held) (wr : World × Report) (slot : Nat) : Guarded (World × Report) := do
  let active ← (isActive slot).outcome? wr.1.memory
  let id ← (field slot .typeId).outcome? wr.1.memory
  match active, id with
  | some true, some id =>
    if id ≤ 0 then return wr
    match s.types[id.toNat - 1]? with
    | some t =>
      let held ← item inputs (id.toNat - 1)
      runEntity s t slot held geometry wr
    | none => return wr
  | _, _ => return wr

/-- The turns of all slots. -/
def runEntities (wr : World × Report) : Guarded (World × Report) :=
  let inputs := s.types.map fun t => held.consult t.bindings
  (slotAddresses wr.1.memory.size).foldlM (runSlot s geometry inputs) wr

/-- A tick. -/
def tick (w : World) : Guarded (World × Report) := do
  let wr ← runEvents s held w
  let (w, report) ← runEntities s held geometry wr
  return ({ w with ticks := w.ticks + 1 }, report)

theorem frameAt_eq_ok (r : SpriteRange) (tick : Nat) (speed : Float) :
    frameAt r tick speed = .ok (r.frameAt tick speed) := by
  have hcount : max r.count 1 ≠ 0 := by omega
  rw [frameAt, modulo_eq_ok hcount]
  rfl

theorem spriteNumber_eq_ok (visual : Option String) (components : Table Properties) (tick : Nat) :
    spriteNumber s visual components tick = .ok (s.spriteNumber visual components tick) := by
  unfold spriteNumber Simulation.spriteNumber
  cases visual.bind s.atlas.range? with
  | some range => exact frameAt_eq_ok range tick _
  | none => rfl

theorem showSprite_eq_ok (slot number : Nat) (wr : World × Report) :
    showSprite slot number wr = .ok (Simulation.showSprite slot number wr) := by
  obtain ⟨w, report⟩ := wr
  unfold showSprite Simulation.showSprite
  dsimp only
  rw [setField_mirrors slot .sprite number w.memory, ok_bind]
  cases Edit.setField slot .sprite number w.memory <;> rfl

section Builtins

variable {s} (hregistry : s.registry = Registry.builtins)

include hregistry

theorem runComponent_eq_ok (wr : World × Report) (c : String × Properties) :
    runComponent s t slot held geometry wr c = .ok (s.runComponent t held geometry slot wr c) := by
  obtain ⟨w, report⟩ := wr
  have hguards := registry_guards c.1
  unfold runComponent Simulation.runComponent
  rw [hregistry]
  generalize registry.get? c.1 = guarded, Registry.builtins.get? c.1 = component at hguards ⊢
  cases hguards with
  | none => rfl
  | @some g c' hguards =>
    dsimp only
    rw [hguards.tick slot c.2 ⟨held, geometry, s.script, t.scratchOf c.1⟩ w, ok_bind]
    cases c'.tick slot c.2 ⟨held, geometry, s.script, t.scratchOf c.1⟩ w <;> rfl

theorem runEntity_eq_ok (wr : World × Report) :
    runEntity s t slot held geometry wr = .ok (s.runEntity t held geometry slot wr) := by
  rw [runEntity, stateOf_eq_ok t wr.1.memory slot hregistry, ok_bind]
  dsimp only
  rw [foldlM_eq_ok (runComponent_eq_ok t slot held geometry hregistry), ok_bind,
    spriteNumber_eq_ok, ok_bind, showSprite_eq_ok, ok_bind]
  rfl

/-- The input of a type stands at the number of the type. -/
theorem runSlot_eq_ok (wr : World × Report) (slot : Nat) :
    runSlot s geometry (s.types.map fun t => held.consult t.bindings) wr slot =
      .ok (s.runSlot held geometry wr slot) := by
  unfold runSlot Simulation.runSlot Simulation.typeAt?
  rw [(isActive_mirrors slot).outcome?, ok_bind, (field_mirrors slot .typeId).outcome?, ok_bind]
  match wr.1.memory.isActive slot, wr.1.memory.field slot .typeId with
  | .ok true, .ok id =>
    simp only [Except.toOption]
    by_cases hid : id ≤ 0
    · rw [if_pos hid, if_pos hid]
      rfl
    · rw [if_neg hid, if_neg hid]
      cases ht : s.types[id.toNat - 1]? with
      | none => rfl
      | some t =>
        have hinput : (s.types.map fun t => held.consult t.bindings)[id.toNat - 1]? =
            some (held.consult t.bindings) := by
          rw [List.getElem?_map, ht, Option.map_some]
        dsimp only
        rw [item_eq_ok hinput, ok_bind]
        exact runEntity_eq_ok t slot _ geometry hregistry wr
  | .ok false, _ => rfl
  | .error e, _ => rfl
  | .ok true, .error e => rfl

theorem runEntities_eq_ok (wr : World × Report) :
    runEntities s held geometry wr = .ok (s.runEntities held geometry wr) :=
  foldlM_eq_ok (runSlot_eq_ok held geometry hregistry) _ _

end Builtins

/--
**No operation of a tick is misused.** Whatever the script, the bindings of the hosts, what is held,
the geometry and the world, with a memory of any size and a canvas of any width, the guarded tick is
not stopped: every byte, slice, corner, digit and input that is looked up is there, no countdown and
no number without a sign falls below zero, nothing is divided by zero, no number is held between
bounds the wrong way round, and no random number is drawn from an empty range. It does what the tick
does.
-/
theorem tick_eq_ok (script : Script) (hosts : List KeyBindings) (held : Held)
    (geometry : Geometry) (w : World) :
    let s := Simulation.ofBuiltins script hosts
    tick s held geometry w = .ok (s.tick held geometry w) := by
  intro s
  have hregistry : s.registry = Registry.builtins := Simulation.ofBuiltins_registry script hosts
  rw [tick, runEvents_eq_ok, ok_bind, runEntities_eq_ok held geometry hregistry, ok_bind]
  rfl

end PixelScene.Guarded
