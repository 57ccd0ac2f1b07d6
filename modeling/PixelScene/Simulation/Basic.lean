import PixelScene.Atlas
import PixelScene.Component.Builtin
import PixelScene.Trigger

/-!
# Simulations

A script and a registry of components are made ready to run: triggers, actions and conditions are
read once, scratch bytes are shared out, and key bindings are laid over each other (`Engine::new`,
`compile_events`, `compile_entity`). What cannot be used is left out, and a `Diagnostic` says so.

* `allotScratch` gives the components of an entity their scratch bytes, one after the other.
* `Simulation.ofScript` makes a script ready; `Simulation.withHost` adds the bindings of a host.
* An `EntityType` is what is known of an entity before any tick. Of more than 255 entities the first
  255 have a type.

The scratch bytes taken so far are counted in 64 bits, without a check. The components of the engine
need two bytes at most, but a host may register any number, and a need that takes the count over the
top wraps it around (`Number.wrapWord64`). That is the engine as it is released; a build that checks
for overflow stops there instead.
-/

namespace PixelScene

/-! ## Diagnostics -/

/-- What is left out when a script is made ready. -/
inductive Diagnostic where
  | badTrigger (trigger : String) (fault : TriggerFault)
  | badAction (trigger : String) (fault : ActionFault)
  | tooManyEntities (count : Nat)
  | badCondition (entity state : String) (e : ExprError)
  | unknownComponent (entity id : String)
  | noScratch (entity id : String) (needed left : Nat)
deriving DecidableEq, Repr

/-- The wording of a diagnostic. -/
def Diagnostic.message : Diagnostic → String
  | badTrigger trigger fault => s!"event '{trigger}' never fires: {fault.message}"
  | badAction trigger fault => s!"event '{trigger}': {fault.message}"
  | tooManyEntities count =>
    s!"{count} entity definitions declared; only the first {Script.maxTypes} get a type id"
  | badCondition entity state e => s!"Entity.{entity} state '{state}' never matches: {e.message}"
  | unknownComponent entity id => s!"Entity.{entity}: unknown component '{id}' is ignored"
  | noScratch entity id needed left =>
    s!"Entity.{entity}: component '{id}' needs {needed} scratch bytes but only {left} remain"

/-! ## Events -/

/-- An event that is ready to fire. -/
structure Event where
  trigger : Trigger
  actions : List Assignment

namespace Event

/-- The actions of an event that can be read, and what is wrong with the others. -/
def readActions (trigger : String) : List String → List Assignment × List Diagnostic
  | [] => ([], [])
  | raw :: more =>
    let (actions, notes) := readActions trigger more
    match Assignment.parse raw.toList with
    | .ok action => (action :: actions, notes)
    | .error fault => (actions, .badAction trigger fault :: notes)

/-- The events whose triggers can be read, and what is wrong with the others. -/
def ofRules : List EventRule → List Event × List Diagnostic
  | [] => ([], [])
  | rule :: more =>
    let (events, notes) := ofRules more
    match Trigger.parse rule.trigger.toList with
    | .error fault => (events, .badTrigger rule.trigger fault :: notes)
    | .ok trigger =>
      let (actions, own) := readActions rule.trigger rule.actions
      (⟨trigger, actions⟩ :: events, own ++ notes)

end Event

/-! ## Entities -/

/-- The conditions of some states, `none` for one that cannot be read, and what is wrong. -/
def readConditions (entity : String) :
    List (String × StateRule) → List (Option Expr) × List Diagnostic
  | [] => ([], [])
  | (name, rule) :: more =>
    let (conditions, notes) := readConditions entity more
    match Expr.parse rule.condition.toList with
    | .ok e => (some e :: conditions, notes)
    | .error e => (none :: conditions, .badCondition entity name e :: notes)

/--
Gives each of some components its scratch bytes, when `used` bytes are taken already. A component
that needs more than is left gets none, and those after it still get theirs. The bytes are counted
in 64-bit words, so a need that takes the count over the top is granted.
-/
def allotScratch (registry : Registry) (entity : String) :
    (used : Nat) → List String → List (String × Scratch) × List Diagnostic
  | _, [] => ([], [])
  | used, id :: more =>
    match registry.get? id with
    | none =>
      let (parts, notes) := allotScratch registry entity used more
      (parts, .unknownComponent entity id :: notes)
    | some component =>
      let needed := component.scratchBytes
      if needed = 0 then allotScratch registry entity used more
      else if Number.wrapWord64 (used + needed) ≤ PixelScene.scratchBytes then
        let (parts, notes) := allotScratch registry entity (Number.wrapWord64 (used + needed)) more
        ((id, ⟨used, needed⟩) :: parts, notes)
      else
        let (parts, notes) := allotScratch registry entity used more
        ((id, Scratch.none) :: parts,
          .noScratch entity id needed (PixelScene.scratchBytes - used) :: notes)

/-- A type of entity that is ready to run. -/
structure EntityType where
  name : String
  entity : Entity
  conditions : List (Option Expr)
  scratch : Table Scratch
  ownBindings : KeyBindings
  bindings : KeyBindings

namespace EntityType

/-- A type of entity made ready, and what is wrong with it. -/
def ofEntity (registry : Registry) (shared : KeyBindings) (name : String) (entity : Entity) :
    EntityType × List Diagnostic :=
  let (conditions, notes) := readConditions name entity.states.entries
  let (parts, more) := allotScratch registry name 0 entity.componentIds
  let own := KeyBindings.ofPairs entity.inputs.entries
  (⟨name, entity, conditions, .ofList parts, own, own.atop shared⟩, notes ++ more)

/-- The scratch bytes of a component, none unless it was given some. -/
def scratchOf (t : EntityType) (id : String) : Scratch := (t.scratch.get? id).getD Scratch.none

end EntityType

/-! ## Simulations -/

/-- A script that is ready to run. -/
structure Simulation where
  script : Script
  registry : Registry
  atlas : Atlas
  events : List Event
  types : List EntityType
  bindings : KeyBindings
  diagnostics : List Diagnostic

namespace Simulation

/-- A script made ready to run with the components of a registry. -/
def ofScript (script : Script) (registry : Registry) : Simulation :=
  let (events, eventNotes) := Event.ofRules script.events
  let shared := KeyBindings.ofPairs script.inputs.entries
  let count := script.entities.size
  let countNotes := if Script.maxTypes < count then [Diagnostic.tooManyEntities count] else []
  let compiled := (script.entities.entries.take Script.maxTypes).map fun e =>
    EntityType.ofEntity registry shared e.1 e.2
  { script := script
    registry := registry
    atlas := Atlas.ofScript script
    events := events
    types := compiled.map Prod.fst
    bindings := shared
    diagnostics := eventNotes ++ countNotes ++ compiled.flatMap Prod.snd }

/-- A simulation with the key bindings of a host under those of the script. -/
def withHost (s : Simulation) (host : KeyBindings) : Simulation :=
  let shared := (KeyBindings.ofPairs s.script.inputs.entries).atop host
  { s with
    bindings := shared
    types := s.types.map fun t => { t with bindings := t.ownBindings.atop shared } }

/-- The scratch bytes of a component of an entity, if it was considered for some. -/
def scratch? (s : Simulation) (entity component : String) : Option Scratch :=
  (s.types.find? (·.name == entity)).bind (·.scratch.get? component)

/-- The wordings of the diagnostics. -/
def diagnosticTexts (s : Simulation) : List String := s.diagnostics.map Diagnostic.message

end Simulation

end PixelScene
