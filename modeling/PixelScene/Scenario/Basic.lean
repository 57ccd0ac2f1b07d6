import PixelScene.Json.Decode
import PixelScene.Simulation.Log

/-!
# Scenarios

A scenario is a script together with everything that its run depends on: the size of the canvas, the
seed, the number of steps, what is held in which steps, baked geometry, and the variables to watch
(`HarnessFixture`). The script is a file, or it is written into the scenario with the files that it
may import.

* `Scenario.ofJson?` reads a scenario.
* `Scenario.heldAt`: what is held in a step (`snapshot_for`). A span covers its first step but not
  its last one.

Steps are numbered from zero. A scenario that names no script at all can be read; it cannot be run.
-/

namespace PixelScene

/-- Actions and keys that are held from a step up to another, which is left out. -/
structure HeldSpan where
  start : Nat
  stop : Nat
  actions : List String
  keys : List String
deriving DecidableEq, Repr

/-- A script and everything that its run depends on. -/
structure Scenario where
  script : Option String
  source : Option String
  files : Dictionary String
  steps : Nat
  width : Nat
  height : Nat
  seed : Nat
  places : Bool
  spans : List HeldSpan
  geometry : Geometry
  watched : List String

/-! ## What is held -/

namespace HeldSpan

/-- Whether a step belongs to the span. -/
def covers (s : HeldSpan) (step : Nat) : Bool := s.start ≤ step && step < s.stop

/-- What is held, with what the span adds. -/
def hold (h : Held) (s : HeldSpan) : Held := s.keys.foldl Held.hold (s.actions.foldl Held.press h)

end HeldSpan

namespace Scenario

/-- What is held in a step. -/
def heldAt (s : Scenario) (step : Nat) : Held :=
  (s.spans.filter (·.covers step)).foldl HeldSpan.hold Held.nothing

/-- The number of steps of a scenario that does not say. -/
def defaultSteps : Nat := 60

end Scenario

/-! ## Reading -/

/-- A span of a JSON value. -/
def HeldSpan.ofJson? (v : Json) : Option HeldSpan := do
  match ← Json.record? ["from", "to", "actions", "keys"] v with
  | [start, stop, actions, keys] =>
    return {
      start := ← Json.orElse? (Json.nat? Json.word64) 0 start
      stop := ← Json.needed? (Json.nat? Json.word64) stop
      actions := ← Json.orElse? (Json.listOf? Json.text?) [] actions
      keys := ← Json.orElse? (Json.listOf? Json.text?) [] keys }
  | _ => none

namespace Scenario

/-- The fields of a scenario, in the order in which a list gives them. -/
def fieldNames : List String :=
  ["script", "source", "files", "steps", "width", "height", "seed", "spawn_instances", "inputs",
    "assets", "watch"]

/-- A scenario of a JSON value. -/
def ofJson? (v : Json) : Option Scenario := do
  match ← Json.record? fieldNames v with
  | [script, source, files, steps, width, height, seed, places, spans, geometry, watched] =>
    return {
      script := ← Json.orElse? (Json.optional? Json.text?) none script
      source := ← Json.orElse? (Json.optional? Json.text?) none source
      files := ← Json.orElse? (Json.dictionary? Json.text?) ∅ files
      steps := ← Json.orElse? (Json.nat? Json.word64) defaultSteps steps
      width := ← Json.orElse? (Json.nat? Json.word32) defaultSide width
      height := ← Json.orElse? (Json.nat? Json.word32) defaultSide height
      seed := ← Json.orElse? (Json.nat? Json.word64) 0 seed
      places := ← Json.orElse? Json.bool? true places
      spans := ← Json.orElse? (Json.listOf? HeldSpan.ofJson?) [] spans
      geometry := ← Json.orElse? Json.geometry? Geometry.empty geometry
      watched := ← Json.orElse? (Json.listOf? Json.text?) [] watched }
  | _ => none

end Scenario

end PixelScene
