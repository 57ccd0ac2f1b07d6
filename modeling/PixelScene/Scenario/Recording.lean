import PixelScene.Json.Decode
import PixelScene.Json.Printer
import PixelScene.Simulation.Tick

/-!
# Recordings

What is kept of the run of a scenario: the problems met on the way, a record for every step, the
entities at the end, and the camera (`HarnessOutput`). Recordings are written as JSON and read back,
so that a later run can be compared with an earlier one. Numbers compare as numbers: the two zeros
are the same, and what is not a number differs from everything.

* `Recording.toJson`, `Recording.ofJson?`: writing and reading.
* `Recording.difference?`: the first difference between two recordings (`describe_mismatch`).

The camera is in single precision and the watched variables in double precision, so what is written
of a number depends on where it stands. A number that is not finite is written as `null`, and no
field of a recording can be `null` when it is read.
-/

namespace PixelScene

/-! ## Records -/

/-- What happened in a step, and the values that the watched variables had after it. -/
structure StepRecord where
  step : Nat
  fired : Nat
  ticked : Nat
  faults : List String
  globals : Dictionary Float
deriving BEq

/-- An entity as its slot shows it. -/
structure EntityRecord where
  slot : Nat
  entity : String
  x : Int
  y : Int
  velocityX : Int
  velocityY : Int
  health : Int
  sprite : Int
deriving BEq, DecidableEq, Repr

/-- What is kept of a run. -/
structure Recording where
  steps : Nat
  diagnostics : List String
  importErrors : List String
  results : List StepRecord
  entities : List EntityRecord
  camera : Camera
deriving BEq

/-- The entity of a slot, named by its type number when the script does not know the type. -/
def EntityRecord.ofSlot (script : Script) (m : Memory) (slot : Nat) :
    Except AccessError EntityRecord := do
  let type ← m.field slot .typeId
  let (x, y) ← m.position slot
  let (velocityX, velocityY) ← m.velocity slot
  let health ← m.field slot .health
  let sprite ← m.field slot .sprite
  let entity := match script.entityOfType? type.toNat with
    | some (name, _) => name
    | none => s!"type{type}"
  return ⟨(slotIndex? slot).getD 0, entity, x, y, velocityX, velocityY, health, sprite⟩

/-! ## Writing -/

/-- A step as JSON; faults and variables are left out when there are none. -/
def StepRecord.toJson (r : StepRecord) : Json :=
  .object ([("step", .integer r.step), ("firedEvents", .integer r.fired),
    ("tickedEntities", .integer r.ticked)]
    ++ (if r.faults.isEmpty then [] else [("faults", .list (r.faults.map .text))])
    ++ (if r.globals.isEmpty then []
      else [("globals", .object (r.globals.entries.map fun g => (g.1, .real g.2)))]))

/-- An entity as JSON. -/
def EntityRecord.toJson (r : EntityRecord) : Json :=
  .object [("slot", .integer r.slot), ("entity", .text r.entity),
    ("position", .list [.integer r.x, .integer r.y]),
    ("velocity", .list [.integer r.velocityX, .integer r.velocityY]),
    ("health", .integer r.health), ("sprite", .integer r.sprite)]

/-- A camera as JSON. -/
def Camera.toJson (c : Camera) : Json :=
  .object [("x", .single c.position.x), ("y", .single c.position.y), ("zoom", .single c.zoom),
    ("shake", .single c.shake), ("tint", .list (c.tint.parts.map .single))]

namespace Recording

/-- A recording as JSON. -/
def toJson (r : Recording) : Json :=
  .object [("steps", .integer r.steps), ("diagnostics", .list (r.diagnostics.map .text)),
    ("importErrors", .list (r.importErrors.map .text)),
    ("results", .list (r.results.map StepRecord.toJson)),
    ("finalEntities", .list (r.entities.map EntityRecord.toJson)),
    ("camera", r.camera.toJson)]

end Recording

/-! ## Reading -/

/-- A step of a JSON value. -/
def StepRecord.ofJson? (v : Json) : Option StepRecord := do
  match ← Json.record? ["step", "firedEvents", "tickedEntities", "faults", "globals"] v with
  | [step, fired, ticked, faults, globals] =>
    return {
      step := ← Json.needed? (Json.nat? Json.word64) step
      fired := ← Json.needed? (Json.nat? Json.word64) fired
      ticked := ← Json.needed? (Json.nat? Json.word64) ticked
      faults := ← Json.orElse? (Json.listOf? Json.text?) [] faults
      globals := ← Json.orElse? (Json.dictionary? Json.double?) ∅ globals }
  | _ => none

/-- An entity of a JSON value. -/
def EntityRecord.ofJson? (v : Json) : Option EntityRecord := do
  match ← Json.record? ["slot", "entity", "position", "velocity", "health", "sprite"] v with
  | [slot, entity, position, velocity, health, sprite] =>
    let slot ← Json.needed? (Json.nat? Json.word64) slot
    let entity ← Json.needed? Json.text? entity
    let position ← Json.needed? (Json.tuple? 2 (Json.int? 0 65535)) position
    let velocity ← Json.needed? (Json.tuple? 2 (Json.int? (-32768) 32767)) velocity
    let health ← Json.needed? (Json.int? 0 255) health
    let sprite ← Json.needed? (Json.int? 0 255) sprite
    match position, velocity with
    | [x, y], [velocityX, velocityY] =>
      return ⟨slot, entity, x, y, velocityX, velocityY, health, sprite⟩
    | _, _ => none
  | _ => none

/-- A camera of a JSON value. -/
def Camera.ofJson? (v : Json) : Option Camera := do
  match ← Json.record? ["x", "y", "zoom", "shake", "tint"] v with
  | [x, y, zoom, shake, tint] =>
    let x ← Json.needed? Json.single? x
    let y ← Json.needed? Json.single? y
    let zoom ← Json.needed? Json.single? zoom
    let shake ← Json.needed? Json.single? shake
    match ← Json.needed? (Json.tuple? 4 Json.single?) tint with
    | [red, green, blue, alpha] => return ⟨⟨x, y⟩, zoom, shake, ⟨red, green, blue, alpha⟩⟩
    | _ => none
  | _ => none

namespace Recording

/-- A recording of a JSON value. -/
def ofJson? (v : Json) : Option Recording := do
  let names := ["steps", "diagnostics", "importErrors", "results", "finalEntities", "camera"]
  match ← Json.record? names v with
  | [steps, diagnostics, importErrors, results, entities, camera] =>
    return {
      steps := ← Json.needed? (Json.nat? Json.word64) steps
      diagnostics := ← Json.needed? (Json.listOf? Json.text?) diagnostics
      importErrors := ← Json.needed? (Json.listOf? Json.text?) importErrors
      results := ← Json.needed? (Json.listOf? StepRecord.ofJson?) results
      entities := ← Json.needed? (Json.listOf? EntityRecord.ofJson?) entities
      camera := ← Json.needed? Camera.ofJson? camera }
  | _ => none

end Recording

/-! ## Comparing -/

/-- How a recording differs from the one that was expected. -/
inductive Difference where
  | problems
  | step (expected actual : StepRecord)
  | stepCount (expected actual : Nat)
  | entities (expected actual : List EntityRecord)
  | camera

/-- The wording of a difference. -/
def Difference.message : Difference → String
  | problems => "diagnostics differ"
  | step expected actual =>
    s!"first difference at step {expected.step}\nexpected: {expected.toJson.compactText}\n"
      ++ s!"actual:   {actual.toJson.compactText}"
  | stepCount expected actual => s!"{expected} steps expected, {actual} recorded"
  | entities expected actual =>
    let text := fun l => (Json.list (l.map EntityRecord.toJson)).compactText
    s!"final entities differ\nexpected: {text expected}\nactual:   {text actual}"
  | camera => "camera differs"

namespace Recording

/-- The first two records, side by side, that differ. -/
def firstDifferent? (expected actual : List StepRecord) : Option (StepRecord × StepRecord) :=
  (expected.zip actual).find? fun p => p.1 != p.2

/-- What is said to differ between recordings that are not equal; what is left is the camera. -/
def difference (expected actual : Recording) : Difference :=
  if expected.diagnostics != actual.diagnostics
      || expected.importErrors != actual.importErrors then .problems
  else match firstDifferent? expected.results actual.results with
    | some (want, got) => .step want got
    | none =>
      if expected.results.length ≠ actual.results.length then
        .stepCount expected.results.length actual.results.length
      else if expected.entities != actual.entities then .entities expected.entities actual.entities
      else .camera

/-- The first difference between two recordings, none when they are equal. -/
def difference? (expected actual : Recording) : Option Difference :=
  if expected == actual then none else some (difference expected actual)

end Recording

end PixelScene
