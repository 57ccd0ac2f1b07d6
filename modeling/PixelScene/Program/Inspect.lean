import PixelScene.Json.Printer
import PixelScene.Program.Session
import PixelScene.Script.Dump
import PixelScene.Simulation.Log

/-!
# The inspector

The inspector reads a script with its imports and makes it ready to run, but does not run it. Its
commands list problems, sprites or entities, or write the script as JSON (`validate`, `sprites`,
`entities`, `dump`).

* `Inspect.run` runs the inspector on the words of its command line.

Validation fails if there is any problem at all, with an import or with the script itself; the other
commands go on with whatever could be read.
-/

namespace PixelScene.Inspect

/-! ## Texts -/

/-- What is said about the commands. -/
def usage : List String :=
  ["MSC Tool", "", "Usage:",
    "  msc_tool validate <script>   Resolve imports and report parse, import and compile problems",
    "  msc_tool sprites <script>    List sprite ids and their pixel rectangles",
    "  msc_tool entities <script>   List entity types, components, states and scratch ranges",
    "  msc_tool dump <script>       Print the merged document as JSON",
    "  msc_tool help                Show this message", ""]

/-- A text set to the right in three columns. -/
def alignRight (text : String) : String :=
  String.ofList (List.replicate (3 - text.length) ' ') ++ text

/-- The line of a sprite number. -/
def spriteLine (entry : Nat × SpriteFrame) : String :=
  let (id, f) := entry
  s!"{alignRight (toString id)}  {f.name}[{f.frame}]  x={f.x} y={f.y} w={f.width} h={f.height} "
    ++ s!"ox={f.offsetX} oy={f.offsetY}"

/-- The line of a component of an entity, with its scratch bytes. -/
def componentLine (s : Simulation) (entity id : String) : String :=
  let scratch := match s.scratch? entity id with
    | some range => s!"  scratch {range.start}..{range.start + range.size}"
    | none => ""
  let known := if (s.registry.get? id).isSome then "" else "  (unregistered)"
  s!"       {id}{scratch}{known}"

/-- The lines of an entity: its type number, its components and its states. -/
def entityLines (s : Simulation) (entry : String × Entity) : List String :=
  let (name, entity) := entry
  let number := match s.script.typeId? name with
    | some id => toString id
    | none => "-"
  let visual := entity.visual.getD "-"
  [s!"{alignRight number}  {name}  visual={visual}"]
    ++ entity.componentIds.map (componentLine s name)
    ++ entity.states.entries.map fun state => s!"       state {state.1}: {state.2.condition}"

/-! ## Commands -/

/-- What a script came to, and the simulation that is made of it. -/
def load (path : String) : Session (Resolution × Simulation) := do
  let r ← Session.script path
  let s := Simulation.ofScript r.script Registry.builtins
  Session.note s.setupLines
  return (r, s)

/-- Lists the problems of a script; it fails if there are some. -/
def validate (path : String) : Session Unit := do
  let (r, s) ← load path
  let issues := r.errors ++ s.diagnosticTexts
  if issues.isEmpty then
    let script := s.script
    Session.say [s!"{path}: OK ({script.entities.size} entities, {script.events.length} events, "
      ++ s!"{s.atlas.size} sprites, {script.globals.size} schema vars)"]
  else
    Session.say (issues.map ("- " ++ ·))
    Session.fail s!"{path}: {issues.length} issue(s) found" []

/-- Lists the sprite numbers of a script. -/
def sprites (path : String) : Session Unit := do
  let (_, s) ← load path
  Session.say (s!"grid {s.script.gridSize}" :: s.atlas.numbered.map spriteLine)

/-- Lists the entities of a script. -/
def entities (path : String) : Session Unit := do
  let (_, s) ← load path
  Session.say (s.script.entities.entries.flatMap (entityLines s))

/-- Writes a script as JSON. -/
def dump (path : String) : Session Unit := do
  let (r, _) ← load path
  Session.say [r.script.toJson.prettyText]

/-! ## The program -/

/-- The command of a name, if it takes the path of a script. -/
def command? : String → Option (String → Session Unit)
  | "validate" => some validate
  | "sprites" => some sprites
  | "entities" => some entities
  | "dump" => some dump
  | _ => none

/-- Carries out the words of a command line. -/
def session : List String → Session Unit
  | [] => Session.note usage
  | name :: more =>
    match command? name, more with
    | some command, path :: _ => command path
    | some _, [] => Session.fail s!"{name} requires a path: msc_tool {name} <script>" []
    | none, _ =>
      if name = "help" ∨ name = "--help" ∨ name = "-h" then Session.note usage
      else Session.fail s!"unknown command '{name}'" []

/-- Runs the inspector. -/
def run (words : List String) (disk : Disk) : Outcome :=
  (session words).finish "error: " (Console.start disk)

end PixelScene.Inspect
