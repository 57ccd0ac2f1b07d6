import PixelScene.Disk
import PixelScene.Scenario.Basic
import PixelScene.Scenario.Recording

/-!
# Running scenarios

A scenario is run from a fresh world: the entities that are there from the start are put into it,
unless the scenario says otherwise, and then it ticks once for every step (`run_fixture`).

* `Scenario.resolution`: the script of a scenario with everything that it imports. A script that is
  written into the scenario is called `main.msc` and imports from the files of the scenario only.
* `Scenario.record`: the recording of a run, and what was said on the way.

The world is started from the seed of the scenario, so two runs of a scenario are the same; which
numbers the seed leads to is a matter of the `Generator`.
-/

namespace PixelScene

/-! ## Scripts of scenarios -/

/-- Why a scenario cannot be run. -/
inductive ScenarioFault where
  | noScript
  | unreadable (path : String) (cause : FileFault)
deriving DecidableEq, Repr

namespace ScenarioFault

/-- The wording of a fault. -/
def message : ScenarioFault → String
  | noScript => "fixture needs either `script` or `source`"
  | unreadable path _ => s!"reading script '{path}'"

/-- The wordings of what lies behind a fault. -/
def causes : ScenarioFault → List String
  | noScript => []
  | unreadable _ cause => [cause.message]

end ScenarioFault

namespace Scenario

/-- The name of a script that is written into a scenario. -/
def inlineName : String := "main.msc"

/-- The files of a scenario that has its script written into it. -/
def inlineTree (s : Scenario) (source : String) : FileTree :=
  s.files.entries.foldl (fun t f => t.insert f.1 f.2) (FileTree.empty.insert inlineName source)

/-- The script of a scenario with its imports, where paths start at the folder of the scenario. -/
def resolution (s : Scenario) (d : Disk) (folder : String) : Except ScenarioFault Resolution :=
  match s.script, s.source with
  | some script, _ =>
    let path := FilePath.inside folder script
    match d.text path with
    | .ok text => .ok (resolve (d.tree (FilePath.folder path)) text (FilePath.name path))
    | .error cause => .error (.unreadable path cause)
  | none, some source => .ok (resolve (s.inlineTree source) source inlineName)
  | none, none => .error .noScript

/-! ## Steps -/

/-- A run between two steps. -/
structure Progress where
  world : World
  log : Log
  results : List StepRecord

/-- The name and the value of a watched variable; what names no variable has the value zero. -/
def watch (vars : Table Variable) (m : Memory) (name : String) : String × Float :=
  let key := match variableName? name.toList with
    | some cs => String.ofList cs
    | none => name
  (key, m.valueOf vars key)

/-- How a fault is recorded. -/
def faultText (f : Fault) : String := s!"{f.entity}.{f.component}: {f.cause.message}"

/-- A step of a run. -/
def step (s : Scenario) (sim : Simulation) (p : Progress) : Progress :=
  let number := p.world.ticks
  let (world, report) := sim.tick (s.heldAt number) s.geometry p.world
  let globals := Dictionary.ofList (s.watched.map (watch sim.script.globals world.memory))
  let result := ⟨number, report.fired, report.ticked, report.faults.map faultText, globals⟩
  ⟨world, p.log.noteReport report, result :: p.results⟩

/-! ## Runs -/

/-- A run before its first step. -/
def begin [Generator] (s : Scenario) (sim : Simulation) : Progress :=
  let world := World.start s.width s.height s.seed
  let log := Log.empty.add sim.setupLines
  if s.places then
    let (_, lines, world) := sim.spawnPlacements world
    ⟨world, log.add lines, []⟩
  else ⟨world, log, []⟩

/-- The recording of a scenario with its script, and what was said on the way. -/
def recordResolved [Generator] (s : Scenario) (r : Resolution) : Recording × List String :=
  let sim := Simulation.ofScript r.script Registry.builtins
  let p := Nat.repeat (s.step sim) s.steps (s.begin sim)
  let m := p.world.memory
  ({ steps := s.steps
     diagnostics := sim.diagnosticTexts
     importErrors := r.errors
     results := p.results.reverse
     entities := m.activeSlots.filterMap fun slot => (EntityRecord.ofSlot r.script m slot).toOption
     camera := p.world.camera }, p.log.lines)

/-- The recording of a scenario, and what was said on the way. -/
def record [Generator] (s : Scenario) (d : Disk) (folder : String) :
    Except ScenarioFault (Recording × List String) :=
  (s.resolution d folder).map s.recordResolved

end Scenario

end PixelScene
