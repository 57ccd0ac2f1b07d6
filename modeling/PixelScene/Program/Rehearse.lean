import PixelScene.Program.Session
import PixelScene.Scenario.Run

/-!
# Rehearsals

The rehearser runs scenarios. It prints their recordings, or keeps them beside the scenarios
(`--bless`), or compares them with those that were kept (`--check`).

* `Rehearse.scenarioPaths`: the scenarios that the words of a command line mean. A folder stands for
  the scenarios in it, in the order of their names.
* `Rehearse.rehearse`: what is done with one scenario. `Rehearse.goldenPath` is where its recording
  is kept.
* `Rehearse.run` runs the rehearser on the words of its command line.

A recording is kept as JSON and compared by value after it was read back, not as text. A scenario
that cannot be run ends the session, and those after it are not run.
-/

namespace PixelScene.Rehearse

/-! ## Command lines -/

/-- What is done with the recordings. -/
inductive Mode where
  | print
  | check
  | bless
deriving DecidableEq, Repr

/-- What the words of a command line ask for. -/
inductive Request where
  | help
  | rehearse (mode : Mode) (targets : List String)
deriving DecidableEq, Repr

/-- Why the words of a command line ask for nothing. -/
inductive RequestFault where
  | unknownFlag (word : String)
  | noTarget
deriving DecidableEq, Repr

/-- The wording of a fault. -/
def RequestFault.message : RequestFault → String
  | unknownFlag word => s!"unknown argument '{word}'"
  | noTarget => "at least one fixture file or directory is required"

/-- Reads words from left to right; the first call for help ends the reading. -/
def Request.extend (mode : Mode) (targets : List String) :
    List String → Except RequestFault Request
  | [] => if targets.isEmpty then .error .noTarget else .ok (.rehearse mode targets)
  | word :: more =>
    if word = "--check" ∨ word = "-c" then extend .check targets more
    else if word = "--bless" ∨ word = "-b" then extend .bless targets more
    else if word = "--help" ∨ word = "-h" then .ok .help
    else if word.toList.head? = some '-' then .error (.unknownFlag word)
    else extend mode (targets ++ [word]) more

/-- What the words of a command line ask for. -/
def Request.parse (words : List String) : Except RequestFault Request := extend .print [] words

/-- What is said about the command line. -/
def usage : List String :=
  ["Usage: msc_harness [--check | --bless] <fixture.json | dir>...",
    "  (default)      Print the output JSON of each fixture",
    "  -c, --check    Compare each fixture with its sibling <name>.golden.json",
    "  -b, --bless    Rewrite the sibling golden files from the current output"]

/-! ## Files -/

/-- Whether a file of a folder is a scenario, by its name. -/
def isScenarioName (name : String) : Bool :=
  let reversed := name.toList.reverse
  ".json".toList.reverse.isPrefixOf reversed && !(".golden.json".toList.reverse.isPrefixOf reversed)

/-- Where the recording of a scenario is kept. -/
def goldenPath (path : String) : String := FilePath.withEnding path "golden.json"

/-- The scenarios that some targets mean: a folder stands for those right in it. -/
def scenarioPaths (d : Disk) (targets : List String) : List String :=
  targets.flatMap fun target =>
    if d.isFolder target then
      ((d.filesIn target).filter isScenarioName).map (FilePath.inside target)
    else [target]

/-! ## Rehearsing -/

/-- The value of a JSON file; a folder can be opened, but holds none. -/
def readJson {α : Type} (path unopened malformed : String) (read : Json → Option α) :
    Session α := do
  if (← get).disk.contains path then Session.jsonFile path malformed malformed read
  else Session.fail unopened [FileFault.missing.message]

/-- The recording of the scenario in a file. -/
def record [Generator] (path : String) : Session Recording := do
  let s ← readJson path s!"opening fixture '{path}'" "parsing fixture JSON" Scenario.ofJson?
  match s.record (← get).disk (FilePath.folder path) with
  | .ok (recording, lines) =>
    Session.note lines
    return recording
  | .error fault => Session.fail s!"running {path}" (fault.message :: fault.causes)

/-- Keeps a recording in a file. -/
def keep (golden : String) (recording : Recording) : Session Unit := do
  let c ← get
  match c.disk.write? golden (.ofText recording.toJson.prettyText) with
  | some disk =>
    set { c with disk }
    Session.say [s!"[harness] blessed {golden}"]
  | none => Session.fail s!"writing golden '{golden}'" [FileFault.folder.message]

/-- Compares a recording with the one that was kept, and tells whether they are equal. -/
def compare (path golden : String) (actual : Recording) : Session Bool := do
  let expected ← readJson golden s!"opening golden '{golden}'" s!"parsing golden '{golden}'"
    Recording.ofJson?
  match expected.difference? actual with
  | none =>
    Session.say [s!"[harness] ok {path}"]
    return true
  | some difference =>
    Session.say [s!"[harness] MISMATCH {path}: {difference.message}"]
    return false

/-- Rehearses the scenario in a file, and tells whether it came out as it should. -/
def rehearse [Generator] (mode : Mode) (path : String) : Session Bool := do
  let recording ← record path
  match mode with
  | .print =>
    Session.say [recording.toJson.prettyText]
    return true
  | .bless =>
    keep (goldenPath path) recording
    return true
  | .check => compare path (goldenPath path) recording

/-- Rehearses scenarios one after the other, and counts those that did not come out right. -/
def rehearseAll [Generator] (mode : Mode) : List String → Session Nat
  | [] => return 0
  | path :: more => do
    let right ← rehearse mode path
    let wrong ← rehearseAll mode more
    return if right then wrong else wrong + 1

/-! ## The program -/

/-- Carries out what a command line asks for. -/
def session [Generator] : Request → Session Unit
  | .help => Session.say usage
  | .rehearse mode targets => do
    let paths := scenarioPaths (← get).disk targets
    if paths.isEmpty then
      Session.fail ("no fixtures found under " ++ ", ".intercalate targets) []
    let wrong ← rehearseAll mode paths
    if wrong > 0 then
      Session.fail (s!"{wrong} of {paths.length} fixture(s) differ from their goldens "
        ++ "(rerun with --bless to refresh)") []

/-- Runs the rehearser. -/
def run [Generator] (words : List String) (disk : Disk) : Outcome :=
  let s : Session Unit := match Request.parse words with
    | .ok request => session request
    | .error fault => Session.fail fault.message []
  s.finish "[harness] error: " (Console.start disk)

end PixelScene.Rehearse
