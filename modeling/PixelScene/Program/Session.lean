import PixelScene.Disk

/-!
# Sessions

A program is a session with a disk and two streams of text, one for results and one for notes. A
failure ends the session and keeps what was written before it.

* `Session.finish` runs a session and tells how it ended.
* `Failure.report`: the wording of a failure with everything that lies behind it.
* `Session.script`: a script of the disk with everything that it imports (`resolve_file`).

What the system or a library says about a file is not reproduced word for word: a failure has the
message of the program, and behind it a cause of ours.
-/

namespace PixelScene

/-! ## Failures -/

/-- Why a program ends early, and what lies behind it. -/
structure Failure where
  message : String
  causes : List String
deriving DecidableEq, Repr

namespace Failure

/-- A failure with nothing behind it. -/
def plain (message : String) : Failure := ⟨message, []⟩

/-- Causes, one on each line, with numbers when there are several. -/
def causeLines : List String → String
  | [cause] => s!"\n    {cause}"
  | causes => String.join (causes.zipIdx.map fun c => s!"\n    {c.2}: {c.1}")

/-- The wording of a failure with its causes. -/
def report (f : Failure) : String :=
  if f.causes.isEmpty then f.message
  else f.message ++ "\n\nCaused by:" ++ causeLines f.causes

end Failure

/-! ## Sessions -/

/-- What a program sees and changes. -/
structure Console where
  disk : Disk
  results : String
  notes : String
deriving Inhabited

namespace Console

/-- The console of a program that starts. -/
def start (disk : Disk) : Console := ⟨disk, "", ""⟩

/-- Adds lines to the notes. -/
def note (c : Console) (lines : List String) : Console :=
  { c with notes := c.notes ++ String.join (lines.map (· ++ "\n")) }

end Console

/-- A program, or a part of one. -/
abbrev Session (α : Type) := EStateM Failure Console α

namespace Session

/-- Writes lines to the results. -/
def say (lines : List String) : Session Unit :=
  modify fun c => { c with results := c.results ++ String.join (lines.map (· ++ "\n")) }

/-- Writes lines to the notes. -/
def note (lines : List String) : Session Unit := modify (·.note lines)

/-- Ends the session. -/
def fail {α : Type} (message : String) (causes : List String) : Session α :=
  throw ⟨message, causes⟩

/-- What lies behind a file that does not hold what it should. -/
def malformed : String := "the file is malformed"

/-- The value that a JSON file stands for; it fails with one message for a file that is not there,
and with another for one that does not hold such a value. -/
def jsonFile {α : Type} (path unopened malformed : String) (read : Json → Option α) :
    Session α := do
  let disk := (← get).disk
  match disk.file? path with
  | none => fail unopened [(if disk.isFolder path then FileFault.folder else .missing).message]
  | some _ =>
    match (disk.json? path).bind read with
    | some a => return a
    | none => fail malformed [Session.malformed]

/-- The script of a file with everything that it imports; problems go to the notes. -/
def script (path : String) : Session Resolution := do
  let disk := (← get).disk
  match disk.text path with
  | .error cause => fail s!"reading script {path}" [cause.message]
  | .ok text =>
    let r := resolve (disk.tree (FilePath.folder path)) text (FilePath.name path)
    note (r.errors.map ("[imports] " ++ ·))
    return r

end Session

/-! ## Outcomes -/

/-- How a program ended: its exit code and what is on the console. -/
structure Outcome where
  code : Nat
  console : Console
deriving Inhabited

/-- Runs a session; a failure is noted after a label. -/
def Session.finish (s : Session Unit) (label : String) (c : Console) : Outcome :=
  match s c with
  | .ok _ c => ⟨0, c⟩
  | .error f c => ⟨1, c.note [label ++ f.report]⟩

end PixelScene
