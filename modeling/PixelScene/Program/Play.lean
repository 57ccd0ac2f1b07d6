import PixelScene.Json.Printer
import PixelScene.Program.Options
import PixelScene.Program.Session
import PixelScene.Simulation.Log

/-!
# The player

The player runs a script for a number of frames while nothing is held, and reports at intervals. At
the end it prints a summary, and may save the canvas with the memory under it.

* `Play.advance`: a frame of a run.
* `Play.run` runs the player on the words of its command line.

Where neither the settings nor an option give a seed, a number left to chance is the seed. A picture
is saved in one format only, by the ending of the path. An ending that names another format leaves
an empty file behind, as the library opens the file before it gives up.
-/

namespace PixelScene.Play

/-! ## Summaries -/

/-- What a run came to. -/
structure Summary where
  frames : Nat
  activeEntities : Nat
  firedEvents : Nat
  faults : Nat
  importErrors : Nat
  diagnostics : Nat
deriving DecidableEq, Repr

/-- A summary as JSON. -/
def Summary.toJson (s : Summary) : Json :=
  .object [("frames", .integer s.frames), ("activeEntities", .integer s.activeEntities),
    ("firedEvents", .integer s.firedEvents), ("faults", .integer s.faults),
    ("importErrors", .integer s.importErrors), ("diagnostics", .integer s.diagnostics)]

/-! ## Frames -/

/-- A run between two frames. -/
structure Progress where
  frames : Nat
  fired : Nat
  faults : Nat
  world : World
  log : Log
  reports : List String

/-- The report on a frame. -/
def frameLine (frame : Nat) (r : Report) : String :=
  s!"[engine] frame {frame}: {r.ticked} entities, {r.fired} events fired, "
    ++ s!"{r.faults.length} faults"

/-- Whether a frame is reported, when every `every`-th one is, and none when that is zero. -/
def isReported (every frame : Nat) : Bool := 0 < every && frame % every == 0

/-- A frame of a run. -/
def advance (s : Simulation) (geometry : Geometry) (every : Nat) (p : Progress) : Progress :=
  let (world, report) := s.tick Held.nothing geometry p.world
  let frame := p.frames + 1
  { frames := frame
    fired := p.fired + report.fired
    faults := p.faults + report.faults.length
    world := world
    log := p.log.noteReport report
    reports := if isReported every frame then frameLine frame report :: p.reports else p.reports }

/-! ## Files -/

/-- The settings of a run: those of a file, or those of a run without one. -/
def loadSettings : Option String → Session Settings
  | none => return Settings.default
  | some path => do
    let s ← Session.jsonFile path s!"Failed to read config file {path}"
      s!"Failed to parse config file {path}" Settings.ofJson?
    match s.fault? with
    | none => return s
    | some fault => Session.fail s!"Invalid config file {path}" [fault.message]

/-- The baked geometry of a file, or none at all. -/
def loadGeometry : Option String → Session Geometry
  | none => return Geometry.empty
  | some path =>
    Session.jsonFile path s!"Failed to read baked assets {path}"
      s!"Failed to parse baked assets {path}" Json.geometry?

/-- The endings of the names of pictures that can be written. -/
def writtenEndings : List String := ["png", "apng"]

/-- The endings of the names of pictures that are known, but cannot be written. -/
def knownEndings : List String :=
  ["avif", "jpg", "jpeg", "jfif", "gif", "webp", "tif", "tiff", "tga", "dds", "bmp", "ico", "hdr",
    "exr", "pbm", "pam", "ppm", "pgm", "ff", "qoi"]

/-- Writes a file. -/
def writeFile (path : String) (content : Content) : Session Unit := do
  let c ← get
  match c.disk.write? path content with
  | some disk => set { c with disk }
  | none => Session.fail s!"Failed to write cartridge {path}" [FileFault.missing.message]

/-- Writes a picture in the format that the ending of the path names. -/
def writePicture (path : String) (p : Picture) : Session Unit := do
  let ending := String.ofList (((FilePath.ending? path).getD "").toList.map Char.toLower)
  if writtenEndings.contains ending then writeFile path (.picture p)
  else
    if knownEndings.contains ending then writeFile path (.ofText "")
    Session.fail s!"Failed to write cartridge {path}" ["the format of the picture is not supported"]

/-- Saves the canvas of a world with its memory under it. -/
def save (path : String) (settings : Settings) (w : World) : Session Unit := do
  let (width, height) := (settings.width, settings.height)
  match Picture.ofMemory? w.memory width height with
  | none => Session.fail s!"state buffer does not match {width}x{height}" []
  | some canvas =>
    match Cartridge.pack canvas w.memory with
    | .error fault => Session.fail fault.message []
    | .ok cartridge =>
      writePicture path cartridge
      Session.say [s!"[engine] saved cartridge {path}"]

/-! ## The program -/

/-- Runs a script and gives the world at the end and the summary. -/
def perform [Generator] (script : String) (settings : Settings) (geometry : Geometry)
    (chance : Nat) : Session (World × Summary) := do
  match settings.fault? with
  | some fault => Session.fail fault.message []
  | none => pure ()
  let r ← Session.script script
  let s := Simulation.ofScript r.script Registry.builtins
  Session.note (s.setupLines ++ s.hostLines settings.bindings)
  let s := s.withHost settings.keyBindings
  let world := World.start settings.width settings.height (settings.seed.getD chance)
  let (placed, lines, world) := s.spawnPlacements world
  Session.note lines
  Session.say [s!"[engine] {script} loaded: {placed} instance(s) spawned"]
  let p := Nat.repeat (advance s geometry settings.reportEvery) settings.frames
    ⟨0, 0, 0, world, Log.empty, []⟩
  Session.note p.log.lines
  Session.say p.reports.reverse
  return (p.world, {
    frames := p.frames
    activeEntities := p.world.memory.activeSlots.length
    firedEvents := p.fired
    faults := p.faults
    importErrors := r.faults.length
    diagnostics := s.diagnostics.length })

/-- What is said when no script is given. -/
def usage : String :=
  "usage: msc_engine <script.msc> [--config <json>] [--assets <json>] [--save <png>] [--frames N]"

/-- Carries out the options of a command line. -/
def session [Generator] (o : Options) (chance : Nat) : Session Unit := do
  match o.script with
  | none => Session.fail usage []
  | some script =>
    let settings ← loadSettings o.config
    if !o.replacements.isEmpty then
      Session.note ["[cli] overriding " ++ ", ".intercalate o.replacements.names]
    let settings := settings.replace o.replacements
    let geometry ← loadGeometry o.assets
    let (world, summary) ← perform script settings geometry chance
    Session.say [summary.toJson.prettyText]
    match o.save with
    | some path => save path settings world
    | none => pure ()

/-- Runs the player; `chance` is the seed of a run that has none of its own. -/
def run [Generator] (words : List String) (chance : Nat) (disk : Disk) : Outcome :=
  match Options.parse words with
  | .error fault => ⟨2, (Console.start disk).note [s!"[cli] {fault.message}"]⟩
  | .ok options => (session options chance).finish "Application error: " (Console.start disk)

end PixelScene.Play
