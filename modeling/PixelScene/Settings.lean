import PixelScene.Input
import PixelScene.Json.Decode
import PixelScene.Json.Reader
import PixelScene.Memory.Region

/-!
# Settings

The settings of a run come from a JSON file with three sections, and single settings may be replaced
on the command line (`EngineConfig`, `EngineConfigOverrides`). The canvas must hold every region of
the memory.

* `Settings.parse?` reads a file, `Settings.fault?` says what makes settings unusable.
* `Settings.replace` lays replacements over settings.

The number of bytes of a canvas is a natural number here. The engine multiplies in 64 bits, which
two sides of 32 bits can exceed, but no host can allot such a canvas. Reading the file itself is
left to the player.
-/

namespace PixelScene

/-- The settings of a run. -/
structure Settings where
  width : Nat
  height : Nat
  frames : Nat
  seed : Option Nat
  reportEvery : Nat
  bindings : Dictionary (List String)

/-- Settings that replace those of a file. -/
structure Replacements where
  width : Option Nat
  height : Option Nat
  frames : Option Nat
  seed : Option Nat
deriving DecidableEq, Repr

/-- Why settings cannot be used. -/
inductive SettingsFault where
  | emptyCanvas (width height : Nat)
  | smallCanvas (width height bytes : Nat)
deriving DecidableEq, Repr

/-- The wording of a fault. -/
def SettingsFault.message : SettingsFault → String
  | emptyCanvas width height => s!"state dimensions must be non-zero, got {width}x{height}"
  | smallCanvas width height bytes =>
    s!"state {width}x{height} holds {bytes} bytes; the memory layout needs at least {layoutBytes}"

namespace Settings

/-- The settings of a run that has none of its own. -/
def default : Settings := ⟨defaultSide, defaultSide, 600, none, 60, ∅⟩

instance : Inhabited Settings := ⟨default⟩

/-- The bytes of the canvas. -/
def bytes (s : Settings) : Nat := s.width * s.height * pixelBytes

/-- What makes settings unusable. -/
def fault? (s : Settings) : Option SettingsFault :=
  if s.width = 0 ∨ s.height = 0 then some (.emptyCanvas s.width s.height)
  else if s.bytes < layoutBytes then some (.smallCanvas s.width s.height s.bytes)
  else none

/-- The key bindings. -/
def keyBindings (s : Settings) : KeyBindings :=
  KeyBindings.ofPairs (KeyBindings.pairsOfActions s.bindings)

/-- Settings with some of them replaced. -/
def replace (s : Settings) (r : Replacements) : Settings :=
  { s with
    width := r.width.getD s.width
    height := r.height.getD s.height
    frames := r.frames.getD s.frames
    seed := r.seed.or s.seed }

/-! ## Reading -/

/-- Reads the section on the canvas. -/
def readCanvas (s : Settings) (v : Json) : Option Settings := do
  match ← Json.record? ["width", "height"] v with
  | [width, height] =>
    let width ← Json.orElse? (Json.nat? Json.word32) s.width width
    let height ← Json.orElse? (Json.nat? Json.word32) s.height height
    return { s with width, height }
  | _ => none

/-- Reads the section on the run. -/
def readRun (s : Settings) (v : Json) : Option Settings := do
  match ← Json.record? ["frames", "seed", "report_every"] v with
  | [frames, seed, every] =>
    let frames ← Json.orElse? (Json.nat? Json.word32) s.frames frames
    let seed ← Json.orElse? (Json.optional? (Json.nat? Json.word64)) s.seed seed
    let reportEvery ← Json.orElse? (Json.nat? Json.word32) s.reportEvery every
    return { s with frames, seed, reportEvery }
  | _ => none

/-- Reads the section on input. -/
def readInput (s : Settings) (v : Json) : Option Settings := do
  match ← Json.record? ["bindings"] v with
  | [bindings] =>
    let bindings ← Json.orElse? (Json.dictionary? (Json.listOf? Json.text?)) s.bindings bindings
    return { s with bindings }
  | _ => none

/-- The settings of a JSON value. -/
def ofJson? (v : Json) : Option Settings := do
  match ← Json.record? ["state", "runner", "input"] v with
  | [canvas, run, input] =>
    let s ← Json.orElse? (readCanvas default) default canvas
    let s ← Json.orElse? (readRun s) s run
    Json.orElse? (readInput s) s input
  | _ => none

/-- The settings of a JSON text. -/
def parse? (cs : List Char) : Option Settings := (Json.parse? cs).bind ofJson?

end Settings

namespace Replacements

/-- Nothing is replaced. -/
def isEmpty (r : Replacements) : Bool :=
  r.width.isNone && r.height.isNone && r.frames.isNone && r.seed.isNone

/-- The names of the settings that are replaced. -/
def names (r : Replacements) : List String :=
  (if r.width.isSome then ["width"] else []) ++ (if r.height.isSome then ["height"] else [])
    ++ (if r.frames.isSome then ["frames"] else []) ++ (if r.seed.isSome then ["seed"] else [])

end Replacements

end PixelScene
