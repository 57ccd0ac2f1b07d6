import PixelScene.Geometry
import PixelScene.Json.Reader
import PixelScene.Text.Blank

/-!
# The camera and its colours

What the host needs to know to draw a frame: where the camera stands, how far it zooms and shakes,
and the tint over the picture (`CameraState`, with `target_for` and `follow`, and the readers
`parse_hex_rgb` and `parse_tint`). All of it is in single precision, and nothing keeps a zoom or a
position finite: a script may ask for a zoom that is no number.

* `Colour.parse?`: three or six hexadecimal digits, with or without `#`. `Tint.parse` is white where
  that fails.
* `Camera.follow`: a share of the way to a target, and never more than all of it.

Drawing is left out. The part that the shake of the camera has in the memory is in
`PixelScene.Memory.Storage`.
-/

namespace PixelScene

/-! ## Colours -/

/-- A colour without transparency. -/
structure Colour where
  red : UInt8
  green : UInt8
  blue : UInt8
deriving DecidableEq, Repr

namespace Colour

/-- The digits of a colour, three or six, after the `#` that may stand in front. -/
def ofDigits? : List Nat → Option Colour
  | [r, g, b] => some ⟨UInt8.ofNat (r * 17), UInt8.ofNat (g * 17), UInt8.ofNat (b * 17)⟩
  | [r, r', g, g', b, b'] =>
    some ⟨UInt8.ofNat (r * 16 + r'), UInt8.ofNat (g * 16 + g'), UInt8.ofNat (b * 16 + b')⟩
  | _ => none

/-- The colour that a text such as `#fA0` or `ff8000` names. -/
def parse? (cs : List Char) : Option Colour :=
  ((Text.dropFront ['#'] (Text.trim cs)).mapM Json.hexValue?).bind ofDigits?

end Colour

/-- A colour with transparency, each part from zero to one. -/
structure Tint where
  red : Float32
  green : Float32
  blue : Float32
  alpha : Float32
deriving BEq

namespace Tint

/-- No tint. -/
def white : Tint := ⟨1, 1, 1, 1⟩

/-- The share of a colour part. -/
def share (part : UInt8) : Float32 := part.toFloat32 / 255

/-- The opaque tint that a text names; anything that names no colour is white. -/
def parse (cs : List Char) : Tint :=
  match Colour.parse? cs with
  | some c => ⟨share c.red, share c.green, share c.blue, 1⟩
  | none => white

/-- The parts in order. -/
def parts (t : Tint) : List Float32 := [t.red, t.green, t.blue, t.alpha]

end Tint

/-! ## The camera -/

/-- How the host draws the canvas. -/
structure Camera where
  position : Point
  zoom : Float32
  shake : Float32
  tint : Tint
deriving BEq

namespace Camera

/-- The camera before any script moves it. -/
def start : Camera := ⟨Point.zero, 1, 0, Tint.white⟩

instance : Inhabited Camera := ⟨start⟩

/-- Where the camera has to stand so that `focus` is in the middle of a view of size `view`. -/
def targetFor (c : Camera) (focus view : Point) : Point :=
  let zoom := if 0 < c.zoom then c.zoom else 1
  focus.sub (view.shrink (2 * zoom))

/-- A share of a way, held between zero and one. -/
def clampShare (t : Float32) : Float32 := if t < 0 then 0 else if 1 < t then 1 else t

/-- Moves a share of the way to a target. -/
def follow (c : Camera) (target : Point) (speed : Float32) : Camera :=
  { c with position := c.position.lerp target (clampShare speed) }

end Camera

end PixelScene
