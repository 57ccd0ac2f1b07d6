import PixelScene.Memory.Basic
import PixelScene.Number.Binary
import PixelScene.Text.Blank

/-!
# Typed cells

A variable of a script has an address and a storage type (`VarType`). Reading gives the number that
the bytes stand for; writing rounds to the nearest integer, halves away from zero. One byte
saturates, the wider types keep the low bits (`read_var`, `write_var`).

* `Storage.decode`, `Storage.encode` are the two directions, on numbers rather than bytes.
* `Memory.fetchInt`, `Edit.storeInt`: one cell of a memory, by address and type.
* The shake of the camera is two signed cells at the end of the globals, which are written together
  or not at all (`set_camera_shake`).

For the wider types a double becomes an integer of 64 bits first, and zero if it is not finite, so a
number that is too large for that is cut before its low bits are taken. One byte takes infinity for
255.
-/

namespace PixelScene

/-- How a variable is stored. -/
inductive Storage where
  | int8
  | int16
  | signedInt16
  | int24
deriving DecidableEq, Repr

namespace Storage

/-- The number of bytes. -/
def width : Storage → Nat
  | int8 => 1
  | int16 | signedInt16 => 2
  | int24 => 3

/-- The name in documents. -/
def name : Storage → String
  | int8 => "Int8"
  | int16 => "Int16"
  | signedInt16 => "SignedInt16"
  | int24 => "Int24"

/-- The names that scripts may use for a storage type, in lower case. -/
def aliases : Storage → List String
  | int8 => ["int8", "u8", "byte"]
  | int16 => ["int16", "u16"]
  | signedInt16 => ["signedint16", "sint16", "int16s", "i16"]
  | int24 => ["int24", "u24"]

/-- The storage types. -/
def all : List Storage := [int8, int16, signedInt16, int24]

/-- The storage type with a given name, in any case of its ASCII letters. -/
def ofName? (cs : List Char) : Option Storage :=
  let name := String.ofList ((Text.trim cs).map Char.toLower)
  all.find? fun t => t.aliases.contains name

/-- The integer that the bytes of a cell stand for. -/
def decode (t : Storage) (raw : Nat) : Int :=
  match t with
  | signedInt16 => if raw < Number.twoTo 15 then raw else (raw : Int) - Number.twoTo 16
  | _ => raw

/-- What an integer becomes in a cell: one byte saturates, the wider types keep the low bits. -/
def encode (t : Storage) (value : Int) : Nat :=
  match t with
  | int8 => (Number.clamp 0 255 value).toNat
  | _ => (value % Number.twoTo (8 * t.width)).toNat

/-- The integer that a number is rounded to before it is stored. -/
def rounded (t : Storage) (x : Float) : Int :=
  match t with
  | int8 => (Number.exact x).round 0 255
  | _ => Number.roundFinite x

end Storage

namespace Memory

/-- The integer in a cell. -/
def fetchInt (m : Memory) (t : Storage) (address : Nat) : Except AccessError Int := do
  return t.decode (← m.fetch address t.width)

/-- The number in a cell. -/
def fetchNumber (m : Memory) (t : Storage) (address : Nat) : Except AccessError Float := do
  return Number.ofInt (← m.fetchInt t address)

end Memory

namespace Edit

/-- Writes an integer to a cell. -/
def storeInt (t : Storage) (address : Nat) (value : Int) : Edit Unit :=
  store address t.width (t.encode value)

/-- Rounds a number and writes it to a cell. -/
def storeNumber (t : Storage) (address : Nat) (x : Float) : Edit Unit :=
  storeInt t address (t.rounded x)

end Edit

/-! ## The shake of the camera -/

/-- The address of the horizontal shake. -/
def shakeX : Nat := 508

/-- The address of the vertical shake. -/
def shakeY : Nat := 510

namespace Memory

/-- The shake of the camera. -/
def shake (m : Memory) : Except AccessError (Int × Int) := do
  let x ← m.fetchInt .signedInt16 shakeX
  let y ← m.fetchInt .signedInt16 shakeY
  return (x, y)

end Memory

namespace Edit

/-- Sets the shake of the camera, if both cells are in the memory. -/
def setShake (x y : Int) : Edit Unit := do
  read (·.checkRegion .globals shakeX 2)
  read (·.checkRegion .globals shakeY 2)
  storeInt .signedInt16 shakeX x
  storeInt .signedInt16 shakeY y

end Edit

end PixelScene
