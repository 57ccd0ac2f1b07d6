import PixelScene.Table

/-!
# JSON values

Configuration files, baked geometry, fixtures and reports are JSON. Whole numbers and numbers with a
fraction or an exponent are kept apart, since a field that counts something accepts the former only.
The fields of an object keep their order and may repeat: which of two fields with one name counts is
decided where a record is read.

The engine leaves JSON to a library. This and the following modules are what the engine relies on of
it: the grammar (`PixelScene.Json.Reader`), the fields of records (`PixelScene.Json.Decode`) and the
form in which values are written (`PixelScene.Json.Printer`).
-/

namespace PixelScene

/-- A JSON value. A `single` is a number that is written with single precision. -/
inductive Json where
  | null
  | bool (b : Bool)
  | integer (n : Int)
  | real (x : Float)
  | single (x : Float32)
  | text (s : String)
  | list (items : List Json)
  | object (fields : List (String × Json))

namespace Json

instance : Inhabited Json := ⟨null⟩

/-- The value of the first field of an object with a given name. -/
def field? (name : String) : Json → Option Json
  | object fields => fields.lookup name
  | _ => none

/-- The text of a string value. -/
def text? : Json → Option String
  | text s => some s
  | _ => none

end Json

/-- The properties of a component, by name. -/
abbrev Properties := Dictionary Json

end PixelScene
