import PixelScene.Json.Basic
import PixelScene.Geometry

/-!
# Records out of JSON

How the fields of a record are found in a JSON value, and what each kind of field accepts. A record
may be given as an object, in which unknown fields are skipped and a known one may not repeat, or as
a list of its fields in order, which may leave out fields at the end.

* `record?` finds the fields, `orElse?` and `needed?` read one that may be missing and one that may
  not.
* `nat?`, `int?`, `double?` and their like accept what fits the field: a count has to be a whole
  number within its bound, a number in single precision is rounded.

These are the rules that the library derives for the records of the engine. What it says of a value
that it refuses is left out, as the engine only passes it on.
-/

namespace PixelScene.Json

/-! ## Fields of records -/

/-- The values of a record's fields, `none` for a missing one; a malformed record has none. -/
def record? (names : List String) : Json → Option (List (Option Json))
  | object fields => names.mapM fun name =>
    match (fields.filter (·.1 == name)).map Prod.snd with
    | [] => some none
    | [v] => some (some v)
    | _ => none
  | list items =>
    if names.length < items.length then none
    else some (items.map some ++ List.replicate (names.length - items.length) none)
  | _ => none

/-- The value of a field that may be missing. -/
def orElse? {α : Type} (read : Json → Option α) (default : α) : Option Json → Option α
  | some v => read v
  | none => some default

/-- The value of a field that may not be missing. -/
def needed? {α : Type} (read : Json → Option α) (field : Option Json) : Option α :=
  field.bind read

/-! ## Kinds of values -/

/-- A whole number from zero to a bound. -/
def nat? (high : Nat) : Json → Option Nat
  | integer n => if 0 ≤ n ∧ n ≤ high then some n.toNat else none
  | _ => none

/-- A whole number between two bounds. -/
def int? (low high : Int) : Json → Option Int
  | integer n => if low ≤ n ∧ n ≤ high then some n else none
  | _ => none

/-- The greatest number in a field of 32 bits. -/
def word32 : Nat := Number.twoTo 32 - 1

/-- The greatest number in a field of 64 bits. -/
def word64 : Nat := Number.twoTo 64 - 1

/-- A truth value. -/
def bool? : Json → Option Bool
  | bool b => some b
  | _ => none

/-- A number in double precision; one too large for it is refused. -/
def double? : Json → Option Float
  | integer n => some (Number.ofInt n)
  | real x => if (Number.exact x).isFinite then some x else none
  | _ => none

/-- A number in single precision; one too large for double precision is refused. -/
def single? : Json → Option Float32
  | integer n => some (Number.singleOfInt n)
  | real x => if (Number.exact x).isFinite then some (Number.narrow x) else none
  | _ => none

/-- A value that may be null. -/
def optional? {α : Type} (read : Json → Option α) : Json → Option (Option α)
  | null => some none
  | v => (read v).map some

/-- A list of values. -/
def listOf? {α : Type} (read : Json → Option α) : Json → Option (List α)
  | list items => items.mapM read
  | _ => none

/-- A list of a fixed number of values. -/
def tuple? {α : Type} (size : Nat) (read : Json → Option α) (v : Json) : Option (List α) :=
  (listOf? read v).filter (·.length == size)

/-- An object of values; the last value of a repeated field counts. -/
def dictionary? {α : Type} (read : Json → Option α) : Json → Option (Dictionary α)
  | object fields => do
    return Dictionary.ofList (← fields.mapM fun f => do return (f.1, ← read f.2))
  | _ => none

/-! ## Geometry -/

/-- A point as a list of its two coordinates. -/
def point? (v : Json) : Option Point := do
  match ← tuple? 2 single? v with
  | [x, y] => return ⟨x, y⟩
  | _ => none

/-- Baked geometry: polygons and paths, both of which may be missing. -/
def geometry? (v : Json) : Option Geometry := do
  let lines := listOf? (listOf? point?)
  match ← record? ["collisionPolygons", "bezierPaths"] v with
  | [polygons, paths] => return ⟨← orElse? lines [] polygons, ← orElse? lines [] paths⟩
  | _ => none

end PixelScene.Json
