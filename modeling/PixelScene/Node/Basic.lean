import PixelScene.Number.Shortest
import PixelScene.Text.Blank

/-!
# Nodes

A script is read into a tree of nodes before anything in it is given a meaning. Mappings keep the
order of their entries and entries with equal keys, since a statement may be repeated.

* `Node.scalar` is the type of a bare word: a fixed word, a number, or else text.
* `Node.asNumber?`, `Node.asFlag?`, `Node.asText?` are the readings that statements ask for.

A bare word is a number only if it starts like one, with a digit or a point after its signs, and is
finite. A text that a statement wants to have as a number is read more freely: `inf` and `nan` count
then. Both are in the engine (`scalar`, `as_f64`), and statements that bound a number have to live
with the difference.
-/

namespace PixelScene

/-- A value in a script. -/
inductive Node where
  | null
  | bool (b : Bool)
  | number (x : Float)
  | text (s : String)
  | list (items : List Node)
  | map (entries : List (String × Node))

namespace Node

instance : Inhabited Node := ⟨null⟩

/-! ## Bare words -/

/-- Whether a word begins like a number: signs, and then a digit or a point. -/
def looksNumeric (cs : List Char) : Bool :=
  match cs.dropWhile fun c => c == '-' || c == '+' with
  | c :: _ => Number.isDigit c || c == '.'
  | [] => false

/-- A word that is no fixed word: a finite number if it reads as one, else text. -/
def numberOrText (cs : List Char) : Node :=
  match Number.number? cs with
  | some x =>
    if looksNumeric cs && (Number.exact x).isFinite then number x else text (String.ofList cs)
  | none => text (String.ofList cs)

/-- The node that a bare word stands for. -/
def scalar (cs : List Char) : Node :=
  if cs = [] ∨ cs = "null".toList ∨ cs = "~".toList then null
  else if cs = "true".toList then bool true
  else if cs = "false".toList then bool false
  else numberOrText cs

/-! ## Readings -/

/-- The text of a text node. -/
def text? : Node → Option String
  | text s => some s
  | _ => none

/-- A number, or a text that spells one. -/
def asNumber? : Node → Option Float
  | number x => some x
  | text s => Number.number? (Text.trim s.toList)
  | _ => none

/-- A boolean, or a number that is zero or not. -/
def asFlag? : Node → Option Bool
  | bool b => some b
  | number x => some (x != 0)
  | _ => none

/-- A text, or the text of a number or a boolean. -/
def asText? : Node → Option String
  | text s => some s
  | number x => some (Number.scriptText x)
  | bool b => some (if b then "true" else "false")
  | _ => none

/-- The entries of a mapping. -/
def entries? : Node → Option (List (String × Node))
  | map entries => some entries
  | _ => none

/-- The first value under a key of a mapping. -/
def get? (key : String) : Node → Option Node
  | map entries => entries.lookup key
  | _ => none

/-- The word for the kind of a node in messages. -/
def kind : Node → String
  | null => "null"
  | bool _ => "boolean"
  | number _ => "number"
  | text _ => "text"
  | list _ => "list"
  | map _ => "object"

end Node

/-! ## Errors of reading -/

/-- What can be wrong with the layout of a script or with a value in it. -/
inductive ReadFault where
  | itemInMapping
  | notAnEntry (line : String)
  | entryInList
  | inconsistentIndentation
  | dedentBelowTop
  | trailingText (value : String)
  | unterminatedValue
  | unterminatedString
  | unterminatedObject
  | unterminatedList
  | emptyKey
  | missingColon
  | badObjectSeparator
  | badListSeparator
deriving DecidableEq, Repr

namespace ReadFault

/-- The wording of a fault. -/
def text : ReadFault → String
  | itemInMapping => "list item inside a mapping"
  | notAnEntry line => s!"expected `key: value`, found `{line}`"
  | entryInList => "mapping entry inside a list"
  | inconsistentIndentation => "inconsistent indentation"
  | dedentBelowTop => "unexpected dedent below the top level"
  | trailingText value => s!"unexpected trailing text after value: `{value}`"
  | unterminatedValue => "unterminated value"
  | unterminatedString => "unterminated string"
  | unterminatedObject => "unterminated '\x7b'"
  | unterminatedList => "unterminated '['"
  | emptyKey => "empty key in inline object"
  | missingColon => "expected ':'"
  | badObjectSeparator => "expected ',' or '\x7d' in inline object"
  | badListSeparator => "expected ',' or ']' in inline list"

end ReadFault

/-- A fault and the number of the line where it was met, counted from one. -/
structure ReadError where
  line : Nat
  fault : ReadFault
deriving DecidableEq, Repr

namespace ReadError

/-- The wording of an error, with its line in front. -/
def message (e : ReadError) : String := s!"line {e.line}: {e.fault.text}"

end ReadError

end PixelScene
