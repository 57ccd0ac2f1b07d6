import PixelScene.Json.Basic
import PixelScene.Number.Shortest

/-!
# Writing JSON

`compact` writes a value on one line without blanks; `pretty` writes each item and field on a line
of its own, two spaces deeper than what holds it. Numbers have the fewest digits that read back, and
what is not a finite number is written as `null`.

The last rule makes writing lossy: a `null` is not read back as a number. Keys are written as they
are given, in their order, and text is escaped only where the grammar asks for it.
-/

namespace PixelScene.Json

/-! ## Leaves -/

/-- A hexadecimal digit. -/
def hexDigit (n : Nat) : Char := (Nat.digitChar (n % 16))

/-- How a character is written inside quotes. -/
def escape (c : Char) : List Char :=
  if c = '"' then ['\\', '"']
  else if c = '\\' then ['\\', '\\']
  else if c = '\n' then ['\\', 'n']
  else if c = '\r' then ['\\', 'r']
  else if c = '\t' then ['\\', 't']
  else if c.toNat = 8 then ['\\', 'b']
  else if c.toNat = 12 then ['\\', 'f']
  else if c.toNat < 0x20 then ['\\', 'u', '0', '0', hexDigit (c.toNat / 16), hexDigit c.toNat]
  else [c]

/-- A text in quotes. -/
def quote (s : String) : List Char := '"' :: (s.toList.flatMap escape ++ ['"'])

/-- Doubles from 0.00001 up to below 10 ^ 16 are written positionally, always with a point. -/
def doubleStyle : Number.DecimalStyle := ⟨some (-5), some 15, true, .even⟩

/-- Singles from 0.000001 up to below 10 ^ 13 are written positionally, always with a point. -/
def singleStyle : Number.DecimalStyle := ⟨some (-6), some 12, true, .even⟩

/-- The text of a number in a format, `null` when it is not finite. -/
def numberText (style : Number.DecimalStyle) (f : Number.BinaryFormat) : Number.Exact → List Char
  | .finite negative m e => style.writeFinite f negative m e
  | _ => "null".toList

/-- The text of an integer. -/
def integerText (n : Int) : List Char :=
  if n < 0 then '-' :: Number.natDigits n.natAbs else Number.natDigits n.natAbs

/-- The text of a value that is neither a list nor an object. -/
def leaf : Json → List Char
  | null => "null".toList
  | bool b => (if b then "true" else "false").toList
  | integer n => integerText n
  | real x => numberText doubleStyle Number.double (Number.exact x)
  | single x => numberText singleStyle Number.single (Number.exactSingle x)
  | text s => quote s
  | list _ => []
  | object _ => []

/-! ## Layouts -/

mutual

/-- A value on one line. -/
def compact : Json → List Char
  | list items => '[' :: (compactItems items ++ [']'])
  | object fields => '{' :: (compactFields fields ++ ['}'])
  | v => leaf v

/-- Items between commas. -/
def compactItems : List Json → List Char
  | [] => []
  | [v] => compact v
  | v :: vs => compact v ++ ',' :: compactItems vs

/-- Fields between commas. -/
def compactFields : List (String × Json) → List Char
  | [] => []
  | [(k, v)] => quote k ++ ':' :: compact v
  | (k, v) :: fs => quote k ++ ':' :: (compact v ++ ',' :: compactFields fs)

end

/-- A line break and the indentation of a level. -/
def newLine (level : Nat) : List Char := '\n' :: List.replicate (2 * level) ' '

mutual

/-- A value over several lines, inside `level` lists and objects. -/
def pretty (level : Nat) : Json → List Char
  | list [] => ['[', ']']
  | list items => '[' :: (prettyItems (level + 1) items ++ newLine level ++ [']'])
  | object [] => ['{', '}']
  | object fields => '{' :: (prettyFields (level + 1) fields ++ newLine level ++ ['}'])
  | v => leaf v

/-- Items, each on a line of its own. -/
def prettyItems (level : Nat) : List Json → List Char
  | [] => []
  | [v] => newLine level ++ pretty level v
  | v :: vs => newLine level ++ pretty level v ++ ',' :: prettyItems level vs

/-- Fields, each on a line of its own. -/
def prettyFields (level : Nat) : List (String × Json) → List Char
  | [] => []
  | [(k, v)] => newLine level ++ quote k ++ ':' :: ' ' :: pretty level v
  | (k, v) :: fs =>
    newLine level ++ quote k ++ ':' :: ' ' :: (pretty level v ++ ',' :: prettyFields level fs)

end

/-- A value as one line of text. -/
def compactText (v : Json) : String := String.ofList (compact v)

/-- A value as indented text. -/
def prettyText (v : Json) : String := String.ofList (pretty 0 v)

end PixelScene.Json
