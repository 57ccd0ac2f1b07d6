import PixelScene.Json.Basic
import PixelScene.Number.Decimal

/-!
# Reading JSON

The reader follows the JSON grammar strictly. Nesting is bounded: `value depth` reads a value that
has fewer than `depth` lists and objects around a leaf, and recursion is on that bound, which is the
library's own (127). Within one list or object the loop is bounded by the number of characters left,
of which each round consumes at least one. Every reader gives what it read and what is left of the
text, and `none` for a text that is malformed.

A number with a fraction or an exponent is rounded once, exactly. The library may miss the nearest
double by a unit in the last place, for numbers of more digits than a double can tell apart.
-/

namespace PixelScene.Json

/-- How deep lists and objects may be nested. -/
def depthBound : Nat := 128

/-- The blanks between the parts of a JSON text. -/
def isSpace (c : Char) : Bool := c == ' ' || c == '\n' || c == '\t' || c == '\r'

/-- Drops the blanks in front. -/
def skipSpace (cs : List Char) : List Char := cs.dropWhile isSpace

/-! ## Strings -/

/-- The value of a hexadecimal digit. -/
def hexValue? (c : Char) : Option Nat :=
  if '0' ≤ c && c ≤ '9' then some (c.toNat - '0'.toNat)
  else if 'a' ≤ c && c ≤ 'f' then some (c.toNat - 'a'.toNat + 10)
  else if 'A' ≤ c && c ≤ 'F' then some (c.toNat - 'A'.toNat + 10)
  else none

/-- Four hexadecimal digits. -/
def unit? : List Char → Option (Nat × List Char)
  | a :: b :: c :: d :: rest => do
    let a ← hexValue? a
    let b ← hexValue? b
    let c ← hexValue? c
    let d ← hexValue? d
    return (((a * 16 + b) * 16 + c) * 16 + d, rest)
  | _ => none

/-- Whether a unit opens a pair that encodes one character. -/
def isHighUnit (u : Nat) : Bool := 0xD800 ≤ u && u < 0xDC00

/-- Whether a unit closes a pair that encodes one character. -/
def isLowUnit (u : Nat) : Bool := 0xDC00 ≤ u && u < 0xE000

/-- The character of an escape by number, which may take two units. -/
def escapedUnit? (cs : List Char) : Option (Char × List Char) := do
  let (high, rest) ← unit? cs
  if isLowUnit high then none
  else if isHighUnit high then
    match rest with
    | '\\' :: 'u' :: more => do
      let (low, rest) ← unit? more
      if isLowUnit low then
        return (Char.ofNat (0x10000 + (high - 0xD800) * 0x400 + (low - 0xDC00)), rest)
      else none
    | _ => none
  else return (Char.ofNat high, rest)

/-- The character that the rest of an escape stands for. -/
def escaped? : List Char → Option (Char × List Char)
  | '"' :: rest => some ('"', rest)
  | '\\' :: rest => some ('\\', rest)
  | '/' :: rest => some ('/', rest)
  | 'b' :: rest => some (Char.ofNat 8, rest)
  | 'f' :: rest => some (Char.ofNat 12, rest)
  | 'n' :: rest => some ('\n', rest)
  | 'r' :: rest => some ('\r', rest)
  | 't' :: rest => some ('\t', rest)
  | 'u' :: rest => escapedUnit? rest
  | _ => none

/-- The characters of a string up to its closing quote, put in front of `seen` in reverse. -/
def stringBody : (fuel : Nat) → (seen cs : List Char) → Option (List Char × List Char)
  | 0, _, _ => none
  | fuel + 1, seen, cs =>
    match cs with
    | [] => none
    | '"' :: rest => some (seen.reverse, rest)
    | '\\' :: rest => do
      let (c, rest) ← escaped? rest
      stringBody fuel (c :: seen) rest
    | c :: rest => if c.toNat < 0x20 then none else stringBody fuel (c :: seen) rest

/-- A string after its opening quote. -/
def string? (cs : List Char) : Option (String × List Char) := do
  let (body, rest) ← stringBody cs.length [] cs
  return (String.ofList body, rest)

/-! ## Numbers -/

/-- Digits without a needless zero in front. -/
def wholeDigits? (cs : List Char) : Option (List Char × List Char) :=
  match Number.spanDigits cs with
  | ([], _) => none
  | (['0'], rest) => some (['0'], rest)
  | ('0' :: _, _) => none
  | (digits, rest) => some (digits, rest)

/-- The digits after a point, when there is one. -/
def fraction? : List Char → Option (Option (List Char) × List Char)
  | '.' :: cs =>
    match Number.spanDigits cs with
    | ([], _) => none
    | (digits, rest) => some (some digits, rest)
  | cs => some (none, cs)

/-- The exponent, when there is one. -/
def power? : List Char → Option (Option Int × List Char)
  | c :: cs =>
    if c = 'e' ∨ c = 'E' then
      let (negative, body) := Number.spanSign cs
      match Number.spanDigits body with
      | ([], _) => none
      | (digits, rest) => some (some (Number.signed negative (Number.digitsValue 0 digits)), rest)
    else some (none, c :: cs)
  | [] => some (none, [])

/-- A whole number as a value: beyond 64 bits, and for a negative zero, it is a real. -/
def wholeNumber (negative : Bool) (magnitude : Nat) : Json :=
  if negative then
    if magnitude = 0 ∨ Number.twoTo 63 < magnitude then
      real (Number.Decimal.toFloat ⟨true, magnitude, 0⟩)
    else integer (-(magnitude : Int))
  else if magnitude < Number.twoTo 64 then integer magnitude
  else real (Number.Decimal.toFloat ⟨false, magnitude, 0⟩)

/-- A number after its sign. -/
def number? (negative : Bool) (cs : List Char) : Option (Json × List Char) := do
  let (whole, rest) ← wholeDigits? cs
  let (part, rest) ← fraction? rest
  let (power, rest) ← power? rest
  match part, power with
  | none, none => return (wholeNumber negative (Number.digitsValue 0 whole), rest)
  | _, _ =>
    let digits := part.getD []
    let decimal : Number.Decimal :=
      ⟨negative, Number.digitsValue 0 (whole ++ digits), power.getD 0 - digits.length⟩
    return (real decimal.toFloat, rest)

/-! ## Lists and objects -/

/-- The items of a list after its opening bracket or a comma, put in front of `seen` in reverse. -/
def items (value : List Char → Option (Json × List Char)) :
    (fuel : Nat) → (seen : List Json) → List Char → Option (List Json × List Char)
  | 0, _, _ => none
  | fuel + 1, seen, cs => do
    let (item, rest) ← value (skipSpace cs)
    match skipSpace rest with
    | ',' :: more => items value fuel (item :: seen) more
    | ']' :: more => return ((item :: seen).reverse, more)
    | _ => none

/-- The fields of an object after its opening brace or a comma, put in front of `seen` in
reverse. -/
def members (value : List Char → Option (Json × List Char)) :
    (fuel : Nat) → (seen : List (String × Json)) → List Char →
      Option (List (String × Json) × List Char)
  | 0, _, _ => none
  | fuel + 1, seen, cs =>
    match skipSpace cs with
    | '"' :: rest => do
      let (name, rest) ← string? rest
      match skipSpace rest with
      | ':' :: rest => do
        let (item, rest) ← value (skipSpace rest)
        match skipSpace rest with
        | ',' :: more => members value fuel ((name, item) :: seen) more
        | '}' :: more => return (((name, item) :: seen).reverse, more)
        | _ => none
      | _ => none
    | _ => none

/-- The fixed words. -/
def constant? (cs : List Char) : Option (Json × List Char) :=
  match cs with
  | 'n' :: 'u' :: 'l' :: 'l' :: rest => some (null, rest)
  | 't' :: 'r' :: 'u' :: 'e' :: rest => some (bool true, rest)
  | 'f' :: 'a' :: 'l' :: 's' :: 'e' :: rest => some (bool false, rest)
  | _ => none

/-- A value at the front of a text, with fewer than `depth` lists and objects around a leaf. -/
def value : (depth : Nat) → List Char → Option (Json × List Char)
  | 0, _ => none
  | depth + 1, cs =>
    match cs with
    | '"' :: rest => (string? rest).map fun r => (text r.1, r.2)
    | '-' :: rest => number? true rest
    | '[' :: rest =>
      if depth = 0 then none
      else match skipSpace rest with
        | ']' :: more => some (list [], more)
        | _ => (items (value depth) rest.length [] rest).map fun r => (list r.1, r.2)
    | '{' :: rest =>
      if depth = 0 then none
      else match skipSpace rest with
        | '}' :: more => some (object [], more)
        | _ => (members (value depth) rest.length [] rest).map fun r => (object r.1, r.2)
    | c :: _ => if Number.isDigit c then number? false cs else constant? cs
    | [] => none

/-- The value of a JSON text, which may have blanks around it and nothing else. -/
def parse? (cs : List Char) : Option Json :=
  match value depthBound (skipSpace cs) with
  | some (v, rest) => if (skipSpace rest).isEmpty then some v else none
  | none => none

end PixelScene.Json
