import PixelScene.Number.Binary

/-!
# Decimal text read as numbers

The grammar of a number text: an optional sign, then digits with at most one point among or beside
them, then optionally `e` with a signed integer; or `inf`, `infinity` or `nan` in any case. The
value is the double nearest to what the text denotes.

* `digitsValue_append`: reading digits goes place by place.
* `plainNumber?` is the grammar without sign, exponent and words.
* `word` is the grammar of a count: digits only, with a bound, and with the reason why a text is
  refused.

These are the readers of the standard library that the engine calls (`parse` into a double and into
an integer). A decimal far out of the range of doubles is sent to zero or infinity by its order of
magnitude alone (`Decimal.bits`), so that no huge power is ever computed.
-/

namespace PixelScene.Number

/-! ## Digits -/

/-- Whether a character is an ASCII decimal digit. -/
def isDigit (c : Char) : Bool := '0' ≤ c && c ≤ '9'

/-- The value of a digit character. -/
def digitValue (c : Char) : Nat := c.toNat - '0'.toNat

/-- The value of a sequence of digits, continuing from `start`. -/
def digitsValue (start : Nat) (cs : List Char) : Nat :=
  cs.foldl (fun acc c => 10 * acc + digitValue c) start

theorem digitsValue_append (start : Nat) (cs ds : List Char) :
    digitsValue start (cs ++ ds) = digitsValue (digitsValue start cs) ds := by
  simp [digitsValue, List.foldl_append]

/-- The digits in front of a text and what follows them. -/
def spanDigits (cs : List Char) : List Char × List Char :=
  (cs.takeWhile isDigit, cs.dropWhile isDigit)

/-- The decimal digits of a natural number. -/
def natDigits (n : Nat) : List Char := Nat.toDigits 10 n

/-! ## The value of a decimal -/

/-- A decimal: `± mantissa · 10 ^ exponent`. -/
structure Decimal where
  negative : Bool
  mantissa : Nat
  exponent : Int
deriving DecidableEq, Repr

namespace Decimal

/-- How many decimal digits the mantissa has. -/
def width (d : Decimal) : Nat := (natDigits d.mantissa).length

/-- Decimals of this order of magnitude or above exceed every double. -/
def tooLarge : Int := 400

/-- Decimals below this order of magnitude round to zero in every format. -/
def tooSmall : Int := -400

/-- The bits of the number of a format nearest to a decimal. -/
def bits (f : BinaryFormat) (d : Decimal) : Nat :=
  let magnitude := d.width + d.exponent
  if d.mantissa = 0 ∨ magnitude < tooSmall then f.nearest d.negative 0 1
  else if tooLarge < magnitude then f.encode (.infinite d.negative)
  else if 0 ≤ d.exponent then f.nearest d.negative (d.mantissa * tenTo d.exponent.toNat) 1
  else f.nearest d.negative d.mantissa (tenTo (-d.exponent).toNat)

/-- The double nearest to a decimal. -/
def toFloat (d : Decimal) : Float := Float.ofBits (UInt64.ofNat (d.bits double))

end Decimal

/-! ## The grammar -/

/-- An optional sign, and what follows it. -/
def spanSign : List Char → Bool × List Char
  | '-' :: cs => (true, cs)
  | '+' :: cs => (false, cs)
  | cs => (false, cs)

/-- The digits before the point, the digits after it, and the rest; at least one digit in all. -/
def spanPlain? (cs : List Char) : Option (List Char × List Char × List Char) :=
  let (whole, rest) := spanDigits cs
  let (part, rest) := match rest with
    | '.' :: more => spanDigits more
    | _ => ([], rest)
  if whole.isEmpty && part.isEmpty then none else some (whole, part, rest)

/-- An exponent: nothing, or `e` with a signed integer, and nothing after it. -/
def exponent? : List Char → Option Int
  | [] => some 0
  | c :: cs =>
    if c = 'e' ∨ c = 'E' then
      let (negative, digits) := spanSign cs
      if digits.isEmpty || !(digits.all isDigit) then none
      else some (signed negative (digitsValue 0 digits))
    else none

/-- A decimal without a sign: digits around an optional point, then an optional exponent. -/
def unsigned? (negative : Bool) (cs : List Char) : Option Decimal := do
  let (whole, part, rest) ← spanPlain? cs
  let e ← exponent? rest
  return ⟨negative, digitsValue 0 (whole ++ part), e - part.length⟩

/-- Whether a text is one of the given words, in any case of its ASCII letters. -/
def isWord (words : List String) (cs : List Char) : Bool :=
  words.contains (String.ofList (cs.map Char.toLower))

/-- The number that a text denotes, if it denotes one. -/
def number? (cs : List Char) : Option Float :=
  let (negative, body) := spanSign cs
  if isWord ["inf", "infinity"] body then some (ofExact (.infinite negative))
  else if isWord ["nan"] body then some (ofExact .notNumber)
  else (unsigned? negative body).map Decimal.toFloat

/-- The number that digits with at most one point denote. -/
def plainNumber? (cs : List Char) : Option Float :=
  match spanPlain? cs with
  | some (whole, part, []) =>
    some (Decimal.toFloat ⟨false, digitsValue 0 (whole ++ part), -part.length⟩)
  | _ => none

/-! ## Natural numbers -/

/-- Why a text is no unsigned integer. -/
inductive WordFault where
  | empty
  | invalidDigit
  | tooLarge
deriving DecidableEq, Repr

/-- The wording of a fault. -/
def WordFault.message : WordFault → String
  | empty => "cannot parse integer from empty string"
  | invalidDigit => "invalid digit found in string"
  | tooLarge => "number too large to fit in target type"

/-- Reads digits from left to right, and refuses a value above `high` as soon as it is reached. -/
def boundedDigits (high : Nat) : (value : Nat) → List Char → Except WordFault Nat
  | value, [] => .ok value
  | value, c :: cs =>
    if !isDigit c then .error .invalidDigit
    else
      let next := 10 * value + digitValue c
      if high < next then .error .tooLarge else boundedDigits high next cs

/-- Reads an unsigned integer of at most `high`: digits, with an optional plus in front. -/
def word (high : Nat) (cs : List Char) : Except WordFault Nat :=
  match cs with
  | [] => .error .empty
  | ['+'] => .error .invalidDigit
  | '+' :: digits => boundedDigits high 0 digits
  | digits => boundedDigits high 0 digits

end PixelScene.Number
