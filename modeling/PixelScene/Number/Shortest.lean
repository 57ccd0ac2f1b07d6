import PixelScene.Number.Decimal

/-!
# Shortest decimal text

The text of a binary number is the decimal with the fewest digits that still reads back as the same
number, and among those the nearest one. `Interval` holds the reals that round to a number;
`shortest` tries ever finer decimal grids, and on each grid only the two neighbours of the value,
since a grid that has a point in the interval has one of them in it.

A `DecimalStyle` says how digits and exponent become text: which orders of magnitude are written
positionally, and whether a whole number keeps a point. The styles of messages, of scripts
(`format_number`) and of JSON are such values.

Of two decimals that are equally near, the standard library and the JSON library take different ones
(`Tie`). Seventeen digits always suffice, so the search is bounded by that number.
-/

namespace PixelScene.Number

/-! ## The interval of a number -/

/--
The reals that round to `mantissa · 2 ^ exponent`, in quarters of the last place over a common
denominator: the value is `value / den`, and what lies between `low / den` and `high / den` rounds
to it, the ends only when the mantissa is even.
-/
structure Interval where
  low : Nat
  value : Nat
  high : Nat
  den : Nat
  closed : Bool
deriving Repr

/-- The interval of a positive finite number of a format. -/
def Interval.of (f : BinaryFormat) (mantissa : Nat) (exponent : Int) : Interval :=
  let below := if mantissa = twoTo f.fraction ∧ f.least < exponent then 1 else 2
  let e := exponent - 2
  let scale := if 0 ≤ e then twoTo e.toNat else 1
  ⟨(4 * mantissa - below) * scale, 4 * mantissa * scale, (4 * mantissa + 2) * scale,
    if 0 ≤ e then 1 else twoTo (-e).toNat, mantissa % 2 == 0⟩

/-- Whether `num / den` rounds to the number of the interval. -/
def Interval.contains (i : Interval) (num den : Nat) : Bool :=
  let x := num * i.den
  if i.closed then i.low * den ≤ x && x ≤ i.high * den
  else i.low * den < x && x < i.high * den

/-! ## The fewest digits -/

/-- `digits · 10 ^ exponent` as a quotient. -/
def gridPoint (digits : Nat) (exponent : Int) : Nat × Nat :=
  if 0 ≤ exponent then (digits * tenTo exponent.toNat, 1) else (digits, tenTo (-exponent).toNat)

/-- `value / den` measured in units of `10 ^ exponent`, rounded down, with the remainder. -/
def gridQuotient (i : Interval) (exponent : Int) : Nat × Nat × Nat :=
  let num := if 0 ≤ exponent then i.value else i.value * tenTo (-exponent).toNat
  let den := if 0 ≤ exponent then i.den * tenTo exponent.toNat else i.den
  (num / den, num % den, den)

/-- How a value halfway between two candidates of equal length is written. -/
inductive Tie where
  | up
  | even
deriving DecidableEq, Repr

/-- The multiple of `10 ^ exponent` inside the interval nearest to the value, if there is one. -/
def onGrid? (tie : Tie) (i : Interval) (exponent : Int) : Option Nat :=
  let (q, rest, den) := gridQuotient i exponent
  let inside := fun n => let (a, b) := gridPoint n exponent; i.contains a b
  let preferLow := 2 * rest < den || (2 * rest == den && tie == .even && q % 2 == 0)
  match inside q, inside (q + 1) with
  | true, true => some (if preferLow then q else q + 1)
  | true, false => some q
  | false, true => some (q + 1)
  | false, false => none

/-- The least `k` with `value / den < 10 ^ k`, found by counting up from a lower estimate. -/
def magnitude (i : Interval) : Int :=
  let estimate : Int := (((i.value.log2 : Int) - i.den.log2 - 1) * 30103) / 100000 - 1
  let below := fun k : Int => let (a, b) := gridPoint 1 k; decide (i.value * b < a * i.den)
  if below estimate then estimate
  else if below (estimate + 1) then estimate + 1
  else if below (estimate + 2) then estimate + 2
  else estimate + 3

/-- The first grid, from coarse to fine, that has a point in the interval. -/
def firstGrid (tie : Tie) (i : Interval) : (fuel : Nat) → (exponent : Int) → Nat × Int
  | 0, exponent => ((gridQuotient i exponent).1, exponent)
  | fuel + 1, exponent =>
    match onGrid? tie i exponent with
    | some n => (n, exponent)
    | none => firstGrid tie i fuel (exponent - 1)

/-- Takes the zeros off the end of a decimal mantissa. -/
def stripZeros : (fuel : Nat) → Nat × Int → Nat × Int
  | 0, d => d
  | fuel + 1, (n, e) => if n ≠ 0 ∧ n % 10 = 0 then stripZeros fuel (n / 10, e + 1) else (n, e)

/-- Seventeen digits tell any two doubles apart. -/
def mostDigits : Nat := 17

/-- The shortest decimal that reads back as a positive finite number, as digits and exponent. -/
def shortest (tie : Tie) (f : BinaryFormat) (mantissa : Nat) (exponent : Int) : Nat × Int :=
  let i := Interval.of f mantissa exponent
  stripZeros mostDigits (firstGrid tie i mostDigits (magnitude i - 1))

/-! ## DecimalStyle -/

/-- How a decimal is written out. -/
structure DecimalStyle where
  /-- The least order of magnitude that is written positionally. -/
  leastPlain : Option Int
  /-- The greatest order of magnitude that is written positionally. -/
  greatestPlain : Option Int
  /-- Whether a whole number in positional form ends in `.0`. -/
  keepPoint : Bool
  /-- Which way a halfway value goes. -/
  tie : Tie

/-- `count` zeros. -/
def zeros (count : Nat) : List Char := List.replicate count '0'

/-- Digits with a point: the last digit stands for `10 ^ exponent`. -/
def positional (keepPoint : Bool) (digits : List Char) (exponent : Int) : List Char :=
  if 0 ≤ exponent then
    digits ++ zeros exponent.toNat ++ (if keepPoint then ['.', '0'] else [])
  else
    let places := (-exponent).toNat
    let padded := zeros (places + 1 - digits.length) ++ digits
    padded.take (padded.length - places) ++ '.' :: padded.drop (padded.length - places)

/-- Digits in scientific form: one digit before the point, and the exponent with its sign. -/
def scientific (digits : List Char) (order : Int) : List Char :=
  let body := match digits with
    | [d] => [d]
    | d :: ds => d :: '.' :: ds
    | [] => []
  body ++ 'e' :: (if order < 0 then '-' else '+') :: natDigits order.natAbs

/-- The text of a positive decimal. -/
def DecimalStyle.write (style : DecimalStyle) (digits : Nat) (exponent : Int) : List Char :=
  let ds := natDigits digits
  let order := exponent + ds.length - 1
  let plain := (style.leastPlain.all (· ≤ order)) && (style.greatestPlain.all (order ≤ ·))
  if plain then positional style.keepPoint ds exponent else scientific ds order

/-- The text of a finite number in a format. -/
def DecimalStyle.writeFinite (style : DecimalStyle) (f : BinaryFormat) (negative : Bool)
    (mantissa : Nat) (exponent : Int) : List Char :=
  let body :=
    if mantissa = 0 then positional style.keepPoint ['0'] 0
    else
      let (digits, e) := shortest style.tie f mantissa exponent
      style.write digits e
  if negative then '-' :: body else body

/-- Plain text never uses an exponent and writes a whole number without a point. -/
def plainText : DecimalStyle := ⟨none, none, false, .up⟩

/-- The text of a number in messages and scripts. -/
def text (x : Float) : String :=
  match exact x with
  | .notNumber => "NaN"
  | .infinite negative => if negative then "-inf" else "inf"
  | .finite negative m e => String.ofList (plainText.writeFinite double negative m e)

/-- Whole numbers below this bound are written as integers, which drops the sign of zero. -/
def wholeBound : Int := tenTo 15

/-- The text of a script number: a whole number below the bound as an integer. -/
def scriptText (x : Float) : String :=
  let n := truncateInt64 x
  if isIntegral x && -wholeBound < n && n < wholeBound then toString n else text x

end PixelScene.Number
