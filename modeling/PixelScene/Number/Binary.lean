/-!
# Binary floating point, read exactly

A binary interchange format gives a number as a sign, a mantissa and a power of two. `Exact` is that
value before any rounding: `BinaryFormat.decode` reads it off the bits, `BinaryFormat.nearest`
rounds a positive quotient of natural numbers to the format, ties to the even mantissa, and the
conversions between single and double precision, and from and to integers, go through it.

* `Exact.truncate` and `Exact.round` are the two ways to an integer: toward zero, and to the nearest
  with halves away from zero. Both saturate at given bounds and send what is not a number to zero.
* `clamp_mem`: what saturates lies between the bounds.
* `wrapInt64`, `wrapWord64`: what is left of a sum that does not fit into 64 bits.

Sums, products and comparisons of doubles are Lean's own, about which nothing can be proved. What
goes through `Exact` is what statements speak about: conversions, and the reading and writing of
decimals. The integers of the engine have 64 bits, and they wrap around in a build without overflow
checks; where a sum cannot get that far, it is a sum of plain integers here.
-/

namespace PixelScene.Number

/-! ## Powers -/

/-- A power of two. -/
def twoTo (n : Nat) : Nat := Nat.pow 2 n

/-- A power of ten. -/
def tenTo (n : Nat) : Nat := Nat.pow 10 n

@[simp] theorem twoTo_zero : twoTo 0 = 1 := rfl

@[simp] theorem tenTo_zero : tenTo 0 = 1 := rfl

theorem twoTo_succ (n : Nat) : twoTo (n + 1) = twoTo n * 2 := rfl

theorem twoTo_pos (n : Nat) : 0 < twoTo n := by
  induction n with
  | zero => decide
  | succ n ih => rw [twoTo_succ]; omega

/-! ## Formats and exact values -/

/-- A binary interchange format: how many bits of fraction and how many of exponent. -/
structure BinaryFormat where
  fraction : Nat
  exponent : Nat
deriving DecidableEq, Repr

/-- Double precision. -/
def double : BinaryFormat := ⟨52, 11⟩

/-- Single precision. -/
def single : BinaryFormat := ⟨23, 8⟩

/-- The value of a binary number: a finite one is `± mantissa · 2 ^ exponent`. -/
inductive Exact where
  | notNumber
  | infinite (negative : Bool)
  | finite (negative : Bool) (mantissa : Nat) (exponent : Int)
deriving DecidableEq, Repr

namespace BinaryFormat

/-- The exponent field of infinities. -/
def top (f : BinaryFormat) : Nat := twoTo f.exponent - 1

/-- The exponent of the last place of the smallest numbers. -/
def least (f : BinaryFormat) : Int := 2 - twoTo (f.exponent - 1) - f.fraction

/-- The bits of positive infinity. -/
def infinity (f : BinaryFormat) : Nat := f.top * twoTo f.fraction

/-- The bits of the sign alone. -/
def signBit (f : BinaryFormat) : Nat := twoTo (f.exponent + f.fraction)

/-- The value that a pattern of bits stands for. -/
def decode (f : BinaryFormat) (bits : Nat) : Exact :=
  let negative := bits / f.signBit % 2 == 1
  let field := bits / twoTo f.fraction % twoTo f.exponent
  let low := bits % twoTo f.fraction
  if field = f.top then if low = 0 then .infinite negative else .notNumber
  else if field = 0 then .finite negative low f.least
  else .finite negative (low + twoTo f.fraction) (f.least + (field - 1 : Nat))

/-- `num / den` rounded to the nearest natural number, halves to the even one. -/
def roundQuotient (num den : Nat) : Nat :=
  let low := num / den
  let twice := 2 * (num % den)
  if twice < den then low
  else if den < twice then low + 1
  else low + low % 2

/-- `num / den · 2 ^ shift` rounded to the nearest natural number, halves to the even one. -/
def scaledQuotient (num den : Nat) (shift : Int) : Nat :=
  if 0 ≤ shift then roundQuotient (num * twoTo shift.toNat) den
  else roundQuotient num (den * twoTo (-shift).toNat)

/-- The largest `k` with `2 ^ k ≤ num / den`, for positive `num` and `den`. -/
def log2Quotient (num den : Nat) : Int :=
  let k : Int := (num.log2 : Int) - den.log2
  let fits := if 0 ≤ k then den * twoTo k.toNat ≤ num else den ≤ num * twoTo (-k).toNat
  if fits then k else k - 1

/--
The bits of the number of the format nearest to `num / den`, ties to the even mantissa; beyond the
largest number it is infinity. The quotient is measured in units of the last place, so a mantissa
that rounds up to the next power of two carries into the exponent field by itself.
-/
def nearest (f : BinaryFormat) (negative : Bool) (num den : Nat) : Nat :=
  let sign := if negative then f.signBit else 0
  if num = 0 then sign
  else
    let place := max (log2Quotient num den - f.fraction) f.least
    let mantissa := scaledQuotient num den (-place)
    sign + min ((place - f.least).toNat * twoTo f.fraction + mantissa) f.infinity

/-- The bits of an exact value in a format, rounded to nearest. -/
def encode (f : BinaryFormat) : Exact → Nat
  | .notNumber => f.infinity + twoTo (f.fraction - 1)
  | .infinite negative => (if negative then f.signBit else 0) + f.infinity
  | .finite negative mantissa exponent =>
    if 0 ≤ exponent then f.nearest negative (mantissa * twoTo exponent.toNat) 1
    else f.nearest negative mantissa (twoTo (-exponent).toNat)

end BinaryFormat

/-! ## To and from machine numbers -/

/-- The value of a double. -/
def exact (x : Float) : Exact := double.decode x.toBits.toNat

/-- The value of a single. -/
def exactSingle (x : Float32) : Exact := single.decode x.toBits.toNat

/-- The double nearest to a value. -/
def ofExact (e : Exact) : Float := Float.ofBits (UInt64.ofNat (double.encode e))

/-- The single nearest to a value. -/
def singleOfExact (e : Exact) : Float32 := Float32.ofBits (UInt32.ofNat (single.encode e))

/-- A single as a double, which is exact. -/
def widen (x : Float32) : Float := ofExact (exactSingle x)

/-- The single nearest to a double. -/
def narrow (x : Float) : Float32 := singleOfExact (exact x)

/-- The double nearest to an integer. -/
def ofInt (n : Int) : Float := ofExact (.finite (n < 0) n.natAbs 0)

/-- The single nearest to an integer. -/
def singleOfInt (n : Int) : Float32 := singleOfExact (.finite (n < 0) n.natAbs 0)

/-! ## To integers -/

/-- `n` moved into `low … high`. -/
def clamp (low high n : Int) : Int := max low (min high n)

theorem clamp_mem {low high : Int} (h : low ≤ high) (n : Int) :
    low ≤ clamp low high n ∧ clamp low high n ≤ high := by
  unfold clamp; omega

theorem clamp_eq_self {low high n : Int} (hl : low ≤ n) (hh : n ≤ high) :
    clamp low high n = n := by
  unfold clamp; omega

/-- A magnitude with a sign. -/
def signed (negative : Bool) (magnitude : Nat) : Int :=
  if negative then -(magnitude : Int) else magnitude

namespace Exact

/-- The integer part of a value, toward zero, held between two bounds. -/
def truncate (low high : Int) : Exact → Int
  | .notNumber => 0
  | .infinite negative => if negative then low else high
  | .finite negative m e =>
    clamp low high <| signed negative <|
      if 0 ≤ e then m * twoTo e.toNat else m / twoTo (-e).toNat

/-- The nearest integer to a value, halves away from zero, held between two bounds. -/
def round (low high : Int) : Exact → Int
  | .notNumber => 0
  | .infinite negative => if negative then low else high
  | .finite negative m e =>
    clamp low high <| signed negative <|
      if 0 ≤ e then m * twoTo e.toNat else (m + twoTo ((-e).toNat - 1)) / twoTo (-e).toNat

/-- Whether a value is a finite integer. -/
def isInteger : Exact → Bool
  | .finite _ m e => 0 ≤ e || m % twoTo (-e).toNat == 0
  | _ => false

/-- Whether a value is finite. -/
def isFinite : Exact → Bool
  | .finite .. => true
  | _ => false

end Exact

/-- The least signed 64-bit integer. -/
def int64Min : Int := -twoTo 63

/-- The greatest signed 64-bit integer. -/
def int64Max : Int := twoTo 63 - 1

/-- The greatest unsigned 64-bit integer. -/
def word64Max : Int := twoTo 64 - 1

/-- The greatest unsigned 32-bit integer. -/
def word32Max : Int := twoTo 32 - 1

/-- A sum of unsigned 64-bit words: what does not fit is cut off. -/
def wrapWord64 (n : Nat) : Nat := n % 18446744073709551616

theorem wrapWord64_lt (n : Nat) : wrapWord64 n < 18446744073709551616 := Nat.mod_lt n (by decide)

theorem wrapWord64_eq_self {n : Nat} (h : n < 18446744073709551616) : wrapWord64 n = n :=
  Nat.mod_eq_of_lt h

@[simp] theorem wrapWord64_wrapWord64_add (n k : Nat) :
    wrapWord64 (wrapWord64 n + k) = wrapWord64 (n + k) := Nat.mod_add_mod n _ k

/-- A sum, difference or product of signed 64-bit integers: it goes around at both ends. -/
def wrapInt64 (n : Int) : Int := (n - int64Min) % 18446744073709551616 + int64Min

/-- The greatest magnitude goes around to the least number, which is its own opposite. -/
theorem wrapInt64_neg_natAbs_le {n : Int} (h : int64Min ≤ n ∧ n ≤ int64Max) :
    wrapInt64 (-wrapInt64 n.natAbs) ≤ wrapInt64 n.natAbs := by
  have hmin : int64Min = -9223372036854775808 := rfl
  have hmax : int64Max = 9223372036854775807 := rfl
  unfold wrapInt64
  omega

/-- The nearest signed 64-bit integer, saturated. -/
def roundInt64 (x : Float) : Int := (exact x).round int64Min int64Max

/-- The integer part as a signed 64-bit integer, saturated. -/
def truncateInt64 (x : Float) : Int := (exact x).truncate int64Min int64Max

/-- The nearest signed 64-bit integer of a finite number, and zero for any other. -/
def roundFinite (x : Float) : Int := if (exact x).isFinite then roundInt64 x else 0

theorem roundFinite_mem (x : Float) : int64Min ≤ roundFinite x ∧ roundFinite x ≤ int64Max := by
  unfold roundFinite roundInt64
  split
  · cases exact x with
    | notNumber => decide
    | infinite negative => cases negative <;> decide
    | finite negative m e => exact clamp_mem (by decide) _
  · decide

/-- The integer part as an unsigned 32-bit integer, saturated. -/
def truncateWord32 (x : Float) : Nat := ((exact x).truncate 0 word32Max).toNat

/-- The integer part as a signed 32-bit integer, saturated. -/
def truncateInt32 (x : Float) : Int := (exact x).truncate (-twoTo 31) (twoTo 31 - 1)

/-- The integer part as an unsigned 64-bit integer, saturated. -/
def truncateWord64 (x : Float) : Nat := ((exact x).truncate 0 word64Max).toNat

/-- Whether a number has no fraction. -/
def isIntegral (x : Float) : Bool := (exact x).isInteger

end PixelScene.Number
