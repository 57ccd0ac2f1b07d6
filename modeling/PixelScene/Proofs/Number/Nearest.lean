import Mathlib.Data.Int.Log
import Mathlib.Data.Rat.Floor
import Mathlib.Tactic.FieldSimp
import Mathlib.Tactic.Linarith
import Mathlib.Tactic.Positivity
import Mathlib.Tactic.Ring
import PixelScene.Number.Decimal

/-!
# The nearest number of a binary format

`BinaryFormat.nearest` computes with natural numbers; what it computes is a fact about the quotient
that it is given. So it is described here over the rationals.

* `RoundsTo`: the nearest natural number, halves to the even one. There is exactly one.
* `BinaryFormat.nearest_eq`: the bits of the nearest number, from the place of a quotient and the
  natural number that it rounds to there. They depend on the quotient only (`nearest_congr`).
* `BinaryFormat.nearest_of_between`: every quotient within half a place of a number of the format
  gives the bits of that number, also where the places below it are finer.
* `BinaryFormat.decode_eq_finite`: which bits stand for a finite number.

Rounding is to the nearest number of the format, halves to the even mantissa, with gradual
underflow, and infinity for what is too large. The place of a quotient is the exponent of its last
bit; below the smallest normal number it no longer goes down. Powers of two are where the places
change, so the interval of such a number is not the same on both sides.
-/

namespace PixelScene.Number

/-! ## Powers -/

@[simp, push_cast] theorem cast_twoTo (n : ℕ) : ((twoTo n : ℕ) : ℚ) = 2 ^ n := Nat.cast_pow 2 n

@[simp, push_cast] theorem cast_tenTo (n : ℕ) : ((tenTo n : ℕ) : ℚ) = 10 ^ n := Nat.cast_pow 10 n

theorem zpow_toNat (b : ℚ) {k : ℤ} (h : 0 ≤ k) : b ^ k.toNat = b ^ k := by
  rw [← zpow_natCast, Int.toNat_of_nonneg h]

theorem zpow_toNat_neg (b : ℚ) {k : ℤ} (h : ¬ 0 ≤ k) : b ^ (-k).toNat = (b ^ k)⁻¹ := by
  rw [zpow_toNat b (by omega), zpow_neg]

/-! ## Rounding to natural numbers -/

/-- `n` is the natural number nearest to `q`, and of two such the even one. -/
def RoundsTo (q : ℚ) (n : ℕ) : Prop := |q - n| < 1 / 2 ∨ |q - n| = 1 / 2 ∧ n % 2 = 0

namespace RoundsTo

theorem within {q : ℚ} {n : ℕ} (h : RoundsTo q n) : |q - n| ≤ 1 / 2 :=
  h.elim le_of_lt fun h => h.1.le

/-- Rounding does not go beyond a whole number. -/
theorem le_of_le {q : ℚ} {n k : ℕ} (h : RoundsTo q n) (hq : q ≤ k) : n ≤ k := by
  have hround := (abs_le.mp h.within).1
  have hlt : (n : ℚ) < k + 1 := by linarith
  exact Nat.le_of_lt_succ (by exact_mod_cast hlt)

theorem ge_of_ge {q : ℚ} {n k : ℕ} (h : RoundsTo q n) (hq : k ≤ q) : k ≤ n := by
  have hround := (abs_le.mp h.within).2
  have hlt : (k : ℚ) < n + 1 := by linarith
  exact Nat.le_of_lt_succ (by exact_mod_cast hlt)

/-- There is only one number to round to: two of them that differ are neighbours halfway from `q`,
and of those only one is even. -/
theorem unique {q : ℚ} {m n : ℕ} (hm : RoundsTo q m) (hn : RoundsTo q n) : m = n := by
  have hdist : |(m : ℚ) - n| ≤ |q - m| + |q - n| := by
    rw [abs_sub_comm q m]
    exact abs_sub_le (m : ℚ) q n
  by_contra hne
  have hone : (1 : ℚ) ≤ |(m : ℚ) - n| := by
    exact_mod_cast Int.one_le_abs (show (m : ℤ) - n ≠ 0 by omega)
  have hmw := hm.within
  have hnw := hn.within
  obtain hm | ⟨-, hm⟩ := hm
  · linarith
  obtain hn | ⟨-, hn⟩ := hn
  · linarith
  have htwo : (2 : ℚ) ≤ |(m : ℚ) - n| := by
    have htwo : (2 : ℤ) ≤ |(m : ℤ) - n| := by
      obtain h | h := abs_cases ((m : ℤ) - n) <;> omega
    exact_mod_cast htwo
  linarith

end RoundsTo

namespace BinaryFormat

theorem roundQuotient_roundsTo (num : ℕ) {den : ℕ} (hden : 0 < den) :
    RoundsTo (num / den) (roundQuotient num den) := by
  have hpos : (0 : ℚ) < den := by exact_mod_cast hden
  have hsplit : (num / den : ℚ) - (num / den : ℕ) = (num % den : ℕ) / (den : ℚ) := by
    rw [sub_eq_iff_eq_add, div_eq_iff hpos.ne', add_mul, div_mul_cancel₀ _ hpos.ne']
    exact_mod_cast (Nat.mod_add_div' num den).symm
  have hnonneg : (0 : ℚ) ≤ (num % den : ℕ) / (den : ℚ) := by positivity
  have hless : ((num % den : ℕ) : ℚ) / den < 1 := by
    rw [div_lt_one hpos]
    exact_mod_cast Nat.mod_lt num hden
  simp only [roundQuotient]
  split
  next hlow =>
    have hhalf : ((num % den : ℕ) : ℚ) / den < 1 / 2 := by
      rw [div_lt_div_iff₀ hpos two_pos]
      exact_mod_cast (by omega : num % den * 2 < 1 * den)
    left
    rw [hsplit, abs_of_nonneg hnonneg]
    exact hhalf
  next hlow =>
    split
    next hhigh =>
      have hhalf : 1 / 2 < ((num % den : ℕ) : ℚ) / den := by
        rw [div_lt_div_iff₀ two_pos hpos]
        exact_mod_cast (by omega : 1 * den < num % den * 2)
      left
      rw [Nat.cast_succ, ← sub_sub, hsplit, abs_lt]
      constructor <;> linarith
    next hhigh =>
      have hhalf : ((num % den : ℕ) : ℚ) / den = 1 / 2 := by
        rw [div_eq_div_iff hpos.ne' two_ne_zero]
        exact_mod_cast (by omega : num % den * 2 = 1 * den)
      refine .inr ⟨?_, by omega⟩
      rw [Nat.cast_add, ← sub_sub, hsplit, hhalf]
      obtain heven | hodd := Nat.mod_two_eq_zero_or_one (num / den)
      · rw [heven]
        norm_num
      · rw [hodd]
        norm_num

theorem scaledQuotient_roundsTo (num : ℕ) {den : ℕ} (hden : 0 < den) (shift : ℤ) :
    RoundsTo (num / den * 2 ^ shift) (scaledQuotient num den shift) := by
  unfold scaledQuotient
  split
  next h =>
    have hround := roundQuotient_roundsTo (num * twoTo shift.toNat) hden
    rw [Nat.cast_mul, cast_twoTo, zpow_toNat 2 h, mul_div_right_comm] at hround
    exact hround
  next h =>
    have hround := roundQuotient_roundsTo num (Nat.mul_pos hden (twoTo_pos (-shift).toNat))
    rw [Nat.cast_mul, cast_twoTo, zpow_toNat_neg 2 h, ← div_div, div_inv_eq_mul] at hround
    exact hround

/-! ## Places -/

theorem log_eq {q : ℚ} {k : ℤ} (hlow : 2 ^ k ≤ q) (hhigh : q < 2 ^ (k + 1)) : Int.log 2 q = k := by
  have hpos : 0 < q := (zpow_pos two_pos k).trans_le hlow
  have h1 := (Int.zpow_le_iff_le_log one_lt_two hpos).mp hlow
  have h2 := (Int.lt_zpow_iff_log_lt one_lt_two hpos).mp hhigh
  omega

/-- The lengths of two numbers in bits tell where their quotient lies. -/
theorem quotient_lt_zpow (num : ℕ) {den : ℕ} (hden : 0 < den) :
    (num / den : ℚ) < 2 ^ ((num.log2 : ℤ) - den.log2 + 1) := by
  have hnum : (num : ℚ) < 2 ^ (num.log2 + 1) := by exact_mod_cast Nat.lt_log2_self
  have hlog : (2 : ℚ) ^ den.log2 ≤ den := by exact_mod_cast Nat.log2_self_le hden.ne'
  rw [div_lt_iff₀ (by exact_mod_cast hden)]
  calc (num : ℚ) < 2 ^ (num.log2 + 1) := hnum
    _ = 2 ^ ((num.log2 : ℤ) - den.log2 + 1) * 2 ^ den.log2 := by
      rw [← zpow_natCast, ← zpow_natCast, ← zpow_add₀ two_ne_zero]
      congr 1
      omega
    _ ≤ 2 ^ ((num.log2 : ℤ) - den.log2 + 1) * den :=
      mul_le_mul_of_nonneg_left hlog (zpow_pos two_pos _).le

theorem zpow_le_quotient {num den : ℕ} (hnum : 0 < num) (hden : 0 < den) :
    (2 : ℚ) ^ ((num.log2 : ℤ) - den.log2 - 1) ≤ num / den := by
  have hlog : (2 : ℚ) ^ num.log2 ≤ num := by exact_mod_cast Nat.log2_self_le hnum.ne'
  have hless : (den : ℚ) < 2 ^ (den.log2 + 1) := by exact_mod_cast Nat.lt_log2_self
  rw [le_div_iff₀ (by exact_mod_cast hden)]
  calc (2 : ℚ) ^ ((num.log2 : ℤ) - den.log2 - 1) * den
      ≤ 2 ^ ((num.log2 : ℤ) - den.log2 - 1) * 2 ^ (den.log2 + 1) :=
        mul_le_mul_of_nonneg_left hless.le (zpow_pos two_pos _).le
    _ = 2 ^ num.log2 := by
      rw [← zpow_natCast, ← zpow_natCast, ← zpow_add₀ two_ne_zero]
      congr 1
      omega
    _ ≤ num := hlog

theorem log2Quotient_eq {num den : ℕ} (hnum : 0 < num) (hden : 0 < den) :
    log2Quotient num den = Int.log 2 (num / den : ℚ) := by
  have hpos : (0 : ℚ) < den := by exact_mod_cast hden
  have hbelow := zpow_le_quotient hnum hden
  have habove := quotient_lt_zpow num hden
  simp only [log2Quotient]
  generalize (num.log2 : ℤ) - den.log2 = k at *
  have hfits : (if 0 ≤ k then den * twoTo k.toNat ≤ num else den ≤ num * twoTo (-k).toNat) ↔
      (2 : ℚ) ^ k ≤ num / den := by
    split
    next h =>
      rw [le_div_iff₀' hpos, ← zpow_toNat 2 h]
      exact_mod_cast Iff.rfl
    next h =>
      rw [le_div_iff₀' hpos, ← le_mul_inv_iff₀ (zpow_pos two_pos k), ← zpow_toNat_neg 2 h]
      exact_mod_cast Iff.rfl
  by_cases h : (2 : ℚ) ^ k ≤ num / den
  · rw [if_pos (hfits.mpr h), log_eq h habove]
  · rw [if_neg (mt hfits.mp h), log_eq hbelow (by rw [sub_add_cancel]; exact not_le.mp h)]

/-- The place of the last bit that a format keeps of a positive number. -/
def place (f : BinaryFormat) (q : ℚ) : ℤ := max (Int.log 2 q - f.fraction) f.least

/-- The bits of `± mantissa · 2 ^ exponent`, when the format has that number. -/
def pattern (f : BinaryFormat) (negative : Bool) (mantissa : ℕ) (exponent : ℤ) : ℕ :=
  (if negative then f.signBit else 0) +
    ((exponent - f.least).toNat * twoTo f.fraction + mantissa)

theorem nearest_eq (f : BinaryFormat) (negative : Bool) {num den n : ℕ} (hnum : 0 < num)
    (hden : 0 < den) (h : RoundsTo (num / den * 2 ^ (-f.place (num / den))) n) :
    f.nearest negative num den = (if negative then f.signBit else 0) +
      min ((f.place (num / den) - f.least).toNat * twoTo f.fraction + n) f.infinity := by
  have hmantissa := (scaledQuotient_roundsTo num hden (-f.place (num / den))).unique h
  simp only [nearest, if_neg hnum.ne', log2Quotient_eq hnum hden, ← hmantissa]
  rfl

/-- The nearest number depends on the quotient only. -/
theorem nearest_congr (f : BinaryFormat) (negative : Bool) {num den num' den' : ℕ}
    (hden : 0 < den) (hden' : 0 < den') (h : (num / den : ℚ) = num' / den') :
    f.nearest negative num den = f.nearest negative num' den' := by
  have hpos : (0 : ℚ) < den := by exact_mod_cast hden
  have hpos' : (0 : ℚ) < den' := by exact_mod_cast hden'
  obtain rfl | hnum := Nat.eq_zero_or_pos num
  · have hzero : num' = 0 := by
      rw [Nat.cast_zero, zero_div, eq_comm, div_eq_zero_iff] at h
      exact_mod_cast h.resolve_right hpos'.ne'
    subst hzero
    rfl
  · have hnum' : 0 < num' := by
      have hq : (0 : ℚ) < num' / den' := h ▸ div_pos (by exact_mod_cast hnum) hpos
      rw [lt_div_iff₀ hpos', zero_mul] at hq
      exact_mod_cast hq
    have hround := scaledQuotient_roundsTo num hden (-f.place (num / den))
    rw [f.nearest_eq negative hnum hden hround, h]
    rw [h] at hround
    rw [f.nearest_eq negative hnum' hden' hround]

/-! ## Numbers that a format has -/

/-- How a format writes its finite numbers: with the least exponent, or with a mantissa of full
width; and below its infinity. -/
structure Has (f : BinaryFormat) (mantissa : ℕ) (exponent : ℤ) : Prop where
  least_le : f.least ≤ exponent
  lt : mantissa < twoTo (f.fraction + 1)
  full : f.least < exponent → twoTo f.fraction ≤ mantissa
  finite : (exponent - f.least).toNat * twoTo f.fraction + mantissa < f.infinity

/-- How far below a number, in units of its last place, a number still rounds to it: just below a
power of two the places are half as wide. -/
def slack (f : BinaryFormat) (mantissa : ℕ) (exponent : ℤ) : ℚ :=
  if mantissa = twoTo f.fraction ∧ f.least < exponent then 1 / 4 else 1 / 2

/-- Whether a positive number lies where everything rounds to `mantissa · 2 ^ exponent`. -/
structure Between (f : BinaryFormat) (mantissa : ℕ) (exponent : ℤ) (q : ℚ) : Prop where
  low : mantissa - f.slack mantissa exponent ≤ q * 2 ^ (-exponent)
  high : q * 2 ^ (-exponent) ≤ mantissa + 1 / 2
  odd : mantissa % 2 = 1 →
    mantissa - f.slack mantissa exponent < q * 2 ^ (-exponent) ∧
      q * 2 ^ (-exponent) < mantissa + 1 / 2

theorem slack_le (f : BinaryFormat) (mantissa : ℕ) (exponent : ℤ) :
    1 / 4 ≤ f.slack mantissa exponent ∧ f.slack mantissa exponent ≤ 1 / 2 := by
  unfold slack
  split <;> norm_num

/-- What rounds to a number when its own place is the last. -/
theorem Between.roundsTo {f : BinaryFormat} {m : ℕ} {e : ℤ} {q : ℚ} (h : f.Between m e q) :
    RoundsTo (q * 2 ^ (-e)) m := by
  have hslack := f.slack_le m e
  have hlow := h.low
  have hhigh := h.high
  by_cases hodd : m % 2 = 1
  · obtain ⟨hlow', hhigh'⟩ := h.odd hodd
    left
    rw [abs_lt]
    constructor <;> linarith
  · have hle : |q * 2 ^ (-e) - m| ≤ 1 / 2 := by
      rw [abs_le]
      constructor <;> linarith
    exact hle.lt_or_eq.imp_right fun heq => ⟨heq, by omega⟩

theorem place_of_le {f : BinaryFormat} {q : ℚ} {e : ℤ} (hlow : 2 ^ f.fraction ≤ q * 2 ^ (-e))
    (hhigh : q * 2 ^ (-e) < 2 ^ (f.fraction + 1)) : f.place q = max e f.least := by
  have hpos : (0 : ℚ) < 2 ^ e := zpow_pos two_pos e
  rw [zpow_neg, ← div_eq_mul_inv, le_div_iff₀ hpos, ← zpow_natCast, ← zpow_add₀ two_ne_zero] at hlow
  rw [zpow_neg, ← div_eq_mul_inv, div_lt_iff₀ hpos, ← zpow_natCast, ← zpow_add₀ two_ne_zero,
    Nat.cast_succ, add_right_comm] at hhigh
  rw [place, log_eq hlow hhigh, add_sub_cancel_left]

theorem place_of_lt {f : BinaryFormat} {q : ℚ} (hq : 0 < q)
    (h : q * 2 ^ (-f.least) < 2 ^ f.fraction) : f.place q = f.least := by
  rw [zpow_neg, ← div_eq_mul_inv, div_lt_iff₀ (zpow_pos two_pos f.least), ← zpow_natCast,
    ← zpow_add₀ two_ne_zero] at h
  have hlog := (Int.lt_zpow_iff_log_lt one_lt_two hq).mp h
  rw [place, max_eq_right (by omega)]

/-- A number whose own place is the last that is kept. -/
theorem nearest_of_place {f : BinaryFormat} (negative : Bool) {m : ℕ} {e : ℤ} {num den : ℕ}
    (hhas : f.Has m e) (hnum : 0 < num) (hden : 0 < den) (h : f.Between m e (num / den))
    (hplace : f.place (num / den) = e) : f.nearest negative num den = f.pattern negative m e := by
  rw [f.nearest_eq negative hnum hden (hplace ▸ h.roundsTo), hplace, min_eq_left hhas.finite.le]
  rfl

/-- A quotient just below a power of two has one bit more in the place below, and rounds up to that
power, which is the mantissa of the next exponent. -/
theorem nearest_of_below_power {f : BinaryFormat} (negative : Bool) {m : ℕ} {e : ℤ} {num den : ℕ}
    (hhas : f.Has m e) (hnum : 0 < num) (hden : 0 < den) (h : f.Between m e (num / den))
    (hleast : f.least < e) (hbelow : (num / den : ℚ) * 2 ^ (-e) < 2 ^ f.fraction) :
    f.nearest negative num den = f.pattern negative m e := by
  have hlow := h.low
  have hpower : m = twoTo f.fraction := by
    have hge := hhas.full hleast
    have hle : (m : ℚ) < twoTo f.fraction + 1 := by
      rw [cast_twoTo]
      linarith [f.slack_le m e]
    have hle' : m < twoTo f.fraction + 1 := by exact_mod_cast hle
    omega
  have hquarter : f.slack m e = 1 / 4 := if_pos ⟨hpower, hleast⟩
  have hdouble : (num / den : ℚ) * 2 ^ (-(e - 1)) = 2 * (num / den * 2 ^ (-e)) := by
    rw [neg_sub, sub_eq_neg_add, zpow_add₀ two_ne_zero, zpow_one]
    ring
  have hmq : (m : ℚ) = 2 ^ f.fraction := by rw [hpower, cast_twoTo]
  rw [hquarter, hmq] at hlow
  have hpow : (1 : ℚ) ≤ 2 ^ f.fraction := one_le_pow₀ one_le_two
  have hplace : f.place (num / den) = e - 1 := by
    rw [place_of_le (e := e - 1) (by rw [hdouble]; linarith)
      (by rw [hdouble, pow_succ]; linarith), max_eq_left (by omega)]
  have hround : RoundsTo ((num / den : ℚ) * 2 ^ (-(e - 1))) (2 * m) := by
    have hle : |(num / den : ℚ) * 2 ^ (-(e - 1)) - (2 * m : ℕ)| ≤ 1 / 2 := by
      rw [hdouble, Nat.cast_mul, Nat.cast_ofNat, hmq, abs_le]
      constructor <;> linarith
    exact hle.lt_or_eq.imp_right fun heq => ⟨heq, by omega⟩
  have hcarry : (e - 1 - f.least).toNat * twoTo f.fraction + 2 * m =
      (e - f.least).toNat * twoTo f.fraction + m := by
    rw [show (e - f.least).toNat = (e - 1 - f.least).toNat + 1 by omega, hpower]
    ring
  rw [f.nearest_eq negative hnum hden (hplace ▸ hround), hplace, hcarry,
    min_eq_left hhas.finite.le]
  rfl

/--
The bits of everything that lies within half a place of a number are those of the number. Its place
is the last that is kept, or the one below.
-/
theorem nearest_of_between {f : BinaryFormat} (negative : Bool) {m : ℕ} {e : ℤ} {num den : ℕ}
    (hm : 0 < m) (hhas : f.Has m e) (hden : 0 < den) (h : f.Between m e (num / den)) :
    f.nearest negative num den = f.pattern negative m e := by
  have hone : (1 : ℚ) ≤ m := by exact_mod_cast hm
  have hq : (0 : ℚ) < num / den := by
    have hpos : (0 : ℚ) < num / den * 2 ^ (-e) := by linarith [f.slack_le m e, h.low]
    exact (mul_pos_iff_of_pos_right (zpow_pos two_pos _)).mp hpos
  have hnum : 0 < num := by
    rw [lt_div_iff₀ (by exact_mod_cast hden), zero_mul] at hq
    exact_mod_cast hq
  by_cases hfull : 2 ^ f.fraction ≤ (num / den : ℚ) * 2 ^ (-e)
  · have hhigh : (num / den : ℚ) * 2 ^ (-e) < 2 ^ (f.fraction + 1) := by
      have hlt : (m : ℚ) + 1 ≤ 2 ^ (f.fraction + 1) := by exact_mod_cast hhas.lt
      linarith [h.high]
    refine nearest_of_place negative hhas hnum hden h ?_
    rw [place_of_le hfull hhigh, max_eq_left hhas.least_le]
  · rw [not_le] at hfull
    obtain heq | hlt := hhas.least_le.eq_or_lt
    · refine nearest_of_place negative hhas hnum hden h ?_
      rw [place_of_lt hq (heq ▸ hfull), heq]
    · exact nearest_of_below_power negative hhas hnum hden h hlt hfull

/-! ## Finite numbers -/

theorem signBit_eq (f : BinaryFormat) : f.signBit = twoTo f.fraction * twoTo f.exponent := by
  rw [signBit, Nat.add_comm]
  exact Nat.pow_add 2 f.fraction f.exponent

/-- A pattern of bits is its sign, its exponent field and its fraction. -/
theorem eq_fields {f : BinaryFormat} {bits : ℕ} (hbits : bits < 2 * f.signBit) :
    bits = (if bits / f.signBit % 2 == 1 then f.signBit else 0) +
      (bits / twoTo f.fraction % twoTo f.exponent * twoTo f.fraction + bits % twoTo f.fraction) := by
  have hsign : bits / f.signBit < 2 := Nat.div_lt_of_lt_mul (Nat.mul_comm 2 _ ▸ hbits)
  have hhigh : bits / twoTo f.fraction / twoTo f.exponent = bits / f.signBit := by
    rw [Nat.div_div_eq_div_mul, signBit_eq]
  have hfraction := Nat.div_add_mod bits (twoTo f.fraction)
  have hfield := Nat.div_add_mod (bits / twoTo f.fraction) (twoTo f.exponent)
  rw [hhigh] at hfield
  have hsplit : f.signBit * (bits / f.signBit) + (bits / twoTo f.fraction % twoTo f.exponent *
      twoTo f.fraction + bits % twoTo f.fraction) = bits := by
    rw [← Nat.add_assoc, signBit_eq, Nat.mul_assoc, Nat.mul_comm _ (twoTo f.fraction), ← Nat.mul_add,
      ← signBit_eq, hfield, hfraction]
  obtain hzero | hone := Nat.le_one_iff_eq_zero_or_eq_one.mp (Nat.le_of_lt_succ hsign)
  · rw [hzero, Nat.mul_zero] at hsplit
    rw [hzero]
    exact hsplit.symm
  · rw [hone, Nat.mul_one] at hsplit
    rw [hone]
    exact hsplit.symm

theorem decode_eq_finite {f : BinaryFormat} {bits : ℕ} (hbits : bits < 2 * f.signBit)
    {negative : Bool} {m : ℕ} {e : ℤ} (h : f.decode bits = .finite negative m e) :
    f.Has m e ∧ bits = f.pattern negative m e := by
  have hfields := eq_fields hbits
  have hlow : bits % twoTo f.fraction < twoTo f.fraction := Nat.mod_lt _ (twoTo_pos _)
  have hfield : bits / twoTo f.fraction % twoTo f.exponent < twoTo f.exponent :=
    Nat.mod_lt _ (twoTo_pos _)
  have hwide := twoTo_succ f.fraction
  simp only [decode] at h
  generalize bits / twoTo f.fraction % twoTo f.exponent = field at *
  generalize bits % twoTo f.fraction = low at *
  split at h
  next htop => split at h <;> cases h
  next htop =>
    have hbelow : field + 1 ≤ f.top := by
      unfold top at *
      omega
    have hfinite : (field + 1) * twoTo f.fraction ≤ f.infinity := Nat.mul_le_mul_right _ hbelow
    split at h
    next hzero =>
      cases h
      rw [hzero, Nat.zero_mul] at hfields
      rw [hzero, Nat.zero_add, Nat.one_mul] at hfinite
      refine ⟨⟨le_rfl, by omega, fun hlt => absurd hlt (lt_irrefl _), ?_⟩, ?_⟩
      · rw [sub_self, Int.toNat_zero]
        omega
      · rw [pattern, sub_self, Int.toNat_zero, Nat.zero_mul]
        exact hfields
    next hpositive =>
      cases h
      have hexponent : (f.least + ((field - 1 : ℕ) : ℤ) - f.least).toNat = field - 1 := by omega
      have hcarry : (field - 1) * twoTo f.fraction + (low + twoTo f.fraction) =
          field * twoTo f.fraction + low := by
        obtain ⟨k, rfl⟩ := Nat.exists_eq_succ_of_ne_zero hpositive
        rw [Nat.succ_sub_one, Nat.succ_mul]
        omega
      refine ⟨⟨by omega, by omega, fun _ => by omega, ?_⟩, ?_⟩
      · rw [hexponent, hcarry]
        rw [Nat.add_mul, Nat.one_mul] at hfinite
        omega
      · rw [pattern, hexponent, hcarry]
        exact hfields

end BinaryFormat

end PixelScene.Number
