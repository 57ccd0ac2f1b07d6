import Mathlib
import PixelScene.Proofs.Number.Shortest

/-!
# Decimals and the numbers nearest to them

The number of a format that is nearest to a decimal depends on the sign and the value of the decimal
only, however its digits are split into mantissa and exponent. So a decimal with the value of the
shortest decimal of a number is read as that number.

* `Decimal.bits_congr`: two decimals of one sign and one value have the same nearest number.
* `toFloat_of_value`: a decimal with the value of the shortest decimal of a double is read as the
  double.
* `isFinite_toFloat`, `isFinite_ofInt`: what is far below the largest double is read as a finite
  double.

Reading a decimal is exact: the quotient of two natural numbers is rounded once
(`BinaryFormat.nearest`). Decimals whose order of magnitude is beyond all doubles are cut off
before, which the value has to be shown to agree with. The results carry what is written of numbers
through texts, in scripts as in JSON.
-/

namespace PixelScene.Number

namespace Decimal

/-! ## Values -/

/-- The magnitude of a decimal. -/
def value (d : Decimal) : ℚ := d.mantissa * 10 ^ d.exponent

theorem value_eq_zero_iff {d : Decimal} : d.value = 0 ↔ d.mantissa = 0 := by
  rw [value, mul_eq_zero, or_iff_left (zpow_pos (by norm_num) _).ne', Nat.cast_eq_zero]

theorem value_nonneg (d : Decimal) : 0 ≤ d.value :=
  mul_nonneg (Nat.cast_nonneg _) (zpow_pos (by norm_num) _).le

/-- The order of magnitude by which very large and very small decimals are told is a fact about the
value. -/
theorem width_add_exponent {d : Decimal} (h : 0 < d.mantissa) :
    (d.width : ℤ) + d.exponent = Int.log 10 d.value + 1 := by
  have hten : (0 : ℚ) < 10 ^ d.exponent := zpow_pos (by norm_num) _
  have hpos : 0 < d.width := Nat.length_toDigits_pos
  have hhigh : d.mantissa < 10 ^ d.width :=
    (Nat.length_toDigits_le_iff (by decide) hpos).mp le_rfl
  have hlow : 10 ^ (d.width - 1) ≤ d.mantissa := by
    obtain hone | hmore := (Nat.succ_le_of_lt hpos).eq_or_lt
    · rw [← hone]
      exact h
    · refine not_lt.mp fun hlt => ?_
      have hle := (Nat.length_toDigits_le_iff (by decide) (by omega)).mpr hlt
      exact absurd hle (by show ¬ d.width ≤ d.width - 1; omega)
  have hvalue : 0 < d.value := mul_pos (by exact_mod_cast h) hten
  have h1 : (10 : ℚ) ^ ((d.width : ℤ) - 1 + d.exponent) ≤ d.value := by
    rw [zpow_add₀ (by norm_num), ← Nat.cast_pred hpos, zpow_natCast]
    exact mul_le_mul_of_nonneg_right (by exact_mod_cast hlow) hten.le
  have h2 : d.value < (10 : ℚ) ^ ((d.width : ℤ) + d.exponent) := by
    rw [zpow_add₀ (by norm_num), zpow_natCast]
    exact mul_lt_mul_of_pos_right (by exact_mod_cast hhigh) hten
  have hle := (Int.zpow_le_iff_le_log (b := 10) (by decide) hvalue).mp h1
  have hlt := (Int.lt_zpow_iff_log_lt (b := 10) (by decide) hvalue).mp h2
  omega

/-! ## Nearest numbers -/

/-- The nearest number as one of a quotient, unless the decimal is very large or very small. -/
theorem exists_bits_eq (f : BinaryFormat) {d : Decimal} (h : 0 < d.mantissa)
    (hlow : tooSmall ≤ Int.log 10 d.value + 1) (hhigh : Int.log 10 d.value + 1 ≤ tooLarge) :
    ∃ num den : ℕ, 0 < den ∧ (num / den : ℚ) = d.value ∧
      d.bits f = f.nearest d.negative num den := by
  simp only [bits, width_add_exponent h, h.ne', false_or, if_neg hlow.not_gt, if_neg hhigh.not_gt]
  split
  next he =>
    refine ⟨_, 1, Nat.one_pos, ?_, rfl⟩
    rw [Nat.cast_mul, cast_tenTo, zpow_toNat 10 he, Nat.cast_one, div_one, value]
  next he =>
    refine ⟨d.mantissa, tenTo (-d.exponent).toNat, Nat.pow_pos (by decide), ?_, rfl⟩
    rw [cast_tenTo, zpow_toNat_neg 10 he, div_inv_eq_mul, value]

/-- The nearest number depends on the sign and the value only. -/
theorem bits_congr (f : BinaryFormat) {d d' : Decimal} (hsign : d.negative = d'.negative)
    (hvalue : d.value = d'.value) : d.bits f = d'.bits f := by
  obtain hzero | hpos := Nat.eq_zero_or_pos d.mantissa
  · have hzero' : d'.mantissa = 0 := by
      rw [← value_eq_zero_iff, ← hvalue, value_eq_zero_iff]
      exact hzero
    simp only [bits, hzero, hzero', true_or, if_true, hsign]
  · have hpos' : 0 < d'.mantissa := by
      refine Nat.pos_of_ne_zero fun hzero' => hpos.ne' ?_
      rw [← value_eq_zero_iff, hvalue, value_eq_zero_iff]
      exact hzero'
    by_cases hlow : tooSmall ≤ Int.log 10 d.value + 1
    · by_cases hhigh : Int.log 10 d.value + 1 ≤ tooLarge
      · obtain ⟨num, den, hden, hratio, heq⟩ := exists_bits_eq f hpos hlow hhigh
        obtain ⟨num', den', hden', hratio', heq'⟩ :=
          exists_bits_eq f hpos' (hvalue ▸ hlow) (hvalue ▸ hhigh)
        rw [heq, heq', hsign]
        exact f.nearest_congr d'.negative hden hden' (by rw [hratio, hratio', hvalue])
      · simp only [bits, width_add_exponent hpos, width_add_exponent hpos', hpos.ne', hpos'.ne',
          false_or, ← hvalue, if_neg hlow.not_gt, if_pos (not_le.mp hhigh), hsign]
    · simp only [bits, width_add_exponent hpos, width_add_exponent hpos', ← hvalue,
        if_pos (Or.inr (not_le.mp hlow)), hsign]

/-- A decimal in the interval of a number is neither very large nor very small. -/
theorem moderate_of_between {f : BinaryFormat} (hf : f.Narrow) {m : ℕ} {e : ℤ} (hm : 0 < m)
    (hhas : f.Has m e) {d : Decimal} (h : f.Between m e d.value) :
    0 < d.mantissa ∧ tooSmall ≤ Int.log 10 d.value + 1 ∧ Int.log 10 d.value + 1 ≤ tooLarge := by
  have hslack := f.slack_le m e
  have hpos : (0 : ℚ) < 2 ^ e := zpow_pos two_pos e
  have hone : (1 : ℚ) ≤ m := by exact_mod_cast hm
  have hlow := h.low
  have hhigh := h.high
  rw [zpow_neg, ← div_eq_mul_inv, le_div_iff₀ hpos] at hlow
  rw [zpow_neg, ← div_eq_mul_inv, div_le_iff₀ hpos] at hhigh
  have hbelow : (10 : ℚ) ^ (-400 : ℤ) ≤ d.value := by
    calc (10 : ℚ) ^ (-400 : ℤ) ≤ 2 ^ (-1075 : ℤ) := ten_zpow_le_two_zpow (by decide)
      _ = 1 / 2 * 2 ^ (-1074 : ℤ) := by
        rw [one_div, ← zpow_neg_one, ← zpow_add₀ two_ne_zero]
        rfl
      _ ≤ 1 / 2 * (m * 2 ^ e) :=
        mul_le_mul_of_nonneg_left (hhas.le_value hf hm) one_half_pos.le
      _ ≤ (m - f.slack m e) * 2 ^ e := by nlinarith
      _ ≤ d.value := hlow
  have habove : d.value < (10 : ℚ) ^ (400 : ℤ) := by
    have hten : (2 : ℚ) ^ (1025 : ℤ) ≤ 10 ^ (400 : ℤ) := by
      have hinv := ten_zpow_le_two_zpow (k := -400) (l := -1025) (by decide)
      rwa [zpow_neg, zpow_neg, inv_le_inv₀ (zpow_pos (by norm_num) _) (zpow_pos two_pos _)] at hinv
    have hlt : (m + 1 / 2 : ℚ) * 2 ^ e < (m + 1) * 2 ^ e := by nlinarith
    exact ((hhigh.trans_lt hlt).trans_le (hhas.value_lt hf)).trans_le hten
  have hvalue : 0 < d.value := (zpow_pos (by norm_num) _).trans_le hbelow
  have hlog1 := (Int.zpow_le_iff_le_log (b := 10) (by decide) hvalue).mp hbelow
  have hlog2 := (Int.lt_zpow_iff_log_lt (b := 10) (by decide) hvalue).mp habove
  refine ⟨Nat.pos_of_ne_zero fun hzero => hvalue.ne' (value_eq_zero_iff.mpr hzero), ?_, ?_⟩
  · unfold tooSmall
    omega
  · unfold tooLarge
    omega

/-- A decimal in the interval of a number is read as that number. -/
theorem bits_of_between {f : BinaryFormat} (hf : f.Narrow) {m : ℕ} {e : ℤ} (hm : 0 < m)
    (hhas : f.Has m e) {d : Decimal} (h : f.Between m e d.value) :
    d.bits f = f.pattern d.negative m e := by
  obtain ⟨hmantissa, hlow, hhigh⟩ := moderate_of_between hf hm hhas h
  obtain ⟨num, den, hden, hratio, heq⟩ := exists_bits_eq f hmantissa hlow hhigh
  rw [heq]
  exact f.nearest_of_between d.negative hm hhas hden (hratio ▸ h)

end Decimal

/-! ## Finite doubles -/

namespace BinaryFormat

/-- What bits below those of infinity stand for, with a sign. -/
theorem decode_add {f : BinaryFormat} (negative : Bool) {b : ℕ} (h : b < f.infinity) :
    f.decode ((if negative then f.signBit else 0) + b) =
      if b / twoTo f.fraction = 0 then .finite negative (b % twoTo f.fraction) f.least
      else .finite negative (b % twoTo f.fraction + twoTo f.fraction)
        (f.least + (b / twoTo f.fraction - 1 : ℕ)) := by
  have hfraction : 0 < twoTo f.fraction := twoTo_pos _
  have hfield : b / twoTo f.fraction < f.top := (Nat.div_lt_iff_lt_mul hfraction).mpr h
  have htop : f.top < twoTo f.exponent := Nat.sub_lt (twoTo_pos _) Nat.one_pos
  have hbelow : b < f.signBit := by
    rw [signBit_eq, Nat.mul_comm]
    exact h.trans_le (Nat.mul_le_mul_right _ htop.le)
  have hmod : b / twoTo f.fraction % twoTo f.exponent = b / twoTo f.fraction :=
    Nat.mod_eq_of_lt (hfield.trans htop)
  have hsplit : ((if negative then f.signBit else 0) + b) / twoTo f.fraction % twoTo f.exponent =
      b / twoTo f.fraction := by
    cases negative with
    | false => rw [if_neg Bool.false_ne_true, Nat.zero_add, hmod]
    | true => rw [if_pos rfl, signBit_eq, Nat.mul_add_div hfraction, Nat.add_mod_left, hmod]
  have hlow : ((if negative then f.signBit else 0) + b) % twoTo f.fraction =
      b % twoTo f.fraction := by
    cases negative with
    | false => rw [if_neg Bool.false_ne_true, Nat.zero_add]
    | true => rw [if_pos rfl, signBit_eq, Nat.mul_add_mod]
  have hsign : (((if negative then f.signBit else 0) + b) / f.signBit % 2 == 1) = negative := by
    cases negative with
    | false =>
      rw [if_neg Bool.false_ne_true, Nat.zero_add, Nat.div_eq_of_lt hbelow]
      rfl
    | true =>
      rw [if_pos rfl, Nat.add_div_left b (Nat.zero_lt_of_lt hbelow), Nat.div_eq_of_lt hbelow]
      rfl
  simp only [decode, hsplit, hlow, hsign, if_neg hfield.ne]

/-- Bits below those of infinity, with a sign, stand for a finite number. -/
theorem isFinite_decode {f : BinaryFormat} (negative : Bool) {b : ℕ} (h : b < f.infinity) :
    (f.decode ((if negative then f.signBit else 0) + b)).isFinite = true := by
  rw [decode_add negative h]
  split <;> rfl

/-- What a number rounds to at its own place has at most the width of a mantissa. -/
theorem le_of_roundsTo {f : BinaryFormat} {q : ℚ} {n : ℕ} (h : RoundsTo (q * 2 ^ (-f.place q)) n) :
    n ≤ twoTo f.fraction * 2 := by
  have hlt : q < 2 ^ (f.place q + (f.fraction + 1 : ℕ)) := by
    refine (Int.lt_zpow_succ_log_self one_lt_two q).trans_le ?_
    exact zpow_le_zpow_right₀ one_le_two (by unfold place; omega)
  rw [zpow_add₀ two_ne_zero, zpow_natCast, ← div_lt_iff₀' (zpow_pos two_pos _), div_eq_mul_inv,
    ← zpow_neg] at hlt
  have hround := (abs_le.mp h.within).1
  have hle : (n : ℚ) < 2 ^ (f.fraction + 1) + 1 := by linarith
  have hle' : n < 2 ^ (f.fraction + 1) + 1 := by exact_mod_cast hle
  exact Nat.le_of_lt_succ hle'

/-- What a number rounds to at its own place has the full width of a mantissa, unless that place is
the last of all. -/
theorem full_of_roundsTo {f : BinaryFormat} {q : ℚ} {n : ℕ} (hq : 0 < q)
    (h : RoundsTo (q * 2 ^ (-f.place q)) n) (hplace : f.least < f.place q) :
    twoTo f.fraction ≤ n := by
  have hlog : f.place q = Int.log 2 q - f.fraction := by
    unfold place at hplace ⊢
    omega
  refine h.ge_of_ge ?_
  rw [cast_twoTo, hlog, neg_sub, zpow_sub₀ two_ne_zero, zpow_natCast, mul_div_left_comm]
  exact le_mul_of_one_le_right (by positivity)
    ((one_le_div (zpow_pos two_pos _)).mpr (Int.zpow_log_le_self one_lt_two hq))

/-- A number that is far below the reach of a format is rounded at its own place. -/
theorem exists_nearest_eq {f : BinaryFormat} (negative : Bool) {num den : ℕ} (hnum : 0 < num)
    (hden : 0 < den) (htop : 2 < f.top)
    (h : (num / den : ℚ) < 2 ^ (f.least + f.fraction + f.top - 2)) :
    ∃ n, RoundsTo (num / den * 2 ^ (-f.place (num / den))) n ∧
      (f.place (num / den) - f.least).toNat * twoTo f.fraction + n < f.infinity ∧
      f.nearest negative num den = f.pattern negative n (f.place (num / den)) := by
  have hfraction : 0 < twoTo f.fraction := twoTo_pos _
  have hround := scaledQuotient_roundsTo num hden (-f.place (num / den))
  have hplace : f.place (num / den) + 3 ≤ f.least + f.top := by
    have hq : (0 : ℚ) < num / den := div_pos (by exact_mod_cast hnum) (by exact_mod_cast hden)
    have hlog := (Int.lt_zpow_iff_log_lt (b := 2) one_lt_two hq).mp h
    unfold place
    omega
  have hle : ((f.place (num / den) - f.least).toNat + 3) * twoTo f.fraction ≤ f.infinity :=
    Nat.mul_le_mul_right _ (by omega)
  have hwidth := le_of_roundsTo hround
  rw [Nat.add_mul] at hle
  have hfinite : (f.place (num / den) - f.least).toNat * twoTo f.fraction +
      scaledQuotient num den (-f.place (num / den)) < f.infinity := by omega
  refine ⟨_, hround, hfinite, ?_⟩
  rw [f.nearest_eq negative hnum hden hround, min_eq_left hfinite.le, pattern]

end BinaryFormat

/-- The double of a pattern of bits that stand for a finite number has these bits. -/
theorem exact_ofBits {bits : ℕ} (hbits : bits < 2 ^ 64)
    (h : (double.decode bits).isFinite = true) :
    exact (Float.ofBits (UInt64.ofNat bits)) = double.decode bits := by
  have hnat : (UInt64.ofNat bits).toNat = bits := UInt64.toNat_ofNat_of_lt' hbits
  have hfield : bits / 2 ^ 52 % 2 ^ 11 ≠ 2047 := by
    intro htop
    simp only [BinaryFormat.decode] at h
    rw [if_pos (show bits / twoTo double.fraction % twoTo double.exponent = double.top from htop)] at h
    split at h <;> cases h
  have hvalid : Float.Model.Format.binary64.Valid (UInt64.ofNat bits).toBitVec := by
    refine ⟨fun hexponent => absurd ?_ hfield⟩
    have hnumber := congrArg BitVec.toNat hexponent
    simpa [Float.Model.UnpackedFloat.unpackExponent, hnat, Nat.shiftRight_eq_div_pow] using hnumber
  have hx : Float.ofBits (UInt64.ofNat bits) = ⟨⟨UInt64.ofNat bits, hvalid⟩⟩ :=
    Float.ofBits_toBits ⟨⟨UInt64.ofNat bits, hvalid⟩⟩
  rw [hx]
  show double.decode (UInt64.ofNat bits).toNat = _
  rw [hnat]

theorem exact_ofBits_add (negative : Bool) {b : ℕ} (h : b < double.infinity) :
    exact (Float.ofBits (UInt64.ofNat ((if negative then double.signBit else 0) + b))) =
      double.decode ((if negative then double.signBit else 0) + b) := by
  have hinfinity : double.infinity < 2 ^ 63 := by decide
  have hsign : double.signBit = 2 ^ 63 := rfl
  exact exact_ofBits (by split <;> omega) (double.isFinite_decode negative h)

theorem double_reach : double.least + double.fraction + double.top - 2 = 1023 := by decide

/-- What is far below the largest double is read as a finite number. -/
theorem isFinite_nearest (negative : Bool) {num den : ℕ} (hden : 0 < den)
    (h : (num / den : ℚ) < 2 ^ (1023 : ℤ)) :
    (exact (Float.ofBits (UInt64.ofNat (double.nearest negative num den)))).isFinite = true := by
  obtain ⟨b, hb, heq⟩ : ∃ b < double.infinity,
      double.nearest negative num den = (if negative then double.signBit else 0) + b := by
    obtain rfl | hnum := Nat.eq_zero_or_pos num
    · exact ⟨0, by decide, rfl⟩
    · obtain ⟨n, -, hfinite, heq⟩ :=
        double.exists_nearest_eq negative hnum hden (by decide) (double_reach ▸ h)
      exact ⟨_, hfinite, heq⟩
  rw [heq, exact_ofBits_add negative hb]
  exact double.isFinite_decode negative hb

theorem isFinite_toFloat {d : Decimal} (h : d.value < 2 ^ (1023 : ℤ)) :
    (exact d.toFloat).isFinite = true := by
  have hzero : (exact (Float.ofBits (UInt64.ofNat (double.nearest d.negative 0 1)))).isFinite =
      true := by
    refine isFinite_nearest d.negative Nat.one_pos ?_
    rw [Nat.cast_zero, zero_div]
    exact zpow_pos two_pos _
  unfold Decimal.toFloat
  obtain hmantissa | hpos := Nat.eq_zero_or_pos d.mantissa
  · rw [Decimal.bits, if_pos (.inl hmantissa)]
    exact hzero
  · have hvalue : 0 < d.value :=
      d.value_nonneg.lt_of_ne fun hzero => hpos.ne' (Decimal.value_eq_zero_iff.mp hzero.symm)
    by_cases hlow : Decimal.tooSmall ≤ Int.log 10 d.value + 1
    · have hten : d.value < 10 ^ (399 : ℤ) := by
        have hinv := ten_zpow_le_two_zpow (k := -399) (l := -1023) (by decide)
        rw [zpow_neg, zpow_neg, inv_le_inv₀ (zpow_pos (by norm_num) _) (zpow_pos two_pos _)] at hinv
        exact h.trans_le hinv
      have hlog := (Int.lt_zpow_iff_log_lt (b := 10) (by decide) hvalue).mp hten
      obtain ⟨num, den, hden, hratio, heq⟩ := Decimal.exists_bits_eq double hpos hlow
        (by unfold Decimal.tooLarge; omega)
      rw [heq]
      exact isFinite_nearest d.negative hden (hratio ▸ h)
    · rw [Decimal.bits, Decimal.width_add_exponent hpos, if_pos (.inr (not_le.mp hlow))]
      exact hzero

theorem isFinite_ofInt {n : ℤ} (h : n.natAbs < 2 ^ 64) : (exact (ofInt n)).isFinite = true := by
  rw [ofInt, ofExact, BinaryFormat.encode, if_pos le_rfl, Int.toNat_zero, twoTo_zero, Nat.mul_one]
  refine isFinite_nearest _ Nat.one_pos ?_
  rw [Nat.cast_one, div_one]
  calc (n.natAbs : ℚ) < 2 ^ (64 : ℤ) := by exact_mod_cast h
    _ ≤ 2 ^ (1023 : ℤ) := zpow_le_zpow_right₀ one_le_two (by decide)

/-! ## The shortest decimal of a number -/

/-- The decimal that is written for a finite number of a format. -/
def shortestDecimal (tie : Tie) (f : BinaryFormat) (negative : Bool) (m : ℕ) (e : ℤ) : Decimal :=
  if m = 0 then ⟨negative, 0, 0⟩
  else ⟨negative, (shortest tie f m e).1, (shortest tie f m e).2⟩

section ShortestDecimal

variable {f : BinaryFormat} {m : ℕ} {e : ℤ} (tie : Tie) (negative : Bool)

theorem negative_shortestDecimal : (shortestDecimal tie f negative m e).negative = negative := by
  unfold shortestDecimal
  split <;> rfl

theorem shortestDecimal_between (hf : f.Narrow) (hm : 0 < m) (hhas : f.Has m e) :
    f.Between m e (shortestDecimal tie f negative m e).value := by
  rw [shortestDecimal, if_neg hm.ne']
  exact between_shortest tie hf hm hhas

/-- The bits of zero are its sign. -/
theorem BinaryFormat.Has.pattern_zero (h : f.Has 0 e) :
    f.pattern negative 0 e = if negative then f.signBit else 0 := by
  have he : e = f.least := by
    refine (h.least_le.eq_or_lt.resolve_right fun hlt => ?_).symm
    exact (twoTo_pos f.fraction).ne' (Nat.le_zero.mp (h.full hlt))
  rw [BinaryFormat.pattern, he, sub_self, Int.toNat_zero, Nat.zero_mul]
  rfl

/-- The nearest number to the shortest decimal of a number is that number. -/
theorem bits_shortestDecimal (hf : f.Narrow) (hhas : f.Has m e) :
    (shortestDecimal tie f negative m e).bits f = f.pattern negative m e := by
  obtain rfl | hm := Nat.eq_zero_or_pos m
  · rw [hhas.pattern_zero, shortestDecimal, if_pos rfl, Decimal.bits, if_pos (.inl rfl)]
    rfl
  · rw [Decimal.bits_of_between hf hm hhas (shortestDecimal_between tie negative hf hm hhas),
      negative_shortestDecimal]

/-- A decimal with the value of the shortest decimal of a double is read as this double. -/
theorem toFloat_of_value {x : Float} (hx : exact x = .finite negative m e) {d : Decimal}
    (hsign : d.negative = negative)
    (hvalue : d.value = (shortestDecimal tie double negative m e).value) : d.toFloat = x := by
  obtain ⟨hhas, hbits⟩ := BinaryFormat.decode_eq_finite (f := double) x.toBits.toNat_lt hx
  rw [Decimal.toFloat, Decimal.bits_congr double
    (hsign.trans (negative_shortestDecimal tie negative).symm) hvalue,
    bits_shortestDecimal tie negative double_narrow hhas, ← hbits, UInt64.ofNat_toNat,
    Float.ofBits_toBits]

/-- The shortest decimal of a single is far below the largest double. -/
theorem value_shortestDecimal_lt {x : Float32} (hx : exactSingle x = .finite negative m e) :
    (shortestDecimal tie single negative m e).value < 2 ^ (1023 : ℤ) := by
  obtain ⟨hhas, -⟩ := BinaryFormat.decode_eq_finite (f := single) x.toBits.toNat_lt hx
  obtain rfl | hm := Nat.eq_zero_or_pos m
  · rw [shortestDecimal, if_pos rfl, Decimal.value_eq_zero_iff.mpr rfl]
    exact zpow_pos two_pos _
  · have hpos : (0 : ℚ) < 2 ^ e := zpow_pos two_pos e
    have hhigh := (shortestDecimal_between tie negative single_narrow hm hhas).high
    rw [zpow_neg, ← div_eq_mul_inv, div_le_iff₀ hpos] at hhigh
    have hreach : e < 106 := hhas.lt_reach
    have hmantissa : (m : ℚ) < 2 ^ 24 := hhas.mantissa_lt
    calc (shortestDecimal tie single negative m e).value ≤ (m + 1 / 2) * 2 ^ e := hhigh
      _ < 2 ^ 25 * 2 ^ e := by
        refine mul_lt_mul_of_pos_right ?_ hpos
        linarith
      _ = 2 ^ (25 + e) := by
        rw [zpow_add₀ two_ne_zero]
        rfl
      _ ≤ 2 ^ (1023 : ℤ) := zpow_le_zpow_right₀ one_le_two (by omega)

end ShortestDecimal

end PixelScene.Number
