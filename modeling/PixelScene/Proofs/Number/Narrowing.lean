import Mathlib
import PixelScene.Proofs.Number.Decimal

/-!
# Rounding twice

A text is read as a single in two steps: as the double nearest to it, and that as the single nearest
to the double. Two steps may lead elsewhere than one. A text that lies next to the border between
two singles may become the double on the border, and from there the even one of the two is taken,
which need not be the one that the text was written for.

* `BinaryFormat.Between.of_roundsTo`: rounding to fine places stays in the interval of a number, up
  to its borders.
* `Decimal.exists_exact_toFloat`: the exact value of the double nearest to a decimal.
* `narrow_toFloat_shortestDecimal`: a single with an even mantissa, to which its borders belong, is
  what its shortest decimal is read as.

The numbers in question are those of a camera: the engine keeps them in single precision, writes the
shortest decimal of each, and reads it as a double that it narrows. The last result is why a
recording with its camera at such numbers is found unchanged (`Rehearse.verdict_of_isEven`); all
other lemmas of this file are the way to it. For odd mantissas no such law holds, and a check has to
ask the number.
-/

namespace PixelScene.Number

namespace BinaryFormat

variable {f : BinaryFormat} {m n : ℕ} {e p : ℤ}

/-! ## Fine places -/

/-- The borders of the interval of a number are whole at places two below its last, and rounding
does not go beyond what is whole. So it stays in the interval, if that has its borders. -/
theorem Between.of_roundsTo {q : ℚ} (hm : 0 < m) (heven : m % 2 = 0) (hp : p + 2 ≤ e)
    (h : f.Between m e q) (hround : RoundsTo (q * 2 ^ (-p)) n) : f.Between m e (n * 2 ^ p) := by
  obtain ⟨k, hk⟩ : ∃ k : ℕ, e - p = k + 2 := ⟨(e - p - 2).toNat, by omega⟩
  have hfine : (2 : ℚ) ^ (e - p) = 4 * 2 ^ k := by
    rw [hk, zpow_add₀ two_ne_zero, zpow_natCast]
    norm_num [mul_comm]
  have hpos : (0 : ℚ) < 4 * 2 ^ k := by positivity
  have hscale : q * 2 ^ (-p) = q * 2 ^ (-e) * (4 * 2 ^ k) := by
    rw [← hfine, mul_assoc, ← zpow_add₀ two_ne_zero]
    congr 2
    ring
  have hback : (n : ℚ) * 2 ^ p * 2 ^ (-e) = n / (4 * 2 ^ k) := by
    rw [← hfine, div_eq_mul_inv, ← zpow_neg, mul_assoc, ← zpow_add₀ two_ne_zero]
    congr 2
    ring
  obtain ⟨s, hs, hslack⟩ : ∃ s : ℕ, s ≤ 4 ∧ f.slack m e = s / 4 := by
    unfold slack
    split
    · exact ⟨1, by decide, by norm_num⟩
    · exact ⟨2, by decide, by norm_num⟩
  rw [hscale] at hround
  have hhigh : n ≤ (4 * m + 2) * 2 ^ k := by
    refine hround.le_of_le ((mul_le_mul_of_nonneg_right h.high hpos.le).trans_eq ?_)
    push_cast
    ring
  have hlow : (4 * m - s) * 2 ^ k ≤ n := by
    refine hround.ge_of_ge (le_trans (Eq.le ?_) (mul_le_mul_of_nonneg_right h.low hpos.le))
    rw [hslack, Nat.cast_mul, Nat.cast_sub (by omega)]
    push_cast
    ring
  refine ⟨?_, ?_, fun hodd => absurd hodd (by omega)⟩
  · rw [hback, hslack, le_div_iff₀ hpos]
    have hlow' : (((4 * m - s) * 2 ^ k : ℕ) : ℚ) ≤ n := by exact_mod_cast hlow
    rw [Nat.cast_mul, Nat.cast_sub (by omega)] at hlow'
    refine le_trans (Eq.le ?_) hlow'
    push_cast
    ring
  · rw [hback, div_le_iff₀ hpos]
    have hhigh' : (n : ℚ) ≤ (((4 * m + 2) * 2 ^ k : ℕ) : ℚ) := by exact_mod_cast hhigh
    refine hhigh'.trans_eq ?_
    push_cast
    ring

/-! ## Patterns of bits -/

/-- The bits of a number stand for it. A mantissa that is one bit too wide carries into the
exponent, and the value stays. -/
theorem exists_decode_pattern (negative : Bool) (hleast : f.least ≤ p)
    (hwidth : n ≤ twoTo f.fraction * 2) (hfull : f.least < p → twoTo f.fraction ≤ n)
    (hfinite : (p - f.least).toNat * twoTo f.fraction + n < f.infinity) :
    ∃ m e, f.decode (f.pattern negative n p) = .finite negative m e ∧
      (m * 2 ^ e : ℚ) = n * 2 ^ p := by
  have hfraction : 0 < twoTo f.fraction := twoTo_pos _
  obtain ⟨k, rfl⟩ : ∃ k : ℕ, p = f.least + k := ⟨(p - f.least).toNat, by omega⟩
  rw [add_sub_cancel_left, Int.toNat_natCast] at hfinite
  rw [pattern, add_sub_cancel_left, Int.toNat_natCast, decode_add negative hfinite]
  obtain hlt | hge := Nat.lt_or_ge n (twoTo f.fraction)
  · have hk : k = 0 := by
      by_contra hne
      have := hfull (by omega)
      omega
    subst hk
    rw [Nat.zero_mul, Nat.zero_add, if_pos (Nat.div_eq_of_lt hlt), Nat.mod_eq_of_lt hlt]
    exact ⟨n, f.least, rfl, by rw [Nat.cast_zero, add_zero]⟩
  obtain ⟨r, rfl⟩ := Nat.exists_eq_add_of_le hge
  obtain hr | hr := Nat.lt_or_ge r (twoTo f.fraction)
  · have hbits : k * twoTo f.fraction + (twoTo f.fraction + r) = twoTo f.fraction * (k + 1) + r := by
      ring
    rw [hbits, Nat.mul_add_div hfraction, Nat.div_eq_of_lt hr, Nat.mul_add_mod, Nat.mod_eq_of_lt hr,
      if_neg (by omega)]
    exact ⟨_, _, rfl, by rw [add_comm r]; rfl⟩
  · have hcarry : r = twoTo f.fraction := by omega
    subst hcarry
    have hbits : k * twoTo f.fraction + (twoTo f.fraction + twoTo f.fraction) =
        twoTo f.fraction * (k + 2) + 0 := by ring
    rw [hbits, Nat.mul_add_div hfraction, Nat.zero_div, Nat.mul_add_mod, Nat.zero_mod,
      if_neg (by omega)]
    refine ⟨_, _, rfl, ?_⟩
    have hnext : (2 : ℚ) ^ (f.least + ((k + 1 : ℕ) : ℤ)) = 2 ^ (f.least + k) * 2 := by
      rw [Nat.cast_succ, ← add_assoc, zpow_add_one₀ two_ne_zero]
    show ((0 + twoTo f.fraction : ℕ) : ℚ) * 2 ^ (f.least + ((k + 1 : ℕ) : ℤ)) = _
    rw [hnext, Nat.zero_add]
    push_cast
    ring

/-- What lies in the interval of a number is encoded as that number. -/
theorem encode_of_between (negative : Bool) {m' : ℕ} {e' : ℤ} (hm : 0 < m) (hhas : f.Has m e)
    (h : f.Between m e (m' * 2 ^ e')) :
    f.encode (.finite negative m' e') = f.pattern negative m e := by
  rw [encode]
  split
  next he =>
    refine f.nearest_of_between negative hm hhas Nat.one_pos ?_
    rw [Nat.cast_mul, cast_twoTo, zpow_toNat 2 he, Nat.cast_one, div_one]
    exact h
  next he =>
    refine f.nearest_of_between negative hm hhas (twoTo_pos _) ?_
    rw [cast_twoTo, zpow_toNat_neg 2 he, div_inv_eq_mul]
    exact h

end BinaryFormat

/-! ## Reading a single -/

/-- The double nearest to a decimal: rounded to a natural number at its own place. -/
theorem Decimal.exists_exact_toFloat {d : Decimal} (hpos : 0 < d.mantissa)
    (hlow : tooSmall ≤ Int.log 10 d.value + 1) (hhigh : Int.log 10 d.value + 1 ≤ tooLarge)
    (hbelow : d.value < 2 ^ (1023 : ℤ)) :
    ∃ m e n, exact d.toFloat = .finite d.negative m e ∧
      RoundsTo (d.value * 2 ^ (-double.place d.value)) n ∧
      (m * 2 ^ e : ℚ) = n * 2 ^ double.place d.value := by
  have hvalue : 0 < d.value :=
    d.value_nonneg.lt_of_ne fun hzero => hpos.ne' (value_eq_zero_iff.mp hzero.symm)
  obtain ⟨num, den, hden, hratio, heq⟩ := exists_bits_eq double hpos hlow hhigh
  have hnum : 0 < num := by
    rw [← hratio, lt_div_iff₀ (by exact_mod_cast hden), zero_mul] at hvalue
    exact_mod_cast hvalue
  obtain ⟨n, hround, hfinite, hnearest⟩ := double.exists_nearest_eq d.negative hnum hden
    (by decide) (by rw [double_reach, hratio]; exact hbelow)
  rw [hratio] at hround hfinite hnearest
  have hbits : d.bits double = double.pattern d.negative n (double.place d.value) := by
    rw [heq, hnearest]
  obtain ⟨m, e, hdecode, hsame⟩ := BinaryFormat.exists_decode_pattern d.negative
    (le_max_right _ _) (BinaryFormat.le_of_roundsTo hround) (BinaryFormat.full_of_roundsTo hvalue hround)
    hfinite
  refine ⟨m, e, n, ?_, hround, hsame⟩
  rw [toFloat, hbits, ← hdecode]
  exact exact_ofBits_add d.negative hfinite

section Narrow

variable {x : Float32} {negative : Bool} {m : ℕ} {e : ℤ} (tie : Tie)

/-- A double in the interval of a single is narrowed to that single. -/
theorem narrow_of_between {y : Float} {m' : ℕ} {e' : ℤ} (hx : exactSingle x = .finite negative m e)
    (hm : 0 < m) (hy : exact y = .finite negative m' e') (h : single.Between m e (m' * 2 ^ e')) :
    narrow y = x := by
  obtain ⟨hhas, hbits⟩ := BinaryFormat.decode_eq_finite (f := single) x.toBits.toNat_lt hx
  rw [narrow, singleOfExact, hy, BinaryFormat.encode_of_between negative hm hhas h, ← hbits,
    UInt32.ofNat_toNat, Float32.ofBits_toBits]

/-- The last place of a double that is about as large as a single is far below that of the
single. -/
theorem place_add_two_le {q : ℚ} (hm : 0 < m) (hhas : single.Has m e) (h : single.Between m e q) :
    double.place q + 2 ≤ e := by
  have hpos : (0 : ℚ) < 2 ^ e := zpow_pos two_pos e
  have hslack := single.slack_le m e
  have hone : (1 : ℚ) ≤ m := by exact_mod_cast hm
  have hlow := h.low
  have hhigh := h.high
  rw [zpow_neg, ← div_eq_mul_inv, le_div_iff₀ hpos] at hlow
  rw [zpow_neg, ← div_eq_mul_inv, div_le_iff₀ hpos] at hhigh
  have hq : 0 < q := (mul_pos (by linarith) hpos).trans_le hlow
  have hbelow : q < 2 ^ (25 + e) := by
    have hmantissa : (m : ℚ) < 2 ^ 24 := hhas.mantissa_lt
    calc q ≤ (m + 1 / 2) * 2 ^ e := hhigh
      _ < 2 ^ 25 * 2 ^ e := mul_lt_mul_of_pos_right (by linarith) hpos
      _ = 2 ^ (25 + e) := by
        rw [zpow_add₀ two_ne_zero]
        rfl
  have hlog := (Int.lt_zpow_iff_log_lt (b := 2) one_lt_two hq).mp hbelow
  have hleast : single.least ≤ e := hhas.least_le
  have hsingle : single.least = -149 := by decide
  have hdouble : double.least = -1074 := by decide
  have hfraction : (double.fraction : ℤ) = 52 := rfl
  unfold BinaryFormat.place
  omega

/-- **A single with an even mantissa is what its shortest decimal is read as**, through the double
that is nearest to the decimal. -/
theorem narrow_toFloat_shortestDecimal (hx : exactSingle x = .finite negative m e)
    (heven : m % 2 = 0) : narrow (shortestDecimal tie single negative m e).toFloat = x := by
  obtain ⟨hhas, hbits⟩ := BinaryFormat.decode_eq_finite (f := single) x.toBits.toNat_lt hx
  obtain rfl | hm := Nat.eq_zero_or_pos m
  · have hzero : 0 < double.infinity := by decide
    have hexact : exact (shortestDecimal tie single negative 0 e).toFloat =
        .finite negative 0 double.least := by
      rw [shortestDecimal, if_pos rfl, Decimal.toFloat, Decimal.bits, if_pos (.inl rfl)]
      exact (exact_ofBits_add negative hzero).trans (BinaryFormat.decode_add negative hzero)
    have hencode : single.encode (.finite negative 0 double.least) =
        if negative then single.signBit else 0 := rfl
    rw [narrow, singleOfExact, hexact, hencode, ← hhas.pattern_zero, ← hbits, UInt32.ofNat_toNat,
      Float32.ofBits_toBits]
  · have hbetween := shortestDecimal_between tie negative single_narrow hm hhas
    obtain ⟨hpos, hlow, hhigh⟩ := Decimal.moderate_of_between single_narrow hm hhas hbetween
    obtain ⟨m', e', n, hexact, hround, hvalue⟩ := Decimal.exists_exact_toFloat hpos hlow hhigh
      (value_shortestDecimal_lt tie negative hx)
    rw [negative_shortestDecimal] at hexact
    refine narrow_of_between hx hm hexact (hvalue ▸ ?_)
    exact hbetween.of_roundsTo hm heven (place_add_two_le hm hhas hbetween) hround

end Narrow

end PixelScene.Number
