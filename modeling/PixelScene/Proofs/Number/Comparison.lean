import Mathlib
import PixelScene.Proofs.Number.Nearest

/-!
# Comparing doubles

Doubles are compared by what they unpack to: a sign, a mantissa and an exponent, or a special case.
This is nothing but the exact value of the double.

* `unpack_eq`, `lt_iff`: comparing doubles compares their exact values.
* `not_lt_one_iff`: a double is not below one if it is not a number, or has a positive integer part.

Comparisons of doubles are defined by what core unpacks of the bits. The bounds that the engine
checks are comparisons with constants, and what a number becomes afterwards is its integer part,
which is defined by its exact value; so the two have to be brought together.
-/

namespace PixelScene.Number

open Float.Model (Format UnpackedFloat)
open Float.Model.UnpackedFloat (Sign unpackExponent unpackMantissa unpackSign)

/-! ## Unpacking -/

/-- A sign as comparisons see it. -/
def signOf (negative : Bool) : Sign := if negative then .negative else .positive

/-- A value as comparisons see it. -/
def Exact.unpacked : Exact → UnpackedFloat
  | .notNumber => .notANumber
  | .infinite negative => .infinity (signOf negative)
  | .finite negative m e =>
    if h : 0 < m then .finite (signOf negative) m e h else .zero (signOf negative)

section Unpacking

variable (b : BitVec Format.binary64.numBits)

theorem toNat_unpackMantissa : (unpackMantissa b).toNat = b.toNat % twoTo 52 := by
  simp [unpackMantissa, twoTo]

theorem toNat_unpackExponent : (unpackExponent b).toNat = b.toNat / twoTo 52 % twoTo 11 := by
  simp [unpackExponent, twoTo, Nat.shiftRight_eq_div_pow]

theorem toNat_unpackSign : (unpackSign b).toNat = b.toNat / twoTo 63 % 2 := by
  simp [unpackSign, twoTo, Nat.shiftRight_eq_div_pow]

theorem ofBitVec_unpackSign :
    Sign.ofBitVec (unpackSign b) = signOf ((unpackSign b).toNat == 1) := by
  obtain h | h := BitVec.eq_zero_or_eq_one (unpackSign b) <;> rw [h] <;> rfl

/-- The mantissa of a normal number, with the bit that is not written. -/
theorem toNat_implicit_append (m : BitVec 52) : (1#1 ++ m).toNat = m.toNat + twoTo 52 := by
  rw [BitVec.toNat_append, ← Nat.shiftLeft_add_eq_or_of_lt m.isLt, Nat.add_comm]
  rfl

/-- The exact value of a pattern of bits by its three fields. -/
theorem decode_eq_fields : double.decode b.toNat =
    if (unpackExponent b).toNat = 2047 then
      if (unpackMantissa b).toNat = 0 then .infinite ((unpackSign b).toNat == 1) else .notNumber
    else if (unpackExponent b).toNat = 0 then
      .finite ((unpackSign b).toNat == 1) (unpackMantissa b).toNat (-1074)
    else .finite ((unpackSign b).toNat == 1) ((unpackMantissa b).toNat + twoTo 52)
      (-1074 + ((unpackExponent b).toNat - 1 : Nat)) := by
  rw [toNat_unpackMantissa, toNat_unpackExponent, toNat_unpackSign]
  rfl

/-- **What a double unpacks to is its exact value.** -/
theorem unpack_eq :
    UnpackedFloat.unpack Format.binary64 b = (double.decode b.toNat).unpacked := by
  have hfull : unpackExponent b = -1#11 ↔ (unpackExponent b).toNat = 2047 := BitVec.toNat_inj.symm
  have hnone : unpackExponent b = 0#11 ↔ (unpackExponent b).toNat = 0 := BitVec.toNat_inj.symm
  have hzero : unpackMantissa b = 0#52 ↔ (unpackMantissa b).toNat = 0 := BitVec.toNat_inj.symm
  rw [decode_eq_fields, UnpackedFloat.unpack]
  dsimp only
  rw [ofBitVec_unpackSign]
  by_cases hexponent : unpackExponent b = -1#11
  · rw [if_pos hexponent, if_pos (hfull.mp hexponent)]
    by_cases hmantissa : unpackMantissa b = 0#52
    · rw [if_pos hmantissa, if_pos (hzero.mp hmantissa), Exact.unpacked]
    · rw [if_neg hmantissa, if_neg (mt hzero.mpr hmantissa), Exact.unpacked]
  · rw [if_neg hexponent, if_neg (mt hfull.mpr hexponent)]
    by_cases hsmall : unpackExponent b = 0#11
    · rw [if_pos hsmall, if_pos (hnone.mp hsmall), Exact.unpacked]
      by_cases hmantissa : unpackMantissa b = 0#52
      · rw [dif_pos hmantissa, dif_neg (by rw [hzero.mp hmantissa]; decide)]
      · rw [dif_neg hmantissa, dif_pos (Nat.pos_of_ne_zero (mt hzero.mpr hmantissa)),
          hnone.mp hsmall]
        rfl
    · have hpos := Nat.pos_of_ne_zero (mt hnone.mpr hsmall)
      have hbias : (Format.binary64.exponentBias : Int) = 1023 := rfl
      rw [if_neg hsmall, if_neg (mt hnone.mpr hsmall), Exact.unpacked,
        dif_pos (Nat.add_pos_right _ (twoTo_pos 52))]
      congr 1
      · exact toNat_implicit_append _
      · rw [hbias]
        omega

end Unpacking

/-! ## Comparing -/

/-- Doubles are compared by their exact values. -/
theorem lt_iff (x y : Float) :
    x < y ↔ (exact x).unpacked.compare (exact y).unpacked = some .lt := by
  have hx : x.toModel.unpack = (exact x).unpacked := unpack_eq x.toBits.toBitVec
  have hy : y.toModel.unpack = (exact y).unpacked := unpack_eq y.toBits.toBitVec
  rw [← hx, ← hy]
  exact decide_eq_true_iff.trans beq_iff_eq

/-- One has its highest bit as its integer part. -/
theorem exact_one : exact 1 = .finite false (twoTo 52) (-52) := rfl

theorem then_compare_eq_lt_iff {e e' : Int} {m m' : Nat} :
    (compare e e').then (compare m m') = .lt ↔ e < e' ∨ e = e' ∧ m < m' := by
  rw [Ordering.then_eq_lt, compare_lt_iff_lt, compare_eq_iff_eq, compare_lt_iff_lt]

theorem compare_positive {m m' : Nat} {e e' : Int} (h : 0 < m) (h' : 0 < m') :
    (UnpackedFloat.finite .positive m e h).compare (.finite .positive m' e' h') =
      some ((compare e e').then (compare m m')) := rfl

/-- A positive double is not below one just when it has an integer part. -/
theorem not_compare_one_iff {m : Nat} {e : Int} (hm : 0 < m) (h : double.Has m e) :
    ¬ (compare e (-52)).then (compare m (twoTo 52)) = .lt ↔
      1 ≤ if 0 ≤ e then m * twoTo e.toNat else m / twoTo (-e).toNat := by
  have hfull : -1074 < e → twoTo 52 ≤ m := h.full
  have hwidth : m < twoTo 53 := h.lt
  rw [then_compare_eq_lt_iff]
  split
  next he =>
    have hmul : 0 < m * twoTo e.toNat := Nat.mul_pos hm (twoTo_pos _)
    exact iff_of_true (by omega) hmul
  next he =>
    rw [Nat.one_le_div_iff (twoTo_pos _)]
    by_cases hplace : -52 ≤ e
    · have hle : twoTo (-e).toNat ≤ twoTo 52 := Nat.pow_le_pow_right two_pos (by omega)
      have hmantissa := hfull (by omega)
      exact iff_of_true (by omega) (by omega)
    · have hle : twoTo 53 ≤ twoTo (-e).toNat := Nat.pow_le_pow_right two_pos (by omega)
      exact iff_of_false (by omega) (by omega)

/-- What is held among the unsigned integers is positive just when its magnitude is, unless there is
a minus. -/
theorem one_le_clamp_iff (negative : Bool) (k : Nat) :
    1 ≤ (clamp 0 word32Max (signed negative k)).toNat ↔ negative = false ∧ 1 ≤ k := by
  have hmax : 1 ≤ word32Max := by decide
  have hpos : ∀ n : Int, 1 ≤ n.toNat ↔ 1 ≤ n := fun n => by omega
  rw [hpos, clamp, le_max_iff, or_iff_right (by decide), le_min_iff, and_iff_right hmax]
  cases negative with
  | false =>
    rw [and_iff_right rfl, signed, if_neg nofun]
    omega
  | true =>
    rw [signed, if_pos rfl]
    exact iff_of_false (by omega) fun h => absurd h.1 nofun

/-- **A double is not below one just when it is not a number or has a positive integer part.** -/
theorem not_lt_one_iff (x : Float) : ¬ x < 1 ↔ exact x = .notNumber ∨ 1 ≤ truncateWord32 x := by
  have hone : (exact 1).unpacked = .finite .positive (twoTo 52) (-52) (twoTo_pos 52) := by
    rw [exact_one, Exact.unpacked, dif_pos (twoTo_pos 52)]
    rfl
  rw [lt_iff, hone, truncateWord32]
  cases hx : exact x with
  | notNumber => exact iff_of_true (by decide) (.inl rfl)
  | infinite negative => cases negative <;> decide
  | finite negative m e =>
    have hhas : double.Has m e := (BinaryFormat.decode_eq_finite x.toBits.toNat_lt hx).1
    rw [or_iff_right (by simp), Exact.unpacked, Exact.truncate, one_le_clamp_iff]
    rcases Nat.eq_zero_or_pos m with rfl | hm
    · refine iff_of_false (not_not_intro rfl) fun h => ?_
      simp at h
    · rw [dif_pos hm]
      cases negative with
      | true => exact iff_of_false (not_not_intro rfl) fun h => Bool.false_ne_true h.1.symm
      | false =>
        rw [← not_compare_one_iff hm hhas, and_iff_right rfl, signOf, if_neg Bool.false_ne_true,
          compare_positive, Option.some_inj]

end PixelScene.Number
