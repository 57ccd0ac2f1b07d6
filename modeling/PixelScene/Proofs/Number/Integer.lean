import Mathlib
import PixelScene.Proofs.Number.Narrowing

/-!
# Integers as doubles

A double has every integer below 2^53, and further ones it rounds to integers that are not below
2^53 either. So an integer that becomes a double and is held between moderate bounds afterwards is
held as it was.

* `Exact.round_of_value`: a value that is an integer is rounded to itself.
* `exists_exact_ofInt`: the value of the double nearest to an integer.
* `round_ofInt`, `roundFinite_ofInt`: there and back again.

Integers become doubles in the engine wherever a component computes with a velocity or a position,
and where a variable is read. They come back rounded and held within a field. Fields have at most 24
bits, so nothing is lost below 2^53, and what is beyond stays beyond.
-/

namespace PixelScene.Number

variable {low high n : ℤ}

theorem roundsTo_self (k : ℕ) : RoundsTo k k := by
  left
  rw [sub_self, abs_zero]
  norm_num

/-- A value that is an integer is rounded to itself. -/
theorem Exact.round_of_value {negative : Bool} {m k : ℕ} {e : ℤ} (h : (m * 2 ^ e : ℚ) = k) :
    (Exact.finite negative m e).round low high = clamp low high (signed negative k) := by
  have hmagnitude : (if 0 ≤ e then m * twoTo e.toNat
      else (m + twoTo ((-e).toNat - 1)) / twoTo (-e).toNat) = k := by
    split
    next he =>
      have hcast : ((m * twoTo e.toNat : ℕ) : ℚ) = k := by
        rw [Nat.cast_mul, cast_twoTo, zpow_toNat 2 he, h]
      exact_mod_cast hcast
    next he =>
      obtain ⟨d, hd⟩ : ∃ d, (-e).toNat = d + 1 := ⟨(-e).toNat - 1, by omega⟩
      have hm : m = twoTo (d + 1) * k := by
        have hpower : (twoTo (d + 1) : ℚ) = (2 ^ e)⁻¹ := by
          rw [cast_twoTo, ← hd, zpow_toNat_neg 2 he]
        have hcast : ((twoTo (d + 1) * k : ℕ) : ℚ) = m := by
          rw [Nat.cast_mul, hpower, ← h, mul_comm, mul_assoc,
            mul_inv_cancel₀ (zpow_pos two_pos e).ne', mul_one]
        exact_mod_cast hcast.symm
      -- the half that is added before the division is less than the divisor
      have hhalf : twoTo d < twoTo (d + 1) := by
        have := twoTo_pos d
        rw [twoTo_succ]
        omega
      rw [hd, Nat.add_sub_cancel, hm, Nat.mul_add_div (twoTo_pos _), Nat.div_eq_of_lt hhalf,
        Nat.add_zero]
  rw [round, hmagnitude]

/-- The double nearest to an integer: its magnitude rounded at its own place. -/
theorem exists_exact_ofInt_place (hn : n ≠ 0) (h : n.natAbs < 2 ^ 64) :
    ∃ m e r, exact (ofInt n) = .finite (n < 0) m e ∧
      RoundsTo (n.natAbs * 2 ^ (-double.place n.natAbs)) r ∧
      (double.least < double.place n.natAbs → 2 ^ 52 ≤ r) ∧
      (m * 2 ^ e : ℚ) = r * 2 ^ double.place n.natAbs := by
  have hpos : (0 : ℚ) < n.natAbs := by exact_mod_cast Int.natAbs_pos.mpr hn
  have hbelow : ((n.natAbs : ℚ) / (1 : ℕ)) < 2 ^ (1023 : ℤ) := by
    rw [Nat.cast_one, div_one]
    calc (n.natAbs : ℚ) < 2 ^ (64 : ℤ) := by exact_mod_cast h
      _ ≤ 2 ^ (1023 : ℤ) := zpow_le_zpow_right₀ one_le_two (by decide)
  obtain ⟨r, hround, hfinite, hnearest⟩ := double.exists_nearest_eq (n < 0)
    (Int.natAbs_pos.mpr hn) Nat.one_pos (by decide) (double_reach ▸ hbelow)
  rw [Nat.cast_one, div_one] at hround hfinite hnearest
  have hfull := BinaryFormat.full_of_roundsTo hpos hround
  obtain ⟨m, e, hdecode, hvalue⟩ := BinaryFormat.exists_decode_pattern (p := double.place n.natAbs)
    (n < 0) (le_max_right _ _) (BinaryFormat.le_of_roundsTo hround) hfull hfinite
  refine ⟨m, e, r, ?_, hround, hfull, hvalue⟩
  rw [ofInt, ofExact, BinaryFormat.encode, if_pos le_rfl, Int.toNat_zero, twoTo_zero, Nat.mul_one,
    hnearest, ← hdecode]
  exact exact_ofBits_add _ hfinite

/-- The double nearest to an integer is an integer: the same one below 2^53, and one that is not
below 2^53 for those that are not. -/
theorem exists_exact_ofInt (h : n.natAbs < 2 ^ 64) :
    ∃ m e, ∃ k : ℕ, exact (ofInt n) = .finite (n < 0) m e ∧ (m * 2 ^ e : ℚ) = k ∧
      (n.natAbs < 2 ^ 53 → k = n.natAbs) ∧ (2 ^ 53 ≤ n.natAbs → 2 ^ 53 ≤ k) := by
  obtain rfl | hn := eq_or_ne n 0
  · have hzero : 0 < double.infinity := by decide
    have hexact : exact (ofInt 0) = .finite false 0 double.least :=
      (exact_ofBits_add false hzero).trans (BinaryFormat.decode_add false hzero)
    exact ⟨0, double.least, 0, hexact, by rw [Nat.cast_zero, zero_mul], fun _ => rfl, id⟩
  obtain ⟨m, e, r, hexact, hround, hfull, hvalue⟩ := exists_exact_ofInt_place hn h
  have hpos : (0 : ℚ) < n.natAbs := by exact_mod_cast Int.natAbs_pos.mpr hn
  have hleast : double.least = -1074 := by decide
  have hfraction : (double.fraction : ℤ) = 52 := rfl
  by_cases hsmall : n.natAbs < 2 ^ 53
  · -- the last place is not above one, so the magnitude is whole there
    have hlog : Int.log 2 (n.natAbs : ℚ) < 53 :=
      (Int.lt_zpow_iff_log_lt (b := 2) one_lt_two hpos).mp (by exact_mod_cast hsmall)
    obtain ⟨d, hd⟩ : ∃ d : ℕ, double.place n.natAbs = -d :=
      ⟨(-double.place n.natAbs).toNat, by unfold BinaryFormat.place; omega⟩
    have hr : r = n.natAbs * 2 ^ d := by
      refine hround.unique ?_
      rw [hd, neg_neg, zpow_natCast]
      exact_mod_cast roundsTo_self (n.natAbs * 2 ^ d)
    refine ⟨m, e, n.natAbs, hexact, ?_, fun _ => rfl, id⟩
    rw [hvalue, hr, hd, zpow_neg, zpow_natCast, Nat.cast_mul, Nat.cast_pow, Nat.cast_ofNat,
      mul_assoc, mul_inv_cancel₀ (by positivity), mul_one]
  · have hlog : 53 ≤ Int.log 2 (n.natAbs : ℚ) :=
      (Int.zpow_le_iff_le_log (b := 2) one_lt_two hpos).mp (by exact_mod_cast not_lt.mp hsmall)
    obtain ⟨d, hd⟩ : ∃ d : ℕ, double.place n.natAbs = (d + 1 : ℕ) :=
      ⟨(double.place n.natAbs - 1).toNat, by unfold BinaryFormat.place; omega⟩
    have hr : 2 ^ 52 ≤ r := hfull (by omega)
    refine ⟨m, e, r * 2 ^ (d + 1), hexact, ?_, fun hlt => absurd hlt hsmall, fun _ => ?_⟩
    · rw [hvalue, hd, zpow_natCast]
      push_cast
      rfl
    · calc 2 ^ 53 = 2 ^ 52 * 2 := by norm_num
        _ ≤ r * 2 ^ (d + 1) := Nat.mul_le_mul hr (Nat.le_self_pow d.succ_ne_zero 2)

/-- Between moderate bounds, an integer is held as if it had not been a double in between. -/
theorem round_ofInt (hlow : -2 ^ 53 ≤ low) (hzero : low ≤ 0) (hzero' : 0 ≤ high)
    (hhigh : high ≤ 2 ^ 53) (h : n.natAbs < 2 ^ 64) :
    (exact (ofInt n)).round low high = clamp low high n := by
  obtain ⟨m, e, k, hexact, hvalue, hsmall, hlarge⟩ := exists_exact_ofInt h
  rw [hexact, Exact.round_of_value hvalue, signed, clamp, clamp]
  by_cases hn : n < 0
  · rw [decide_eq_true hn, if_pos rfl]
    omega
  · rw [decide_eq_false hn, if_neg Bool.false_ne_true]
    omega

/-- An integer that a double has is rounded to itself. -/
theorem roundFinite_ofInt (h : n.natAbs < 2 ^ 53) : roundFinite (ofInt n) = n := by
  have hmin : int64Min = -9223372036854775808 := rfl
  have hmax : int64Max = 9223372036854775807 := rfl
  obtain ⟨m, e, k, hexact, hvalue, hsmall, -⟩ := exists_exact_ofInt (n := n) (by omega)
  rw [roundFinite, if_pos (isFinite_ofInt (by omega)), roundInt64, hexact,
    Exact.round_of_value hvalue, hsmall h, signed, hmin, hmax, clamp]
  by_cases hn : n < 0
  · rw [decide_eq_true hn, if_pos rfl]
    omega
  · rw [decide_eq_false hn, if_neg Bool.false_ne_true]
    omega

end PixelScene.Number
