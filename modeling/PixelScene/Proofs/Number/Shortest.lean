import Mathlib.Tactic.NormNum
import PixelScene.Number.Shortest
import PixelScene.Proofs.Number.Nearest

/-!
# The fewest digits

The shortest decimal of a number rounds back to that number: it lies in the interval of the number,
whatever grid it is found on, and on the seventeenth grid, if not before, something is found.

* `Interval.contains_iff`: the test for the interval of a number is `BinaryFormat.Between`.
* `magnitude_le`: the first grid is not coarser than the number is large.
* `onGrid?_isSome`: a grid whose points are closer than the interval is wide has a point in it.
* `contains_firstGrid`: if a finer grid has such a point, the search finds one.
* `between_shortest`, `shortest_pos`: the shortest decimal lies in the interval and is not zero.

The search is over grids of powers of ten, from the coarsest that can have a point in the interval.
On each grid only the neighbours of the number itself are tried. That the decimal found is the
shortest is true by the order of the grids and is not needed; that it lies in the interval is what
reading it back depends on. Borders belong to the interval of a number with an even mantissa only.
-/

namespace PixelScene.Number

/-! ## The interval of a number -/

namespace Interval

/-- The number of an interval. -/
def number (i : Interval) : ℚ := i.value / i.den

theorem contains_iff_ratio (i : Interval) {num den : ℕ} (hi : 0 < i.den) (hden : 0 < den) :
    i.contains num den = true ↔
      if i.closed then (i.low / i.den : ℚ) ≤ num / den ∧ (num / den : ℚ) ≤ i.high / i.den
      else (i.low / i.den : ℚ) < num / den ∧ (num / den : ℚ) < i.high / i.den := by
  have hi' : (0 : ℚ) < i.den := by exact_mod_cast hi
  have hden' : (0 : ℚ) < den := by exact_mod_cast hden
  simp only [contains, div_le_div_iff₀ hi' hden', div_le_div_iff₀ hden' hi',
    div_lt_div_iff₀ hi' hden', div_lt_div_iff₀ hden' hi']
  split
  · simp only [Bool.and_eq_true, decide_eq_true_iff]
    norm_cast
  · simp only [Bool.and_eq_true, decide_eq_true_iff]
    norm_cast

section Of

variable (f : BinaryFormat) (m : ℕ) (e : ℤ)

theorem den_of_pos : 0 < (Interval.of f m e).den := by
  simp only [Interval.of]
  split
  · exact Nat.one_pos
  · exact twoTo_pos _

/-- The ends of an interval and the number in it are multiples of a quarter of the last place. -/
theorem quarters_of (n : ℕ) :
    ((n * (if 0 ≤ e - 2 then twoTo (e - 2).toNat else 1) : ℕ) / (Interval.of f m e).den : ℚ) =
      n / 4 * 2 ^ e := by
  have hquarter : (2 : ℚ) ^ e = 4 * 2 ^ (e - 2) := by
    rw [zpow_sub₀ two_ne_zero]
    norm_num
    ring
  simp only [Interval.of]
  split
  next h =>
    rw [Nat.cast_mul, cast_twoTo, zpow_toNat 2 h, Nat.cast_one, div_one, hquarter]
    ring
  next h =>
    rw [Nat.mul_one, cast_twoTo, zpow_toNat_neg 2 h, div_inv_eq_mul, hquarter]
    ring

theorem number_of : (Interval.of f m e).number = m * 2 ^ e := by
  refine (quarters_of f m e (4 * m)).trans ?_
  push_cast
  ring

theorem high_of : ((Interval.of f m e).high / (Interval.of f m e).den : ℚ) =
    (m + 1 / 2) * 2 ^ e := by
  refine (quarters_of f m e (4 * m + 2)).trans ?_
  push_cast
  ring

variable {m}

theorem low_of (hm : 0 < m) : ((Interval.of f m e).low / (Interval.of f m e).den : ℚ) =
    (m - f.slack m e) * 2 ^ e := by
  refine (quarters_of f m e _).trans ?_
  unfold BinaryFormat.slack
  split
  · rw [Nat.cast_sub (by omega)]
    push_cast
    ring
  · rw [Nat.cast_sub (by omega)]
    push_cast
    ring

theorem contains_iff (hm : 0 < m) {num den : ℕ} (hden : 0 < den) :
    (Interval.of f m e).contains num den = true ↔ f.Between m e (num / den) := by
  have hpos : (0 : ℚ) < 2 ^ e := zpow_pos two_pos e
  have hscale : ∀ a q : ℚ, (a * 2 ^ e ≤ q ↔ a ≤ q * 2 ^ (-e)) ∧ (a * 2 ^ e < q ↔ a < q * 2 ^ (-e)) ∧
      (q ≤ a * 2 ^ e ↔ q * 2 ^ (-e) ≤ a) ∧ (q < a * 2 ^ e ↔ q * 2 ^ (-e) < a) := by
    intro a q
    rw [zpow_neg, ← div_eq_mul_inv]
    exact ⟨(le_div_iff₀ hpos).symm, (lt_div_iff₀ hpos).symm, (div_le_iff₀ hpos).symm,
      (div_lt_iff₀ hpos).symm⟩
  rw [contains_iff_ratio _ (den_of_pos f m e) hden, low_of f e hm, high_of, (hscale _ _).1,
    (hscale _ _).2.1, (hscale _ _).2.2.1, (hscale _ _).2.2.2]
  have hclosed : (Interval.of f m e).closed = (m % 2 == 0) := rfl
  rw [hclosed]
  constructor
  · intro h
    split at h
    next heven => exact ⟨h.1, h.2, fun hodd => by simp [hodd] at heven⟩
    next heven => exact ⟨h.1.le, h.2.le, fun _ => h⟩
  · intro h
    split
    next heven => exact ⟨h.low, h.high⟩
    next heven => exact h.odd (by simpa using heven)

end Of

end Interval

/-! ## Grids -/

theorem gridPoint_pos (n : ℕ) (k : ℤ) : 0 < (gridPoint n k).2 := by
  unfold gridPoint
  split
  · exact Nat.one_pos
  · exact Nat.pow_pos (by decide)

theorem gridPoint_eq (n : ℕ) (k : ℤ) :
    ((gridPoint n k).1 / (gridPoint n k).2 : ℚ) = n * 10 ^ k := by
  unfold gridPoint
  split
  next h => rw [Nat.cast_mul, cast_tenTo, zpow_toNat 10 h, Nat.cast_one, div_one]
  next h => rw [cast_tenTo, zpow_toNat_neg 10 h, div_inv_eq_mul]

/-- The number of an interval lies between its quotient on a grid and the next multiple. -/
theorem gridQuotient_spec {i : Interval} (hi : 0 < i.den) (k : ℤ) :
    ((gridQuotient i k).1 : ℚ) * 10 ^ k ≤ i.number ∧
      i.number < ((gridQuotient i k).1 + 1 : ℕ) * 10 ^ k := by
  have hten : (0 : ℚ) < 10 ^ k := zpow_pos (by norm_num) k
  have hratio : ∀ num den : ℕ, 0 < den → (num / den : ℚ) = i.number / 10 ^ k →
      ((num / den : ℕ) : ℚ) * 10 ^ k ≤ i.number ∧
        i.number < ((num / den + 1 : ℕ) : ℚ) * 10 ^ k := by
    intro num den hden h
    rw [← le_div_iff₀ hten, ← div_lt_iff₀ hten, ← h, le_div_iff₀ (by exact_mod_cast hden),
      div_lt_iff₀ (by exact_mod_cast hden)]
    exact ⟨by exact_mod_cast Nat.div_mul_le_self num den,
      by exact_mod_cast Nat.lt_mul_of_div_lt (Nat.lt_succ_self _) hden⟩
  simp only [gridQuotient]
  split
  next h =>
    refine hratio _ _ (Nat.mul_pos hi (Nat.pow_pos (by decide))) ?_
    rw [Nat.cast_mul, cast_tenTo, zpow_toNat 10 h, ← div_div]
    rfl
  next h =>
    refine hratio _ _ hi ?_
    rw [Nat.cast_mul, cast_tenTo, zpow_toNat_neg 10 h, mul_div_right_comm, ← div_eq_mul_inv]
    rfl

theorem contains_of_onGrid? {tie : Tie} {i : Interval} {k : ℤ} {n : ℕ}
    (h : onGrid? tie i k = some n) : i.contains (gridPoint n k).1 (gridPoint n k).2 = true := by
  simp only [onGrid?] at h
  split at h
  next hlow hhigh =>
    split at h
    · rwa [← Option.some.inj h]
    · rwa [← Option.some.inj h]
  next hlow hhigh => rwa [← Option.some.inj h]
  next hlow hhigh => rwa [← Option.some.inj h]
  next => cases h

theorem onGrid?_isSome {tie : Tie} {i : Interval} {k : ℤ}
    (h : let q := (gridQuotient i k).1
      i.contains (gridPoint q k).1 (gridPoint q k).2 = true ∨
        i.contains (gridPoint (q + 1) k).1 (gridPoint (q + 1) k).2 = true) :
    (onGrid? tie i k).isSome = true := by
  simp only [onGrid?]
  split
  · rfl
  · rfl
  · rfl
  next hlow hhigh =>
    obtain h | h := h
    · exact absurd h (by rw [hlow]; decide)
    · exact absurd h (by rw [hhigh]; decide)

/-! ## Magnitudes -/

/-- A thousand is less than the tenth power of two, and the sixteenth power of ten is more than the
fifty-third of two. -/
theorem ten_zpow_le_two_zpow {k l : ℤ} (h : if 0 ≤ l then 10 * k ≤ 3 * l else 53 * k ≤ 16 * l) :
    (10 : ℚ) ^ k ≤ 2 ^ l := by
  have hten : (0 : ℚ) ≤ 10 ^ k := (zpow_pos (by norm_num) k).le
  have htwo : (0 : ℚ) ≤ 2 ^ l := (zpow_pos two_pos l).le
  split at h
  next hl =>
    have hpow : (10 : ℚ) ^ 3 ≤ 2 ^ 10 := by norm_num
    refine (pow_le_pow_iff_left₀ hten htwo (show 10 ≠ 0 by decide)).mp ?_
    calc ((10 : ℚ) ^ k) ^ 10 = 10 ^ (10 * k) := by rw [← zpow_natCast, ← zpow_mul, mul_comm]; rfl
      _ ≤ 10 ^ (3 * l) := zpow_le_zpow_right₀ (by norm_num) h
      _ = (10 ^ 3) ^ l := by rw [zpow_mul]; rfl
      _ ≤ (2 ^ 10) ^ l := zpow_le_zpow_left₀ hl (by positivity) hpow
      _ = (2 ^ l) ^ 10 := by rw [← zpow_natCast, ← zpow_natCast, zpow_comm]
  next hl =>
    have hpow : (2 : ℚ) ^ 53 ≤ 10 ^ 16 := by norm_num
    refine (pow_le_pow_iff_left₀ hten htwo (show 53 ≠ 0 by decide)).mp ?_
    calc ((10 : ℚ) ^ k) ^ 53 = 10 ^ (53 * k) := by rw [← zpow_natCast, ← zpow_mul, mul_comm]; rfl
      _ ≤ 10 ^ (16 * l) := zpow_le_zpow_right₀ (by norm_num) h
      _ = ((10 ^ 16) ^ (-l))⁻¹ := by rw [zpow_neg, inv_inv, zpow_mul]; rfl
      _ ≤ ((2 ^ 53) ^ (-l))⁻¹ :=
        inv_anti₀ (zpow_pos (by norm_num) _) (zpow_le_zpow_left₀ (by omega) (by positivity) hpow)
      _ = (2 ^ l) ^ 53 := by
        rw [zpow_neg, inv_inv, ← zpow_natCast, ← zpow_natCast, zpow_comm]

/-- The power of ten from which the magnitude of a number is counted is at most a tenth of it. -/
theorem magnitude_le {i : Interval} (hi : 0 < i.den) (hvalue : 0 < i.value)
    (hlow : (2 : ℚ) ^ (-2000 : ℤ) ≤ i.number) (hhigh : i.number < 2 ^ (1900 : ℤ)) :
    (10 : ℚ) ^ (magnitude i - 1) ≤ i.number := by
  have hbelow : ∀ k : ℤ, decide (i.value * (gridPoint 1 k).2 < (gridPoint 1 k).1 * i.den) = false →
      (10 : ℚ) ^ k ≤ i.number := by
    intro k h
    rw [decide_eq_false_iff_not, not_lt] at h
    rw [← one_mul ((10 : ℚ) ^ k), ← Nat.cast_one, ← gridPoint_eq, Interval.number,
      div_le_div_iff₀ (by exact_mod_cast gridPoint_pos 1 k) (by exact_mod_cast hi)]
    exact_mod_cast h
  have hle := BinaryFormat.zpow_le_quotient hvalue hi
  have hlt := BinaryFormat.quotient_lt_zpow i.value hi
  simp only [magnitude]
  generalize hl : (i.value.log2 : ℤ) - i.den.log2 - 1 = l at *
  have hl1 : l < 1900 := (zpow_lt_zpow_iff_right₀ one_lt_two).mp (hle.trans_lt hhigh)
  have hl2 : -2000 < l + 2 := by
    refine (zpow_lt_zpow_iff_right₀ (one_lt_two (α := ℚ))).mp (hlow.trans_lt ?_)
    rwa [show l + 2 = (i.value.log2 : ℤ) - i.den.log2 + 1 by omega]
  generalize hestimate : l * 30103 / 100000 - 1 = estimate
  split
  next =>
    refine (ten_zpow_le_two_zpow ?_).trans hle
    split <;> omega
  next h1 =>
    split
    next =>
      rw [add_sub_cancel_right]
      exact hbelow _ (Bool.eq_false_iff.mpr h1)
    next h2 =>
      split
      next =>
        have h := hbelow _ (Bool.eq_false_iff.mpr h2)
        rwa [show estimate + 2 - 1 = estimate + 1 by omega]
      next h3 =>
        have h := hbelow _ (Bool.eq_false_iff.mpr h3)
        rwa [show estimate + 3 - 1 = estimate + 2 by omega]

/-! ## Fine grids -/

open BinaryFormat (Between)

theorem between_of_lt {f : BinaryFormat} {m : ℕ} {e : ℤ} {q : ℚ}
    (hlow : (m - f.slack m e) * 2 ^ e < q) (hhigh : q < (m + 1 / 2) * 2 ^ e) : f.Between m e q := by
  have hpos : (0 : ℚ) < 2 ^ e := zpow_pos two_pos e
  rw [← lt_div_iff₀ hpos, div_eq_mul_inv, ← zpow_neg] at hlow
  rw [← div_lt_iff₀ hpos, div_eq_mul_inv, ← zpow_neg] at hhigh
  exact ⟨hlow.le, hhigh.le, fun _ => ⟨hlow, hhigh⟩⟩

/-- A grid whose points are closer to each other than the interval is wide has a point in it, and
one of the neighbours of the number is such a point. -/
theorem onGrid?_isSome_of_fine (tie : Tie) {f : BinaryFormat} {m : ℕ} {e k : ℤ} (hm : 0 < m)
    (hfine : (10 : ℚ) ^ k < (f.slack m e + 1 / 2) * 2 ^ e) :
    (onGrid? tie (Interval.of f m e) k).isSome = true := by
  have hpos : (0 : ℚ) < 2 ^ e := zpow_pos two_pos e
  have hslack := f.slack_le m e
  obtain ⟨hle, hlt⟩ := gridQuotient_spec (Interval.den_of_pos f m e) k
  rw [Interval.number_of] at hle hlt
  apply onGrid?_isSome
  simp only [Interval.contains_iff f e hm (gridPoint_pos _ k), gridPoint_eq]
  rw [Nat.cast_succ, add_mul, one_mul] at hlt
  by_cases hin : (m - f.slack m e) * 2 ^ e < (gridQuotient (Interval.of f m e) k).1 * 10 ^ k
  · refine .inl (between_of_lt hin (hle.trans_lt ?_))
    nlinarith
  · rw [not_lt] at hin
    refine .inr (between_of_lt ?_ ?_)
    · rw [Nat.cast_succ, add_mul, one_mul]
      nlinarith
    · rw [Nat.cast_succ, add_mul, one_mul]
      nlinarith

/-- The search ends at the first grid with a point, so a grid that is known to have one suffices. -/
theorem contains_firstGrid {tie : Tie} {i : Interval} {fuel d : ℕ} {k : ℤ} (hd : d < fuel)
    (h : (onGrid? tie i (k - d)).isSome = true) :
    let r := firstGrid tie i fuel k
    i.contains (gridPoint r.1 r.2).1 (gridPoint r.1 r.2).2 = true := by
  induction fuel generalizing d k with
  | zero => omega
  | succ fuel ih =>
    unfold firstGrid
    split
    next n hn => exact contains_of_onGrid? hn
    next hnone =>
      cases d with
      | zero =>
        rw [Nat.cast_zero, sub_zero, hnone] at h
        cases h
      | succ d =>
        refine ih (by omega : d < fuel) ?_
        rwa [show k - 1 - (d : ℤ) = k - (d + 1 : ℕ) by omega]

theorem stripZeros_value (fuel : ℕ) (d : ℕ × ℤ) :
    ((stripZeros fuel d).1 : ℚ) * 10 ^ (stripZeros fuel d).2 = d.1 * 10 ^ d.2 := by
  induction fuel generalizing d with
  | zero => rfl
  | succ fuel ih =>
    obtain ⟨n, e⟩ := d
    unfold stripZeros
    split
    next h =>
      rw [ih]
      have hn : (n : ℚ) = (n / 10 : ℕ) * 10 := by exact_mod_cast (by omega : n = n / 10 * 10)
      show ((n / 10 : ℕ) : ℚ) * 10 ^ (e + 1) = n * 10 ^ e
      rw [hn, zpow_add₀ (by norm_num), zpow_one]
      ring
    next => rfl

/-! ## The shortest decimal -/

/-- The formats for whose numbers seventeen digits suffice. -/
structure BinaryFormat.Narrow (f : BinaryFormat) : Prop where
  fraction_le : f.fraction ≤ 52
  le_least : -1074 ≤ f.least
  reach_le : f.least + f.top ≤ 973

theorem double_narrow : double.Narrow := by constructor <;> decide

theorem single_narrow : single.Narrow := by constructor <;> decide

namespace BinaryFormat.Has

variable {f : BinaryFormat} {m : ℕ} {e : ℤ}

theorem lt_reach (h : f.Has m e) : e < f.least + f.top := by
  have hle := h.least_le
  have hlt := h.finite
  by_contra hreach
  have hmul := Nat.mul_le_mul_right (twoTo f.fraction) (by omega : f.top ≤ (e - f.least).toNat)
  rw [infinity] at hlt
  omega

theorem mantissa_lt (h : f.Has m e) : (m : ℚ) < 2 ^ (f.fraction + 1) := by exact_mod_cast h.lt

/-- The numbers of narrow formats are far from the bounds within which decimals are read. -/
theorem value_lt (h : f.Has m e) (hf : f.Narrow) : (m + 1 : ℚ) * 2 ^ e ≤ 2 ^ (1025 : ℤ) := by
  have hlt := h.lt_reach
  have hreach := hf.reach_le
  have hfraction := hf.fraction_le
  have hm : (m + 1 : ℚ) ≤ 2 ^ (f.fraction + 1) := by exact_mod_cast h.lt
  calc (m + 1 : ℚ) * 2 ^ e ≤ 2 ^ (f.fraction + 1) * 2 ^ e :=
        mul_le_mul_of_nonneg_right hm (zpow_pos two_pos e).le
    _ = 2 ^ ((f.fraction + 1 : ℕ) + e) := by rw [← zpow_natCast, ← zpow_add₀ two_ne_zero]
    _ ≤ 2 ^ (1025 : ℤ) := zpow_le_zpow_right₀ one_le_two (by omega)

theorem le_value (h : f.Has m e) (hf : f.Narrow) (hm : 0 < m) :
    (2 : ℚ) ^ (-1074 : ℤ) ≤ m * 2 ^ e := by
  have hone : (1 : ℚ) ≤ m := by exact_mod_cast hm
  calc (2 : ℚ) ^ (-1074 : ℤ) ≤ 2 ^ e :=
        zpow_le_zpow_right₀ one_le_two (hf.le_least.trans h.least_le)
    _ ≤ m * 2 ^ e := le_mul_of_one_le_left (zpow_pos two_pos e).le hone

end BinaryFormat.Has

section Shortest

variable {f : BinaryFormat} {m : ℕ} {e : ℤ}

/-- The shortest decimal of a number lies in its interval: on the seventeenth grid the points are
closer to each other than a part in `2 ^ 53` of the number, and the interval is wider than that. -/
theorem between_shortest (tie : Tie) (hf : f.Narrow) (hm : 0 < m) (hhas : f.Has m e) :
    f.Between m e ((shortest tie f m e).1 * 10 ^ (shortest tie f m e).2) := by
  set i := Interval.of f m e with hi
  have hpos : (0 : ℚ) < 2 ^ e := zpow_pos two_pos e
  have hmagnitude : (10 : ℚ) ^ (magnitude i - 1) ≤ m * 2 ^ e := by
    rw [← Interval.number_of f m e]
    have hvalue : 0 < i.value := by
      have hscale : 0 < if 0 ≤ e - 2 then twoTo (e - 2).toNat else 1 := by
        split
        · exact twoTo_pos _
        · exact Nat.one_pos
      exact Nat.mul_pos (by omega) hscale
    refine magnitude_le (Interval.den_of_pos f m e) hvalue ?_ ?_
    · rw [Interval.number_of]
      exact (zpow_le_zpow_right₀ one_le_two (by decide)).trans (hhas.le_value hf hm)
    · rw [Interval.number_of]
      have hlt : (m : ℚ) * 2 ^ e < (m + 1) * 2 ^ e := by nlinarith
      exact (hlt.trans_le (hhas.value_lt hf)).trans_le (zpow_le_zpow_right₀ one_le_two (by decide))
  have hfine : (10 : ℚ) ^ (magnitude i - 1 - (16 : ℕ)) < (f.slack m e + 1 / 2) * 2 ^ e := by
    have hmantissa : (m : ℚ) < (f.slack m e + 1 / 2) * 10 ^ 16 := by
      have hfraction := hf.fraction_le
      unfold BinaryFormat.slack
      split
      next h =>
        have hle : (m : ℚ) ≤ 2 ^ 52 := by
          rw [h.1, cast_twoTo]
          exact pow_le_pow_right₀ one_le_two hfraction
        norm_num at hle ⊢
        linarith
      next =>
        have hle : (m : ℚ) < 2 ^ 53 :=
          hhas.mantissa_lt.trans_le (pow_le_pow_right₀ one_le_two (by omega))
        norm_num at hle ⊢
        linarith
    have hten : (0 : ℚ) < 10 ^ 16 := by positivity
    rw [zpow_sub₀ (by norm_num), zpow_natCast, div_lt_iff₀ hten]
    nlinarith
  have hgrid := contains_firstGrid (show _ < mostDigits by decide)
    (onGrid?_isSome_of_fine tie hm hfine)
  rw [Interval.contains_iff f e hm (gridPoint_pos _ _), gridPoint_eq] at hgrid
  simp only [shortest]
  rw [stripZeros_value]
  exact hgrid

theorem shortest_pos (tie : Tie) (hf : f.Narrow) (hm : 0 < m) (hhas : f.Has m e) :
    0 < (shortest tie f m e).1 := by
  have hlow := (between_shortest tie hf hm hhas).low
  have hslack := f.slack_le m e
  have hone : (1 : ℚ) ≤ m := by exact_mod_cast hm
  refine Nat.pos_of_ne_zero fun hzero => ?_
  rw [hzero, Nat.cast_zero, zero_mul, zero_mul] at hlow
  linarith

end Shortest

end PixelScene.Number
