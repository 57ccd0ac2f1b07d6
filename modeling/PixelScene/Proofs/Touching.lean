import Mathlib.Algebra.Order.Group.Abs
import Mathlib.Algebra.Order.Ring.Int
import PixelScene.Trigger

/-!
# Touching colours

The canvas is the complete rows of pixels that the memory holds. Two of its pixels are beside each
other when their columns and rows differ by one in all. So a row does not touch the next one at the
edges of the canvas, and a pixel does not touch another across a corner.

* `Memory.pixelIs_iff`, `Memory.neighbourIs_iff`: what is asked of a pixel and of its neighbours.
* `Memory.touches_iff_exists_beside`: two colours touch exactly if two pixels beside each other have
  them.

The engine looks at every pixel of the first colour and asks its four neighbours by their number
(`colors_adjacent`): the pixel before it and the one behind it only if they are in the same row, the
ones a row away by adding and taking away the width. The theorem has columns and rows in their
place. It holds for every memory and every width: pixels behind the last complete row are not asked,
and the fourth byte of a pixel makes no difference.
-/

namespace PixelScene

/-- Two places differ by one in column and row together. -/
def Beside (x y x' y' : ℕ) : Prop := |(x : ℤ) - x'| + |(y : ℤ) - y'| = 1

section Beside

variable {x y x' y' : ℕ}

theorem beside_comm : Beside x y x' y' ↔ Beside x' y' x y := by
  rw [Beside, Beside, abs_sub_comm (x : ℤ), abs_sub_comm (y : ℤ)]

/-- The places beside a place are those to its left, to its right, above it and below it. -/
theorem beside_iff : Beside x y x' y' ↔
    (x = x' + 1 ∧ y = y') ∨ (x' = x + 1 ∧ y = y') ∨ (x = x' ∧ y = y' + 1) ∨
      (x = x' ∧ y' = y + 1) := by
  unfold Beside
  obtain ⟨hx, _⟩ | ⟨hx, _⟩ := abs_cases ((x : ℤ) - x') <;>
    obtain ⟨hy, _⟩ | ⟨hy, _⟩ := abs_cases ((y : ℤ) - y') <;> rw [hx, hy] <;> omega

end Beside

namespace Memory

variable {m m' : Memory} {width height x y index : ℕ} {a b c : Colour}

/-! ## Pixels -/

/-- A pixel of the memory has a colour, with some transparency. -/
def Shows (m : Memory) (index : ℕ) (c : Colour) : Prop :=
  ∃ alpha, m.pixel? index = some [c.red, c.green, c.blue, alpha]

theorem pixelIs_iff (h : index < m.pixelCount) : m.pixelIs index c = true ↔ m.Shows index c := by
  have hpixel : m.pixel? index = some [m.byte (index * pixelBytes), m.byte (index * pixelBytes + 1),
      m.byte (index * pixelBytes + 2), m.byte (index * pixelBytes + 3)] := if_pos h
  simp only [pixelIs, Shows, hpixel, Bool.and_eq_true, beq_iff_eq, Option.some.injEq,
    List.cons.injEq, and_true, exists_and_left, exists_eq', and_assoc]

/-- The transparency of a pixel makes no difference. -/
theorem pixelIs_congr (h : ∀ i, index * 4 ≤ i → i < index * 4 + 3 → m'.byte i = m.byte i) :
    m'.pixelIs index c = m.pixelIs index c := by
  rw [pixelIs, pixelIs, pixelBytes, h _ (by omega) (by omega), h _ (by omega) (by omega),
    h _ (by omega) (by omega)]

/-! ## The canvas -/

/-- A place of the canvas has its pixel in the rows of the canvas. -/
theorem place_lt (hx : x < width) (hy : y < height) : y * width + x < height * width := by
  have hrow : (y + 1) * width ≤ height * width := Nat.mul_le_mul_right width hy
  rw [Nat.succ_mul] at hrow
  omega

/-- The neighbours that are looked at are the places of the canvas beside a place. -/
theorem neighbourIs_iff (hx : x < width) (hy : y < height) :
    m.neighbourIs width height x y c = true ↔ ∃ x' y', x' < width ∧ y' < height ∧
      Beside x y x' y' ∧ m.pixelIs (y' * width + x') c = true := by
  simp only [neighbourIs, Bool.or_eq_true, Bool.and_eq_true, decide_eq_true_eq]
  constructor
  · rintro (((⟨hleft, hc⟩ | ⟨hright, hc⟩) | ⟨habove, hc⟩) | ⟨hbelow, hc⟩)
    · refine ⟨x - 1, y, by omega, hy, beside_iff.mpr (by omega), ?_⟩
      rwa [← Nat.add_sub_assoc hleft]
    · exact ⟨x + 1, y, hright, hy, beside_iff.mpr (by omega), hc⟩
    · obtain ⟨row, rfl⟩ := Nat.exists_eq_succ_of_ne_zero habove.ne'
      refine ⟨x, row, hx, by omega, beside_iff.mpr (by omega), ?_⟩
      rwa [Nat.succ_mul, Nat.add_right_comm, Nat.add_sub_cancel] at hc
    · refine ⟨x, y + 1, hx, hbelow, beside_iff.mpr (by omega), ?_⟩
      rwa [Nat.succ_mul, Nat.add_right_comm]
  · rintro ⟨x', y', hx', hy', hbeside, hc⟩
    obtain ⟨rfl, rfl⟩ | ⟨rfl, rfl⟩ | ⟨rfl, rfl⟩ | ⟨rfl, rfl⟩ := beside_iff.mp hbeside
    · exact .inl (.inl (.inl ⟨by omega, hc⟩))
    · exact .inl (.inl (.inr ⟨hx', hc⟩))
    · refine .inl (.inr ⟨by omega, ?_⟩)
      rwa [Nat.succ_mul, Nat.add_right_comm, Nat.add_sub_cancel]
    · refine .inr ⟨hy', ?_⟩
      rwa [Nat.succ_mul, Nat.add_right_comm] at hc

theorem touches_iff_exists_pixelIs : m.touches width a b = true ↔
    ∃ x y x' y', x < width ∧ y < m.pixelCount / width ∧ x' < width ∧ y' < m.pixelCount / width ∧
      Beside x y x' y' ∧ m.pixelIs (y * width + x) a = true ∧
        m.pixelIs (y' * width + x') b = true := by
  simp only [touches, List.any_eq_true, List.mem_range, Bool.and_eq_true]
  constructor
  · rintro ⟨y, hy, x, hx, ha, hb⟩
    obtain ⟨x', y', hx', hy', hbeside, hb⟩ := (neighbourIs_iff hx hy).mp hb
    exact ⟨x, y, x', y', hx, hy, hx', hy', hbeside, ha, hb⟩
  · rintro ⟨x, y, x', y', hx, hy, hx', hy', hbeside, ha, hb⟩
    exact ⟨y, hy, x, hx, ha, (neighbourIs_iff hx hy).mpr ⟨x', y', hx', hy', hbeside, hb⟩⟩

theorem touches_comm : m.touches width a b = true ↔ m.touches width b a = true := by
  have hswap : ∀ {a b : Colour}, m.touches width a b = true → m.touches width b a = true := by
    intro a b h
    obtain ⟨x, y, x', y', hx, hy, hx', hy', hbeside, ha, hb⟩ := touches_iff_exists_pixelIs.mp h
    exact touches_iff_exists_pixelIs.mpr
      ⟨x', y', x, y, hx', hy', hx, hy, beside_comm.mp hbeside, hb, ha⟩
  exact ⟨hswap, hswap⟩

/-- Whether colours touch depends on the pixels of the canvas, transparency apart. -/
theorem touches_congr (hrows : m'.pixelCount / width = m.pixelCount / width)
    (hpixels : ∀ index < m.pixelCount / width * width, ∀ c,
      m'.pixelIs index c = m.pixelIs index c) : m'.touches width a b = m.touches width a b := by
  refine Bool.eq_iff_iff.mpr ?_
  rw [touches_iff_exists_pixelIs, touches_iff_exists_pixelIs, hrows]
  refine exists_congr fun x => exists_congr fun y => exists_congr fun x' => exists_congr fun y' =>
    and_congr_right fun hx => and_congr_right fun hy => and_congr_right fun hx' =>
      and_congr_right fun hy' => ?_
  rw [hpixels _ (place_lt hx hy), hpixels _ (place_lt hx' hy')]

/--
**Two colours touch exactly if two pixels beside each other have them**, in the complete rows of a
canvas of any width. Which of the colours comes first makes no difference, and neither do the
transparency of the pixels and the bytes behind the last complete row.
-/
theorem touches_iff_exists_beside (m : Memory) (width : ℕ) (a b : Colour) :
    let rows := m.size / 4 / width
    (m.touches width a b = true ↔
      ∃ x y x' y', x < width ∧ y < rows ∧ x' < width ∧ y' < rows ∧
        |(x : ℤ) - x'| + |(y : ℤ) - y'| = 1 ∧
          m.Shows (y * width + x) a ∧ m.Shows (y' * width + x') b) ∧
      m.touches 0 a b = false ∧
      m.touches width a b = m.touches width b a ∧
      ∀ m' : Memory, m'.size / 4 / width = rows →
        (∀ i < rows * width * 4, i % 4 ≠ 3 → m'.byte i = m.byte i) →
        m'.touches width a b = m.touches width a b := by
  intro rows
  have hfits : rows * width ≤ m.pixelCount := Nat.div_mul_le_self _ _
  refine ⟨?_, ?_, Bool.eq_iff_iff.mpr touches_comm, fun m' hrows hbytes => ?_⟩
  · rw [touches_iff_exists_pixelIs]
    refine exists_congr fun x => exists_congr fun y => exists_congr fun x' => exists_congr fun y' =>
      and_congr_right fun hx => and_congr_right fun hy => and_congr_right fun hx' =>
        and_congr_right fun hy' => and_congr_right fun _ => ?_
    rw [pixelIs_iff ((place_lt hx hy).trans_le hfits),
      pixelIs_iff ((place_lt hx' hy').trans_le hfits)]
  · rw [touches, Nat.div_zero]
    rfl
  · refine touches_congr hrows fun index hindex c => pixelIs_congr fun i hlow hhigh => ?_
    have hindex : index < rows * width := hindex
    exact hbytes i (by omega) (by omega)

end Memory

end PixelScene
