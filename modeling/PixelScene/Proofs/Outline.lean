import Mathlib.Data.List.Rotate
import PixelScene.Geometry

/-!
# Closed outlines

Whether a point lies inside a polygon is the parity of the crossed edges of a closed outline. So it
does not matter with which corner the outline begins, and a corner that is repeated next to itself
only adds edges that nothing crosses.

* `oddOutline`: the parity of the crossed edges, whatever the number of corners.
* `oddOutline_rotate`: an outline may begin with any of its corners.
* `thickened`: an outline with some corners repeated; `oddOutline_thickened` is about it.
* `insidePolygon_rotate_thickened`: both together, for any test of crossing and for polygons.

The test of the engine walks over the corners with the previous one in hand, and begins with the
last as the previous of the first (`point_in_polygon`). It refuses outlines of fewer than three
corners. The sum over the edges of a closed outline is the same wherever it begins; the only thing
that is used of the test for one edge is that no edge from a corner to itself is crossed. The test
itself divides single-precision numbers, about which nothing has to be known.
-/

namespace PixelScene

section Outlines

variable {α : Type} {crosses : α → α → Bool}

/-- The parity of the crossed edges of a closed outline, however few corners it has. -/
def oddOutline (crosses : α → α → Bool) (corners : List α) : Bool :=
  match corners.getLast? with
  | some last => oddCrossings crosses last corners
  | none => false

/-- The first corner of an outline comes after the last one. -/
theorem oddOutline_cons (v : α) (l : List α) :
    oddOutline crosses (v :: l) = xor (crosses v (l.getLastD v)) (oddCrossings crosses v l) := by
  rw [oddOutline, List.getLast?_cons]
  exact congrArg (fun last => xor (crosses v last) _) (List.getLastD_eq_getLast? ..).symm

theorem insideOutline_eq (corners : List α) :
    insideOutline crosses corners =
      (decide (3 ≤ corners.length) && oddOutline crosses corners) := by
  rw [insideOutline, oddOutline]
  cases corners.getLast? with
  | none => exact (Bool.and_false _).symm
  | some last =>
    dsimp only
    by_cases h : corners.length < 3
    · rw [if_pos h, decide_eq_false (Nat.not_le.mpr h), Bool.false_and]
    · rw [if_neg h, decide_eq_true (Nat.not_lt.mp h), Bool.true_and]

/-! ## Where an outline begins -/

/-- A walk along corners goes on from the last corner of its first part. -/
theorem oddCrossings_append (previous : α) (l more : List α) :
    oddCrossings crosses previous (l ++ more) =
      xor (oddCrossings crosses previous l) (oddCrossings crosses (l.getLastD previous) more) := by
  induction l generalizing previous with
  | nil => exact (Bool.false_xor _).symm
  | cons v l ih =>
    rw [List.cons_append, oddCrossings, oddCrossings, ih, List.getLastD_cons, Bool.xor_assoc]

/-- The first corner may as well be the last one: the same edge leads to it. -/
theorem oddOutline_concat (v : α) (l : List α) :
    oddOutline crosses (l ++ [v]) = oddOutline crosses (v :: l) := by
  have hlast : (l ++ [v]).getLast? = some v := List.getLast?_concat
  rw [oddOutline_cons, oddOutline, hlast]
  dsimp only
  rw [oddCrossings_append, oddCrossings, oddCrossings, Bool.xor_false, Bool.xor_comm]

theorem oddOutline_rotate (corners : List α) (k : Nat) :
    oddOutline crosses (corners.rotate k) = oddOutline crosses corners := by
  induction k generalizing corners with
  | zero => rw [List.rotate_zero]
  | succ k ih =>
    cases corners with
    | nil => rw [List.rotate_nil]
    | cons v l => rw [List.rotate_cons_succ, ih, oddOutline_concat]

/-! ## Repeated corners -/

/-- An outline in which each corner is followed by as many copies of itself as stand beside it. -/
def thickened (corners : List (α × Nat)) : List α :=
  corners.flatMap fun c => List.replicate (c.2 + 1) c.1

theorem thickened_cons (c : α × Nat) (l : List (α × Nat)) :
    thickened (c :: l) = c.1 :: (List.replicate c.2 c.1 ++ thickened l) := rfl

theorem length_le_length_thickened (l : List (α × Nat)) : l.length ≤ (thickened l).length := by
  induction l with
  | nil => rfl
  | cons c l ih =>
    rw [thickened_cons, List.length_cons, List.length_cons, List.length_append]
    omega

theorem getLastD_replicate_append (v : α) (n : Nat) (l : List α) :
    (List.replicate n v ++ l).getLastD v = l.getLastD v := by
  induction n with
  | zero => rfl
  | succ n ih => rw [List.replicate_succ, List.cons_append, List.getLastD_cons, ih]

theorem getLastD_thickened (previous : α) (l : List (α × Nat)) :
    (thickened l).getLastD previous = (l.map Prod.fst).getLastD previous := by
  induction l generalizing previous with
  | nil => rfl
  | cons c l ih =>
    rw [thickened_cons, List.getLastD_cons, getLastD_replicate_append, ih, List.map_cons,
      List.getLastD_cons]

variable (hself : ∀ v, crosses v v = false)

include hself

/-- Nothing is crossed as long as the walk stays at a corner. -/
theorem oddCrossings_replicate_append (v : α) (n : Nat) (l : List α) :
    oddCrossings crosses v (List.replicate n v ++ l) = oddCrossings crosses v l := by
  induction n with
  | zero => rfl
  | succ n ih => rw [List.replicate_succ, List.cons_append, oddCrossings, hself, Bool.false_xor, ih]

theorem oddCrossings_thickened (previous : α) (l : List (α × Nat)) :
    oddCrossings crosses previous (thickened l) =
      oddCrossings crosses previous (l.map Prod.fst) := by
  induction l generalizing previous with
  | nil => rfl
  | cons c l ih =>
    rw [thickened_cons, oddCrossings, oddCrossings_replicate_append hself, ih, List.map_cons,
      oddCrossings]

theorem oddOutline_thickened (l : List (α × Nat)) :
    oddOutline crosses (thickened l) = oddOutline crosses (l.map Prod.fst) := by
  cases l with
  | nil => rfl
  | cons c l =>
    rw [thickened_cons, oddOutline_cons, getLastD_replicate_append, getLastD_thickened,
      oddCrossings_replicate_append hself, oddCrossings_thickened hself, List.map_cons,
      oddOutline_cons]

/-- An outline of three corners or more has them also when they are repeated. -/
theorem insideOutline_rotate_thickened {l : List (α × Nat)} (h : 3 ≤ l.length) (k : Nat) :
    insideOutline crosses ((thickened l).rotate k) = insideOutline crosses (l.map Prod.fst) := by
  have hthick : 3 ≤ ((thickened l).rotate k).length := by
    rw [List.length_rotate]
    exact h.trans (length_le_length_thickened l)
  have hthin : 3 ≤ (l.map Prod.fst).length := by rwa [List.length_map]
  rw [insideOutline_eq, insideOutline_eq, decide_eq_true hthick, decide_eq_true hthin,
    oddOutline_rotate, oddOutline_thickened hself]

end Outlines

/-! ## Polygons -/

/-- No ray crosses an edge from a corner to itself, whatever its coordinates are. -/
theorem rayCrosses_self (p v : Point) : rayCrosses p v v = false := by
  rw [rayCrosses, bne_self_eq_false, Bool.false_and]

/--
**Where the outline of a polygon begins makes no difference, and neither do repeated corners.** The
polygon has three corners or more, and beside each of them stands how often it is repeated. A point
lies inside the outline of all of them, begun anywhere, exactly if it lies inside the polygon. The
same holds for any test of crossing that no edge from a corner to itself passes.
-/
theorem insidePolygon_rotate_thickened (p : Point) {corners : List (Point × Nat)}
    (h : 3 ≤ corners.length) (k : Nat) :
    insidePolygon p ((thickened corners).rotate k) = insidePolygon p (corners.map Prod.fst) ∧
      ∀ crosses : Point → Point → Point → Bool, (∀ q v, crosses q v v = false) →
        insideOutline (crosses p) ((thickened corners).rotate k) =
          insideOutline (crosses p) (corners.map Prod.fst) :=
  ⟨insideOutline_rotate_thickened (rayCrosses_self p) h k,
    fun _ hself => insideOutline_rotate_thickened (hself p) h k⟩

/-- A point inside a triangle, whose outline begins with the second copy of its last corner. The ray
from the point crosses one edge, the whole line through it two. -/
theorem insidePolygon_rotate_thickened_triangle :
    let triangle : List (Point × Nat) := [(⟨0, 0⟩, 1), (⟨8, 0⟩, 0), (⟨0, 8⟩, 2)]
    let line (p v w : Point) : Bool := (p.y < v.y : Bool) != (p.y < w.y : Bool)
    3 ≤ triangle.length ∧ (∀ p v, line p v v = false) ∧
      insidePolygon ⟨1, 1⟩ ((thickened triangle).rotate 4) = true ∧
      insideOutline (line ⟨1, 1⟩) ((thickened triangle).rotate 4) = false := by
  intro triangle line
  have hlength : 3 ≤ triangle.length := by decide
  have hself : ∀ p v, line p v v = false := fun _ _ => bne_self_eq_false _
  have hinside : insidePolygon ⟨1, 1⟩ (triangle.map Prod.fst) = true := by decide +kernel
  have heven : insideOutline (line ⟨1, 1⟩) (triangle.map Prod.fst) = false := by decide +kernel
  obtain ⟨hray, htests⟩ := insidePolygon_rotate_thickened ⟨1, 1⟩ hlength 4
  exact ⟨hlength, hself, hray.trans hinside, (htests line hself).trans heven⟩

end PixelScene
