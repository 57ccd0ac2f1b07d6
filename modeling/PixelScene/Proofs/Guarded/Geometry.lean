import PixelScene.Camera
import PixelScene.Proofs.Guarded.Steps

/-!
# Guarded geometry and colours

The corners of a polygon are looked up by their numbers, each together with the corner before it,
and the digits of a colour are cut out of the text two by two.

* `Guarded.insidePolygon_eq_ok`: the loop over the numbers of the corners is the even-odd rule.
* `Guarded.colour?_eq_ok`: the digits of a colour.
* `Guarded.follow_eq_ok`: the share of the way that the camera moves.

The arrays behind the guards are those of the engine's loop over corners and of its slices of
digits. A colour text is known to have three or six digits, all of them in ASCII, before any slice
is taken.
-/

namespace PixelScene.Guarded

/-! ## Polygons -/

/-- The even-odd rule over `remaining` corners from number `i` on; `j` is the number of the corner
before, and `inside` what the corners so far say. -/
def crossingsFrom (p : Point) (corners : List Point) :
    (remaining i j : Nat) → (inside : Bool) → Guarded Bool
  | 0, _, _, inside => return inside
  | remaining + 1, i, j, inside => do
    let v ← item corners i
    let w ← item corners j
    crossingsFrom p corners remaining (i + 1) i (xor inside (rayCrosses p v w))

/-- Whether a point lies inside a polygon, by the even-odd rule. -/
def insidePolygon (p : Point) (corners : List Point) : Guarded Bool := do
  if corners.length < 3 then return false
  let last ← minus corners.length 1
  crossingsFrom p corners corners.length 0 last false

/-- Whether a point lies inside some polygon. -/
def blocks (g : Geometry) (p : Point) : Guarded Bool := g.polygons.anyM (insidePolygon p)

theorem crossingsFrom_eq_ok {p previous : Point} {corners rest : List Point} {i j : Nat}
    {inside : Bool} (hrest : corners.drop i = rest) (hj : corners[j]? = some previous) :
    crossingsFrom p corners rest.length i j inside =
      .ok (xor inside (oddCrossings (rayCrosses p) previous rest)) := by
  induction rest generalizing i j previous inside with
  | nil => exact congrArg Except.ok (Bool.xor_false inside).symm
  | cons v rest ih =>
    have hi : corners[i]? = some v := by rw [← List.head?_drop, hrest, List.head?_cons]
    have hnext : corners.drop (i + 1) = rest := by rw [← List.tail_drop, hrest, List.tail_cons]
    rw [List.length_cons, crossingsFrom, item_eq_ok hi, ok_bind, item_eq_ok hj, ok_bind,
      ih hnext hi, Bool.xor_assoc, oddCrossings]

theorem insidePolygon_eq_ok (p : Point) (corners : List Point) :
    insidePolygon p corners = .ok (PixelScene.insidePolygon p corners) := by
  unfold insidePolygon PixelScene.insidePolygon insideOutline
  cases hlast : corners.getLast? with
  | none =>
    obtain rfl := List.getLast?_eq_none_iff.mp hlast
    rfl
  | some last =>
    split
    · rfl
    · rename_i hlength
      rw [minus_eq_ok (by omega), ok_bind,
        crossingsFrom_eq_ok List.drop_zero (by rw [← List.getLast?_eq_getElem?, hlast]),
        Bool.false_xor]

theorem blocks_eq_ok (g : Geometry) (p : Point) : blocks g p = .ok (g.blocks p) :=
  anyM_eq_ok fun corners _ => insidePolygon_eq_ok p corners

/-! ## Colours -/

/-- The part of a colour that two digits spell, from a place on. -/
def colourPart (digits : List Nat) (start : Nat) : Guarded UInt8 := do
  let part ← slice digits start (start + 2)
  return UInt8.ofNat (part.foldl (fun n d => n * 16 + d) 0)

/-- The colour of some digits. -/
def ofDigits? (digits : List Nat) : Guarded (Option Colour) := do
  if digits.length = 6 then
    let red ← colourPart digits 0
    let green ← colourPart digits 2
    let blue ← colourPart digits 4
    return some ⟨red, green, blue⟩
  else return Colour.ofDigits? digits

/-- The colour that a text names. -/
def colour? (cs : List Char) : Guarded (Option Colour) :=
  match (Text.dropFront ['#'] (Text.trim cs)).mapM Json.hexValue? with
  | some digits => ofDigits? digits
  | none => return none

/-- The opaque tint that a text names. -/
def tint (cs : List Char) : Guarded Tint := do
  match ← colour? cs with
  | some c => return ⟨Tint.share c.red, Tint.share c.green, Tint.share c.blue, 1⟩
  | none => return Tint.white

theorem colourPart_eq_ok {digits : List Nat} {start a b : Nat}
    (h : (digits.drop start).take 2 = [a, b]) (hstop : start + 2 ≤ digits.length) :
    colourPart digits start = .ok (UInt8.ofNat (a * 16 + b)) := by
  rw [colourPart, slice_eq_ok (Nat.le_add_right start 2) hstop, ok_bind, Nat.add_sub_cancel_left, h,
    List.foldl_cons, List.foldl_cons, List.foldl_nil, Nat.zero_mul, Nat.zero_add]
  rfl

theorem ofDigits?_eq_ok (digits : List Nat) :
    ofDigits? digits = .ok (Colour.ofDigits? digits) := by
  unfold ofDigits?
  split
  · rename_i h
    match digits, h with
    | [r, r', g, g', b, b'], _ =>
      rw [colourPart_eq_ok rfl (by simp), ok_bind, colourPart_eq_ok rfl (by simp), ok_bind,
        colourPart_eq_ok rfl (by simp), ok_bind]
      rfl
  · rfl

theorem colour?_eq_ok (cs : List Char) : colour? cs = .ok (Colour.parse? cs) := by
  unfold colour? Colour.parse?
  cases (Text.dropFront ['#'] (Text.trim cs)).mapM Json.hexValue? with
  | none => rfl
  | some digits => exact ofDigits?_eq_ok digits

theorem tint_eq_ok (cs : List Char) : tint cs = .ok (Tint.parse cs) := by
  rw [tint, colour?_eq_ok, ok_bind, Tint.parse]
  cases Colour.parse? cs <;> rfl

/-! ## The camera -/

/-- A share of a way, held between two bounds. -/
def clampShare (low high t : Float32) : Guarded Float32 :=
  if low ≤ high then .ok (if t < low then low else if high < t then high else t)
  else .error .emptyClamp

/-- Moves a share of the way to a target. -/
def follow (c : Camera) (target : Point) (speed : Float32) : Guarded Camera := do
  let share ← clampShare 0 1 speed
  return { c with position := c.position.lerp target share }

theorem follow_eq_ok (c : Camera) (target : Point) (speed : Float32) :
    follow c target speed = .ok (c.follow target speed) := by
  have hbounds : (0 : Float32) ≤ 1 := by decide +kernel
  have hshare : clampShare 0 1 speed = .ok (Camera.clampShare speed) := if_pos hbounds
  rw [follow, hshare, ok_bind]
  rfl

end PixelScene.Guarded
