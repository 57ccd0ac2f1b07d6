import PixelScene.Number.Binary

/-!
# Points and baked geometry

Geometry is in single precision. Scripts come with polygons that block movement and with polylines
that entities follow; both are baked beforehand and only read here (`BakedAssets`, with
`point_in_any_polygon`, `path_point` and `path_len`).

* `insideOutline` is the even-odd rule over the edges of an outline, for any test of crossing.
  `insidePolygon` is the rule with the test of the engine (`point_in_polygon`), which divides in
  single precision.
* `Point.unit?` scales a vector to length one, when it has a direction.

The operations on points are those of the vector library that the engine uses, each rounded on its
own: nothing is fused or reordered.
-/

namespace PixelScene

/-- A point or a vector. -/
structure Point where
  x : Float32
  y : Float32
deriving BEq

namespace Point

/-- The point of whole coordinates. -/
def ofInts (x y : Int) : Point := ⟨Number.singleOfInt x, Number.singleOfInt y⟩

/-- The unit vector to the right. -/
def right : Point := ⟨1, 0⟩

/-- The zero vector. -/
def zero : Point := ⟨0, 0⟩

/-- The sum of two vectors. -/
def add (p q : Point) : Point := ⟨p.x + q.x, p.y + q.y⟩

/-- The vector from `q` to `p`. -/
def sub (p q : Point) : Point := ⟨p.x - q.x, p.y - q.y⟩

/-- A vector stretched by a factor. -/
def scale (p : Point) (factor : Float32) : Point := ⟨p.x * factor, p.y * factor⟩

/-- A vector divided by a number. -/
def shrink (p : Point) (divisor : Float32) : Point := ⟨p.x / divisor, p.y / divisor⟩

/-- The square of the length. -/
def lengthSquared (p : Point) : Float32 := p.x * p.x + p.y * p.y

/-- The length. -/
def length (p : Point) : Float32 := p.lengthSquared.sqrt

/-- The point a share `t` of the way from `p` to `q`. -/
def lerp (p q : Point) (t : Float32) : Point := p.add ((q.sub p).scale t)

/-- The vector of length one in the same direction, when the length has a positive inverse. -/
def unit? (p : Point) : Option Point :=
  let inverse := 1 / p.length
  if inverse.isFinite && 0 < inverse then some (p.scale inverse) else none

/-- The nearest whole coordinates, saturated; zero where a coordinate is not a number. -/
def rounded (p : Point) : Int × Int :=
  ((Number.exactSingle p.x).round Number.int64Min Number.int64Max,
    (Number.exactSingle p.y).round Number.int64Min Number.int64Max)

end Point

/-! ## Outlines -/

/-- How often a test holds on neighbours of a sequence that starts after `previous`, by parity. -/
def oddCrossings {α : Type} (crosses : α → α → Bool) : (previous : α) → List α → Bool
  | _, [] => false
  | previous, v :: vs => xor (crosses v previous) (oddCrossings crosses v vs)

/-- Whether a test holds on an odd number of the edges of a closed outline, which has three corners
or more. -/
def insideOutline {α : Type} (crosses : α → α → Bool) (corners : List α) : Bool :=
  match corners.getLast? with
  | some last => if corners.length < 3 then false else oddCrossings crosses last corners
  | none => false

/-- Whether the ray from `p` to the right crosses the edge between `v` and `w`. -/
def rayCrosses (p v w : Point) : Bool :=
  ((p.y < v.y : Bool) != (p.y < w.y : Bool))
    && p.x < (w.x - v.x) * (p.y - v.y) / (w.y - v.y) + v.x

/-- Whether a point lies inside a polygon, by the even-odd rule. -/
def insidePolygon (p : Point) (corners : List Point) : Bool := insideOutline (rayCrosses p) corners

/-! ## Baked geometry -/

/-- The polygons that block movement and the polylines that entities follow. -/
structure Geometry where
  polygons : List (List Point)
  paths : List (List Point)

namespace Geometry

/-- No geometry. -/
def empty : Geometry := ⟨[], []⟩

instance : Inhabited Geometry := ⟨empty⟩

/-- Whether a point lies inside some polygon. -/
def blocks (g : Geometry) (p : Point) : Bool := g.polygons.any (insidePolygon p)

/-- A point of a path. -/
def pathPoint? (g : Geometry) (path index : Nat) : Option Point :=
  (g.paths[path]?).bind (·[index]?)

/-- The number of points of a path, zero when there is no such path. -/
def pathSize (g : Geometry) (path : Nat) : Nat := ((g.paths[path]?).map List.length).getD 0

end Geometry

end PixelScene
