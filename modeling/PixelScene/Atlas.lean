import PixelScene.Script.Basic

/-!
# Sprite numbers

Every frame of every sprite of a script has a number, counted from one in the order of declaration;
zero means that no sprite is shown. An `Atlas` is the table of these numbers. The engine builds it
once for a script (`SpriteAtlas`: `build`, `range`, `id_of`, `frame`) and asks it in every tick for
the frame of an animation (`frame_at`).

* `Atlas.ofScript` lays the sprites out one after the other. No sprite has two ranges, since the
  sprites of a script have different names.
* `SpriteRange.frameAt` picks the frame of an animation that is shown in a tick.
* `Sprite.frame` is the rectangle of a frame. A column that does not fit into 32 bits and a pixel
  that does not fit into 31 are held at the greatest one (`saturating_add`, `grid_pixel`).

The numbers are natural numbers here. The engine has 32 bits for them, which is no bound in
practice, as every number has a frame in a list in memory. That the sprite byte of a slot has room
for 255 of them only is the business of the tick, not of the atlas.
-/

namespace PixelScene

/-- The numbers of one sprite: the first, and how many follow without a gap. -/
structure SpriteRange where
  first : Nat
  count : Nat
deriving DecidableEq, Repr

/-- The rectangle of pixels behind one sprite number. -/
structure SpriteFrame where
  name : String
  frame : Nat
  x : Int
  y : Int
  width : Nat
  height : Nat
  offsetX : Int
  offsetY : Int
deriving DecidableEq, Repr

namespace SpriteRange

/-- How many ticks a frame lasts: one, unless a positive finite number is given. -/
def usableSpeed (speed : Float) : Float := if speed.isFinite && 0 < speed then speed else 1

/-- The sprite number shown in a tick when a frame lasts `speed` ticks. -/
def frameAt (r : SpriteRange) (tick : Nat) (speed : Float) : Nat :=
  let step := Number.truncateWord64 (Number.ofInt tick / usableSpeed speed)
  r.first + step % max r.count 1

end SpriteRange

namespace Sprite

/-- How many sprite numbers a sprite takes. -/
def frameCount : Sprite → Nat
  | grid _ _ frames => max frames 1
  | absolute .. => 1

/-- The greatest column. -/
def maxColumn : Nat := Number.twoTo 32 - 1

/-- The greatest pixel coordinate. -/
def maxPixel : Nat := Number.twoTo 31 - 1

/-- The pixel at which a cell of the grid starts. -/
def gridPixel (cell side : Nat) : Int := (min (cell * side) maxPixel : Nat)

/-- The rectangle of a frame of a sprite: frames on the grid follow each other to the right. -/
def frame (s : Sprite) (side : Nat) (name : String) (k : Nat) : SpriteFrame :=
  match s with
  | grid column row _ =>
    ⟨name, k, gridPixel (min (column + k) maxColumn) side, gridPixel row side, side, side, 0, 0⟩
  | absolute x y width height offsetX offsetY => ⟨name, k, x, y, width, height, offsetX, offsetY⟩

end Sprite

/-- The numbers of the sprites of a script. -/
structure Atlas where
  ranges : Table SpriteRange
  frames : List SpriteFrame

namespace Atlas

/-- The ranges of some sprites when the first number is `next`. -/
def rangesFrom (next : Nat) : List (String × Sprite) → List (String × SpriteRange)
  | [] => []
  | (name, s) :: more => (name, ⟨next, s.frameCount⟩) :: rangesFrom (next + s.frameCount) more

theorem map_fst_rangesFrom (next : Nat) (es : List (String × Sprite)) :
    (rangesFrom next es).map Prod.fst = es.map Prod.fst := by
  induction es generalizing next with
  | nil => rfl
  | cons e es ih => rw [rangesFrom, List.map_cons, List.map_cons, ih]

/-- The frames of a sprite in order. -/
def framesOf (side : Nat) (entry : String × Sprite) : List SpriteFrame :=
  (List.range entry.2.frameCount).map (entry.2.frame side entry.1)

/-- The sprite numbers of a script. -/
def ofScript (s : Script) : Atlas where
  ranges := ⟨rangesFrom 1 s.sprites.entries, map_fst_rangesFrom 1 _ ▸ s.sprites.distinct⟩
  frames := s.sprites.entries.flatMap (framesOf s.gridSize)

/-- The numbers of a sprite. -/
def range? (a : Atlas) (name : String) : Option SpriteRange := a.ranges.get? name

/-- The first number of a sprite. -/
def first? (a : Atlas) (name : String) : Option Nat := (a.range? name).map SpriteRange.first

/-- The rectangle behind a sprite number. -/
def frame? (a : Atlas) (id : Nat) : Option SpriteFrame :=
  if id = 0 then none else a.frames[id - 1]?

/-- How many numbers are taken. -/
def size (a : Atlas) : Nat := a.frames.length

/-- The numbers that are taken, ascending, with their rectangles. -/
def numbered (a : Atlas) : List (Nat × SpriteFrame) := a.frames.mapIdx fun i f => (i + 1, f)

end Atlas

end PixelScene
