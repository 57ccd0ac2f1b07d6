import PixelScene.Memory.Basic

/-!
# Pictures

A picture is a grid of pixels with four bytes each: red, green, blue and alpha. A memory whose size
is that of a canvas is a picture of it. That the bytes fill the pixels is part of what a picture is,
so nothing that takes one has to check it again.
-/

namespace PixelScene

/-- A picture: four bytes for each pixel, row by row. -/
structure Picture where
  width : Nat
  height : Nat
  bytes : List UInt8
  length_bytes : bytes.length = width * height * pixelBytes
deriving DecidableEq

namespace Picture

/-- A picture of one colour. -/
def filled (width height : Nat) (red green blue alpha : UInt8) : Picture where
  width := width
  height := height
  bytes := (List.replicate (width * height) [red, green, blue, alpha]).flatten
  length_bytes := by
    simp only [List.length_flatten, List.map_replicate, List.sum_replicate_nat, List.length_cons,
      List.length_nil, pixelBytes]

instance : Inhabited Picture := ⟨⟨0, 0, [], rfl⟩⟩

/-- The picture that a memory of the right size is. -/
def ofMemory? (m : Memory) (width height : Nat) : Option Picture :=
  if h : m.bytes.toList.length = width * height * pixelBytes then
    some ⟨width, height, m.bytes.toList, h⟩
  else none

end Picture

end PixelScene
