import PixelScene.Picture.Basic

/-!
# Cartridges

A cartridge is a picture that carries a memory: under the rows of the canvas come rows with a mark
of one pixel, three pixels of zeros, the bytes of the memory, and zeros up to the end of the row.

* `Cartridge.pack` puts a memory under a canvas, which needs at least one column.
* `Cartridge.unpack?` takes canvas and memory apart again. The size of the memory is not written
  anywhere, so it has to be known.
* `Cartridge.dataRows`: the rows that a memory takes, rounded up twice, to pixels and then to rows.

These are `pack`, `unpack` and `data_rows` of the engine. A picture carries the proof that its bytes
fill its pixels, so `pack` has to show that the header and the memory fit (`header_add_size_le`).
Heights are natural numbers: the engine counts rows in 32 bits, and a packed picture that exceeds
them is no picture there. Files are left out; `PixelScene.Picture.Png` writes them.
-/

namespace PixelScene

namespace Cartridge

/-! ## Layout -/

/-- The mark in front of a memory. -/
def mark : List UInt8 := [0x4D, 0x5A, 0x4B, 0x31]

/-- The bytes in front of a memory: the mark and three pixels of zeros. -/
def header : List UInt8 := mark ++ List.replicate (3 * pixelBytes) 0

/-- The number of pixels of the header. -/
def headerPixels : Nat := 4

theorem length_header : header.length = headerPixels * pixelBytes := by decide

/-- The pixels of the header and of a memory, the last of which may be filled only in part. -/
def dataPixels (size : Nat) : Nat := (size + (pixelBytes - 1)) / pixelBytes + headerPixels

/-- The number of rows under a canvas of some width that a memory of some size takes. -/
def dataRows (size width : Nat) : Nat := (dataPixels size + (max width 1 - 1)) / max width 1

/-- The rows under a canvas have room for the header and the memory. -/
theorem header_add_size_le {size width : Nat} (h : width ≠ 0) :
    header.length + size ≤ width * dataRows size width * pixelBytes := by
  have hw : max width 1 = width := by omega
  have hrows : dataPixels size ≤ width * dataRows size width := by
    have := Nat.div_add_mod (dataPixels size + (width - 1)) width
    have hlt := Nat.mod_lt (dataPixels size + (width - 1)) (Nat.pos_of_ne_zero h)
    simp only [dataRows, hw]
    omega
  have hpixels : header.length + size ≤ dataPixels size * pixelBytes := by
    simp only [length_header, dataPixels, headerPixels, pixelBytes]
    omega
  exact Nat.le_trans hpixels (Nat.mul_le_mul_right _ hrows)

/-- The bytes under a canvas of some width. -/
def rows (state : Memory) (width : Nat) : List UInt8 :=
  header ++ state.bytes.toList ++ List.replicate
    (width * dataRows state.size width * pixelBytes - (header.length + state.size)) 0

/-- The bytes under a canvas fill their rows. -/
theorem length_rows (state : Memory) {width : Nat} (h : width ≠ 0) :
    (rows state width).length = width * dataRows state.size width * pixelBytes := by
  have hle : header.length + state.size ≤ _ := header_add_size_le h
  have hsize : state.bytes.size = state.size := rfl
  simp only [rows, List.length_append, List.length_replicate, Array.length_toList, hsize]
  omega

/-! ## Packing -/

/-- Why a memory cannot be put under a canvas. -/
inductive PackFault where
  | emptyCanvas
deriving DecidableEq, Repr

/-- The wording of a fault. -/
def PackFault.message : PackFault → String
  | emptyCanvas => "cannot pack state under an empty canvas"

/-- A canvas with a memory under it. -/
def pack (canvas : Picture) (state : Memory) : Except PackFault Picture :=
  if h : canvas.width = 0 then .error .emptyCanvas
  else .ok {
    width := canvas.width
    height := canvas.height + dataRows state.size canvas.width
    bytes := canvas.bytes ++ rows state canvas.width
    length_bytes := by
      rw [List.length_append, canvas.length_bytes, length_rows state h, Nat.mul_add, Nat.add_mul] }

/-! ## Unpacking -/

/-- The upper rows of a picture. -/
def upperRows (image : Picture) (height : Nat) (h : height ≤ image.height) : Picture where
  width := image.width
  height := height
  bytes := image.bytes.take (image.width * height * pixelBytes)
  length_bytes := by
    rw [List.length_take, image.length_bytes, Nat.min_eq_left]
    exact Nat.mul_le_mul_right _ (Nat.mul_le_mul_left _ h)

/-- The memory of `size` bytes in the rows under a canvas, if they start with the mark. -/
def state? (under : List UInt8) (size : Nat) : Option Memory :=
  if mark.isPrefixOf under ∧ header.length + size ≤ under.length then
    some ⟨((under.drop header.length).take size).toArray⟩
  else none

/-- The canvas of a picture and the memory of `size` bytes under it, if it carries one. -/
def unpack? (image : Picture) (size : Nat) : Option (Picture × Memory) :=
  if dataRows size image.width ≤ image.height then
    let canvas := upperRows image (image.height - dataRows size image.width) (Nat.sub_le _ _)
    (state? (image.bytes.drop canvas.bytes.length) size).map (canvas, ·)
  else none

/-- The canvas of a picture and its memory; a picture without a memory is all canvas. -/
def load (image : Picture) (size : Nat) : Picture × Option Memory :=
  match unpack? image size with
  | some (canvas, state) => (canvas, some state)
  | none => (image, none)

end Cartridge

end PixelScene
