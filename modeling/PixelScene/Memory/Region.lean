import PixelScene.Number.Binary

/-!
# The regions of the memory

The memory of a running script is the pixels of its canvas, four bytes each. The first 16384 bytes,
a canvas of 64 by 64 pixels, are divided into four regions that lie one after the other: header,
globals, entity pool, and audio (`BLOCKS`).

* `Region.all_tile`: the regions leave no gap and do not overlap.
* `Region.holds`: whether bytes lie in a region. The sum of offset and width is one of 64 bits
  (`contains`).
* `AccessError` is what can be wrong with an access (`BufferError`): the bytes are not all in the
  memory, or they are not all in the part that the access is confined to. Its message names the
  offset and the number of bytes.

A canvas may be larger, in which case the bytes behind the regions are pixels only. It may be
smaller for a memory that a host brings, so no access takes a region for granted.
-/

namespace PixelScene

/-- The bytes of a pixel. -/
def pixelBytes : Nat := 4

/-- The width and the height of the smallest canvas that holds every region of a square canvas. -/
def defaultSide : Nat := 64

/-- The bytes that the regions take. -/
def layoutBytes : Nat := defaultSide * defaultSide * pixelBytes

/-- A named part of the memory, from `start` up to but without `stop`. -/
structure Region where
  name : String
  start : Nat
  stop : Nat
deriving DecidableEq, Repr

namespace Region

/-- Reserved bytes in front. -/
def header : Region := ⟨"header", 0, 64⟩

/-- The variables of the script, and at their end the shake of the camera. -/
def globals : Region := ⟨"globals", 64, 512⟩

/-- The slots of the entities. -/
def entityPool : Region := ⟨"entityPool", 512, 12288⟩

/-- Bytes reserved for sound. -/
def audio : Region := ⟨"audioFx", 12288, layoutBytes⟩

/-- The regions in order. -/
def all : List Region := [header, globals, entityPool, audio]

/-- The number of bytes of a region. -/
def size (r : Region) : Nat := r.stop - r.start

/-- Whether `width` bytes from `offset` on lie in a region. -/
def holds (r : Region) (offset width : Nat) : Bool :=
  r.start ≤ offset && Number.wrapWord64 (offset + width) ≤ r.stop

/-- Each region starts where the one before it stops, and the last one stops with the layout. -/
theorem all_tile : all.map start = 0 :: (all.map stop).dropLast ∧
    (all.map stop).getLast? = some layoutBytes := by decide

end Region

/-- Why bytes cannot be read or written. -/
inductive AccessError where
  | outOfRange (offset width size : Nat)
  | outsideRegion (region : String) (offset width : Nat)
deriving DecidableEq, Repr

namespace AccessError

/-- The wording of an error. -/
def message : AccessError → String
  | outOfRange offset width size =>
    s!"offset {offset} (+{width} bytes) is out of range for a {size}-byte buffer"
  | outsideRegion region offset width =>
    s!"offset {offset} (+{width} bytes) lies outside the {region} block"

end AccessError

end PixelScene
