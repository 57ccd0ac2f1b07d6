import PixelScene.Picture.Basic

/-!
# Pictures as PNG files

A PNG file is a signature and a sequence of chunks, each with its length, its kind, its data and a
checksum. The rows of a picture are written without filters and without compression.

* `crc`, `adler`: the checksums of chunks and of compressed data.
* `Picture.toPng`: the bytes of a file.

The engine leaves this to a library, which compresses: the pixels are the same, the bytes of the
file are not. Reading files is left out, since no program reads a picture.
-/

namespace PixelScene.Png

/-! ## Numbers and checksums -/

/-- A number as four bytes, the highest first. -/
def word (n : Nat) : List UInt8 :=
  [UInt8.ofNat (n / 0x1000000), UInt8.ofNat (n / 0x10000), UInt8.ofNat (n / 0x100),
    UInt8.ofNat n]

/-- A number as two bytes, the lowest first. -/
def lowWord (n : Nat) : List UInt8 := [UInt8.ofNat n, UInt8.ofNat (n / 0x100)]

/-- The remainder after one more bit. -/
def crcBit (r : UInt32) : UInt32 :=
  if r &&& 1 = 1 then (r >>> 1) ^^^ 0xEDB88320 else r >>> 1

/-- The remainder after one more byte. -/
def crcByte (r : UInt32) (b : UInt8) : UInt32 := Nat.repeat crcBit 8 (r ^^^ b.toUInt32)

/-- The cyclic redundancy check of some bytes. -/
def crc (bytes : List UInt8) : Nat := (bytes.foldl crcByte 0xFFFFFFFF ^^^ 0xFFFFFFFF).toNat

/-- The modulus of the sums in `adler`. -/
def adlerModulus : Nat := 65521

/-- The sum of some bytes and the sum of these sums. -/
def adler (bytes : List UInt8) : Nat :=
  let (a, b) := bytes.foldl (fun (sums : Nat × Nat) byte =>
    let a := (sums.1 + byte.toNat) % adlerModulus
    (a, (sums.2 + a) % adlerModulus)) (1, 0)
  b * 0x10000 + a

/-! ## Compressed data -/

/-- The most bytes that a stored block holds. -/
def blockBytes : Nat := 65535

/-- A stored block. -/
def block (last : Bool) (bytes : List UInt8) : List UInt8 :=
  (if last then 1 else 0)
    :: (lowWord bytes.length ++ lowWord (blockBytes - bytes.length) ++ bytes)

/-- Bytes in stored blocks, the last of which is marked. -/
def blocks (bytes : List UInt8) : List UInt8 :=
  if bytes.length ≤ blockBytes then block true bytes
  else block false (bytes.take blockBytes) ++ blocks (bytes.drop blockBytes)
termination_by bytes.length
decreasing_by
  simp only [List.length_drop, blockBytes] at *
  omega

/-- Bytes as compressed data that is not compressed. -/
def stored (bytes : List UInt8) : List UInt8 := [0x78, 0x01] ++ blocks bytes ++ word (adler bytes)

/-! ## Chunks -/

/-- The first bytes of a file. -/
def signature : List UInt8 := [0x89, 0x50, 0x4E, 0x47, 0x0D, 0x0A, 0x1A, 0x0A]

/-- A chunk of a kind. -/
def chunk (kind : String) (data : List UInt8) : List UInt8 :=
  let body := kind.toUTF8.toList ++ data
  word data.length ++ body ++ word (crc body)

/-- The data of the first chunk: the size, eight bits for each of four channels, and no frills. -/
def sizeData (width height : Nat) : List UInt8 := word width ++ word height ++ [8, 6, 0, 0, 0]

/-- The first `count` rows of some bytes, each after the mark of a row without a filter. -/
def markedRows (rowBytes : Nat) : (count : Nat) → List UInt8 → List UInt8
  | 0, _ => []
  | count + 1, bytes =>
    0 :: (bytes.take rowBytes ++ markedRows rowBytes count (bytes.drop rowBytes))

end PixelScene.Png

namespace PixelScene

/-- A picture as the bytes of a file. -/
def Picture.toPng (p : Picture) : List UInt8 :=
  let rows := Png.markedRows (p.width * pixelBytes) p.height p.bytes
  Png.signature ++ Png.chunk "IHDR" (Png.sizeData p.width p.height)
    ++ Png.chunk "IDAT" (Png.stored rows) ++ Png.chunk "IEND" []

end PixelScene
