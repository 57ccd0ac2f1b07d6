import PixelScene.Memory.Region

/-!
# Memory

A memory is a sequence of bytes that is never resized (`StateBuffer`). Numbers in it are big-endian.
`fetch` reads a number of some width and `store` writes one; both refuse bytes that are not all in
the memory (`check`), and a refused `store` changes nothing. An `Edit` is a sequence of writes that
stops at the first refusal and keeps what was written before it.

* `size_setByte`: writing keeps the size.
* `byte_setByte`: a byte written is the byte read, and every other byte is as it was.

Addresses are natural numbers here. The engine adds width to address with a check, so that an
address too large is refused and does not wrap around; only the places of scratch bytes are added
without one (`PixelScene.Memory.Slot`).
-/

namespace PixelScene

/-- The bytes that are both the pixels of the canvas and the memory of the script. -/
structure Memory where
  bytes : Array UInt8
deriving DecidableEq

namespace Memory

instance : Inhabited Memory := ⟨⟨#[]⟩⟩

/-! ## Bytes -/

/-- A memory of zeros. -/
def zeros (size : Nat) : Memory := ⟨Array.replicate size 0⟩

/-- A memory of zeros for a canvas. -/
def ofCanvas (width height : Nat) : Memory := zeros (width * height * pixelBytes)

/-- The number of bytes. -/
def size (m : Memory) : Nat := m.bytes.size

/-- The byte at an address, zero beyond the end. -/
def byte (m : Memory) (address : Nat) : UInt8 := m.bytes.getD address 0

/-- Writes a byte; nothing happens beyond the end. -/
def setByte (m : Memory) (address : Nat) (value : UInt8) : Memory :=
  ⟨m.bytes.setIfInBounds address value⟩

@[simp] theorem size_zeros (n : Nat) : (zeros n).size = n := by simp [zeros, size]

@[simp] theorem size_setByte (m : Memory) (address : Nat) (value : UInt8) :
    (m.setByte address value).size = m.size := by simp [setByte, size]

theorem byte_setByte (m : Memory) (address other : Nat) (value : UInt8) :
    (m.setByte address value).byte other =
      if other = address ∧ address < m.size then value else m.byte other := by
  unfold byte setByte size
  by_cases h : other = address
  · subst h
    by_cases hs : other < m.bytes.size
    · simp [Array.getD, hs]
    · simp [Array.getD, hs]
  · simp [Array.getD_eq_getD_getElem?, h, Ne.symm h]

/-! ## Numbers -/

/-- The big-endian number of `width` bytes from an address on. -/
def fetchRaw (m : Memory) (address : Nat) : (width : Nat) → Nat
  | 0 => 0
  | width + 1 => fetchRaw m address width * 256 + (m.byte (address + width)).toNat

/-- Writes the low bytes of a number from an address on, big-endian. -/
def storeRaw (m : Memory) (address : Nat) : (width value : Nat) → Memory
  | 0, _ => m
  | width + 1, value =>
    (storeRaw m address width (value / 256)).setByte (address + width) (UInt8.ofNat value)

/-- Writes the same byte to `width` addresses. -/
def fillRaw (m : Memory) (address : Nat) (value : UInt8) : (width : Nat) → Memory
  | 0 => m
  | width + 1 => (fillRaw m address value width).setByte (address + width) value

/-- Refuses bytes that are not all in the memory. -/
def check (m : Memory) (address width : Nat) : Except AccessError Unit :=
  if address + width ≤ m.size then .ok () else .error (.outOfRange address width m.size)

/-- Refuses bytes that are not all in a region and in the memory. -/
def checkRegion (m : Memory) (r : Region) (address width : Nat) : Except AccessError Unit :=
  if r.holds address width then m.check address width
  else .error (.outsideRegion r.name address width)

/-- The number of `width` bytes from an address on. -/
def fetch (m : Memory) (address width : Nat) : Except AccessError Nat := do
  m.check address width
  return m.fetchRaw address width

/-- The bytes of a region that the memory has. -/
def regionBytes (m : Memory) (r : Region) : List UInt8 :=
  (m.bytes.extract r.start (min r.stop m.size)).toList

end Memory

/-! ## Edits -/

/-- A sequence of writes, which keeps what was written when one of them is refused. -/
abbrev Edit (α : Type) := EStateM AccessError Memory α

namespace Edit

/-- The outcome of a reading. -/
def read {α : Type} (f : Memory → Except AccessError α) : Edit α := fun m =>
  match f m with
  | .ok a => .ok a m
  | .error e => .error e m

/-- Writes the low bytes of a number, if they are all in the memory. -/
def store (address width value : Nat) : Edit Unit := do
  read (·.check address width)
  modify (·.storeRaw address width value)

/-- Writes the same byte to every address of a region's part, if it lies in the region. -/
def fill (r : Region) (address width : Nat) (value : UInt8) : Edit Unit := do
  read (·.checkRegion r address width)
  modify (·.fillRaw address value width)

end Edit

/-! ## Pixels -/

namespace Memory

/-- The number of whole pixels. -/
def pixelCount (m : Memory) : Nat := m.size / pixelBytes

/-- The four bytes of a pixel, if it lies in the memory. -/
def pixel? (m : Memory) (index : Nat) : Option (List UInt8) :=
  if index < m.pixelCount then
    some ((List.range pixelBytes).map fun i => m.byte (index * pixelBytes + i))
  else none

end Memory

end PixelScene
