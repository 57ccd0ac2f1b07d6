import PixelScene.Memory.Storage

/-!
# Entity slots

The entity pool is divided into 736 slots of sixteen bytes. A slot is known by the address of its
first byte. It holds whether the entity is active, its type, position, velocity, health and sprite,
and four scratch bytes that the components of its type share out.

* `slotAddresses`: the addresses of the slots that fit into a memory, ascending.
* `Memory.field`, `Edit.setField`: a field of a slot, read and written. What does not fit a field is
  held at its least or greatest value.
* `Scratch` is a part of the scratch bytes, and `Scratch.place` where an access into it lands
  (`addr` of a `ScratchRange`).
* `Edit.spawn`: puts a fresh entity into the first slot that is not active.

The engine compares and adds the numbers of an access to scratch bytes in 64 bits, without a check.
`Number.wrapWord64` does the same: a sum that is too large wraps around, and the access may then go
through where it should have been refused. This is the engine as it is released; a build that checks
for overflow stops there instead. Where the sum fits into a word, the place is the sum
(`Scratch.place_eq_add`).
-/

namespace PixelScene

/-! ## Addresses -/

/-- The bytes of a slot. -/
def slotBytes : Nat := 16

/-- The number of slots. -/
def slotCount : Nat := Region.entityPool.size / slotBytes

/-- The address of a slot by its number. -/
def slotAddress (index : Nat) : Nat := Region.entityPool.start + index * slotBytes

/-- The number of the slot at an address, which must be the first byte of one. -/
def slotIndex? (address : Nat) : Option Nat :=
  if address < Region.entityPool.start ∨ Region.entityPool.stop ≤ address then none
  else
    let offset := address - Region.entityPool.start
    if offset % slotBytes = 0 then some (offset / slotBytes) else none

/-- The number of slots that fit into a memory of some size. -/
def slotsWithin (size : Nat) : Nat := min slotCount ((size - Region.entityPool.start) / slotBytes)

/-- The addresses of the slots that fit into a memory of some size, ascending. -/
def slotAddresses (size : Nat) : List Nat := (List.range (slotsWithin size)).map slotAddress

/-! ## Fields -/

/-- A field of a slot: its place in the slot and its storage type. -/
structure SlotField where
  offset : Nat
  storage : Storage
deriving DecidableEq, Repr

namespace SlotField

/-- One when the entity is active, else zero. -/
def active : SlotField := ⟨0, .int8⟩

/-- The number of the entity's type, counted from one. -/
def typeId : SlotField := ⟨1, .int8⟩

/-- How far to the right the entity is. -/
def positionX : SlotField := ⟨2, .int16⟩

/-- How far down the entity is. -/
def positionY : SlotField := ⟨4, .int16⟩

/-- The step to the right in a frame. -/
def velocityX : SlotField := ⟨6, .signedInt16⟩

/-- The step down in a frame. -/
def velocityY : SlotField := ⟨8, .signedInt16⟩

/-- The health that is left. -/
def health : SlotField := ⟨10, .int8⟩

/-- The number of the sprite shown, zero for none. -/
def sprite : SlotField := ⟨11, .int8⟩

end SlotField

/-- The place of the scratch bytes in a slot. -/
def scratchOffset : Nat := 12

/-- The number of scratch bytes. -/
def scratchBytes : Nat := slotBytes - scratchOffset

/-- The integers of a field are saturated to its range before they are stored. -/
def SlotField.saturate (f : SlotField) (value : Int) : Int :=
  match f.storage with
  | .int8 => Number.clamp 0 255 value
  | .int16 => Number.clamp 0 65535 value
  | .signedInt16 => Number.clamp (-32768) 32767 value
  | .int24 => Number.clamp 0 16777215 value

/-- Refuses an address that is not the first byte of a slot. -/
def checkSlot (address : Nat) : Except AccessError Unit :=
  if (slotIndex? address).isSome then .ok ()
  else .error (.outsideRegion Region.entityPool.name address slotBytes)

namespace Memory

/-- The integer in a field of a slot. -/
def field (m : Memory) (address : Nat) (f : SlotField) : Except AccessError Int := do
  checkSlot address
  m.fetchInt f.storage (address + f.offset)

/-- Whether the entity of a slot is active. -/
def isActive (m : Memory) (address : Nat) : Except AccessError Bool := do
  return (← m.field address .active) != 0

/-- The position of the entity of a slot. -/
def position (m : Memory) (address : Nat) : Except AccessError (Int × Int) := do
  let x ← m.field address .positionX
  let y ← m.field address .positionY
  return (x, y)

/-- The velocity of the entity of a slot. -/
def velocity (m : Memory) (address : Nat) : Except AccessError (Int × Int) := do
  let x ← m.field address .velocityX
  let y ← m.field address .velocityY
  return (x, y)

/-- The addresses of the active slots, ascending. -/
def activeSlots (m : Memory) : List Nat :=
  (slotAddresses m.size).filter fun p => ((m.isActive p).toOption).getD false

/-- The first slot that is not active. -/
def freeSlot? (m : Memory) : Option Nat :=
  (slotAddresses m.size).find? fun p => !((m.isActive p).toOption).getD true

end Memory

namespace Edit

/-- Writes an integer to a field of a slot, saturated to the range of the field. -/
def setField (address : Nat) (f : SlotField) (value : Int) : Edit Unit := do
  read fun _ => checkSlot address
  storeInt f.storage (address + f.offset) (f.saturate value)

/-- Makes the entity of a slot active or not. -/
def setActive (address : Nat) (active : Bool) : Edit Unit :=
  setField address .active (if active then 1 else 0)

/-- Moves the entity of a slot. -/
def setPosition (address : Nat) (x y : Int) : Edit Unit := do
  setField address .positionX x
  setField address .positionY y

/-- Sets the velocity of the entity of a slot. -/
def setVelocity (address : Nat) (x y : Int) : Edit Unit := do
  setField address .velocityX x
  setField address .velocityY y

/-- Fills a slot with zeros. -/
def clearSlot (address : Nat) : Edit Unit := do
  read fun _ => checkSlot address
  fill .entityPool address slotBytes 0

/--
Puts an entity into the first slot that is not active and gives its address; when there is no such
slot, nothing happens. The slot is cleared first, so nothing of an earlier entity is left in it.
-/
def spawn (typeId : Int) (x y health : Int) : Edit (Option Nat) := do
  match (← get).freeSlot? with
  | none => return none
  | some address =>
    clearSlot address
    setField address .typeId typeId
    setPosition address x y
    setField address .health health
    setActive address true
    return some address

end Edit

/-! ## Scratch bytes -/

/-- The scratch bytes of a slot that belong to one component. -/
structure Scratch where
  start : Nat
  size : Nat
deriving DecidableEq, Repr

namespace Scratch

/-- No scratch bytes. -/
def none : Scratch := ⟨0, 0⟩

/-- The address of `width` bytes of a component's part, which must lie in it and in the slot. The
sums are of 64-bit words, so a very great index or start passes for a small one. -/
def address (s : Scratch) (slot index width : Nat) : Except AccessError Nat := do
  let cell := Number.wrapWord64 (slot + scratchOffset + s.start + index)
  if s.size < Number.wrapWord64 (index + width) ∨
      scratchBytes < Number.wrapWord64 (s.start + index + width) then
    throw (.outsideRegion "component scratch" cell width)
  return cell

end Scratch

namespace Memory

/-- A scratch cell of a slot. -/
def scratch (m : Memory) (slot : Nat) (s : Scratch) (t : Storage) (index : Nat) :
    Except AccessError Int := do
  checkSlot slot
  m.fetchInt t (← s.address slot index t.width)

end Memory

namespace Edit

/-- Writes a scratch cell of a slot. -/
def setScratch (slot : Nat) (s : Scratch) (t : Storage) (index : Nat) (value : Int) :
    Edit Unit := do
  read fun _ => checkSlot slot
  let address ← read fun _ => s.address slot index t.width
  storeInt t address value

end Edit

end PixelScene
