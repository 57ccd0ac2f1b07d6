import PixelScene.Proofs.Guarded.Steps
import PixelScene.Proofs.Memory.Write

/-!
# Guarded readings and writes

A cell is read and written byte by byte, and a slot is cleared as a slice of the memory. All of this
comes after a check of the addresses, so none of it is stopped.

* `Guarded.fetch_mirrors`, `Guarded.store_mirrors`: cells.
* `Guarded.setField_mirrors`: fields of a slot, whose values are held within their range.
* `Guarded.spawn_mirrors`: a fresh entity, whose slot is cleared first.
* `Guarded.scratch_mirrors`, `Guarded.setScratch_mirrors`: scratch bytes.

Each guard is an index into the bytes or the bounds of a slice, as the engine takes them: a cell of
two bytes is two indices, a slot that is cleared is one slice. `check` comes first and is part of
the definitions that are mirrored, so what is proved is that the check covers what follows it.
-/

namespace PixelScene.Guarded

/-! ## Cells -/

/-- The big-endian number of `width` bytes from an address on. -/
def fetchRaw (m : Memory) (address : Nat) : (width : Nat) → Guarded Nat
  | 0 => return 0
  | width + 1 => do
    let front ← fetchRaw m address width
    let last ← byte m (address + width)
    return front * 256 + last.toNat

/-- The memory with the low bytes of a number from an address on, big-endian. -/
def storeRaw (m : Memory) (address : Nat) : (width value : Nat) → Guarded Memory
  | 0, _ => return m
  | width + 1, value => do
    let m ← storeRaw m address width (value / 256)
    setByte m (address + width) (UInt8.ofNat value)

/-- The memory with the same byte at every address from one up to but without another. -/
def fillSlice (m : Memory) (start stop : Nat) (value : UInt8) : Guarded Memory :=
  if start ≤ stop ∧ stop ≤ m.size then .ok (m.fillRaw start value (stop - start))
  else .error (.slice start stop m.size)

/-- The number of `width` bytes from an address on, if they are all in the memory. -/
def fetch (address width : Nat) : GuardedEdit Nat := do
  Edit.read (·.check address width)
  let m ← (get : Edit Memory)
  fetchRaw m address width

/-- Writes the low bytes of a number, if they are all in the memory. -/
def store (address width value : Nat) : GuardedEdit Unit := do
  Edit.read (·.check address width)
  let m ← (get : Edit Memory)
  let stored ← storeRaw m address width value
  (set stored : Edit PUnit)

/-- Writes the same byte to every address of a region's part, if it lies in the region. -/
def fill (r : Region) (address width : Nat) (value : UInt8) : GuardedEdit Unit := do
  Edit.read (·.checkRegion r address width)
  let m ← (get : Edit Memory)
  let filled ← fillSlice m address (address + width) value
  (set filled : Edit PUnit)

theorem fetchRaw_eq_ok {m : Memory} {address width : Nat} (h : address + width ≤ m.size) :
    fetchRaw m address width = .ok (m.fetchRaw address width) := by
  induction width with
  | zero => rfl
  | succ width ih => rw [fetchRaw, ih (by omega), ok_bind, byte_eq_ok (by omega), ok_bind]; rfl

theorem storeRaw_eq_ok {m : Memory} {address width : Nat} (h : address + width ≤ m.size)
    (value : Nat) : storeRaw m address width value = .ok (m.storeRaw address width value) := by
  induction width generalizing value with
  | zero => rfl
  | succ width ih =>
    rw [storeRaw, ih (by omega), ok_bind]
    exact setByte_eq_ok (by rw [Memory.size_storeRaw]; omega) _

theorem fillSlice_eq_ok {m : Memory} {address width : Nat} (h : address + width ≤ m.size)
    (value : UInt8) :
    fillSlice m address (address + width) value = .ok (m.fillRaw address value width) := by
  rw [fillSlice, if_pos ⟨Nat.le_add_right address width, h⟩, Nat.add_sub_cancel_left]

theorem le_size_of_check {m : Memory} {address width : Nat} (h : m.check address width = .ok ()) :
    address + width ≤ m.size := by
  by_contra hsize
  rw [Memory.check, if_neg hsize] at h
  exact absurd h nofun

theorem fetch_mirrors (address width : Nat) :
    Mirrors (fetch address width) (Edit.read (·.fetch address width)) := by
  unfold Memory.fetch
  rw [Edit.read_bind]
  refine mirrors_check_bind fun m h => ?_
  exact mirrors_guard (fetchRaw_eq_ok (le_size_of_check h)) m

theorem store_mirrors (address width value : Nat) :
    Mirrors (store address width value) (Edit.store address width value) := by
  refine mirrors_check_bind fun m h => ?_
  have hstored := storeRaw_eq_ok (le_size_of_check h) value
  exact mirrors_guard_bind (y := set (m.storeRaw address width value)) hstored (mirrors_lift _) m

theorem fill_mirrors (r : Region) (address width : Nat) (value : UInt8) :
    Mirrors (fill r address width value) (Edit.fill r address width value) := by
  refine mirrors_check_bind fun m h => ?_
  have hcheck : m.check address width = .ok () := by
    rw [Memory.checkRegion] at h
    split at h
    · exact h
    · cases h
  have hfilled := fillSlice_eq_ok (le_size_of_check hcheck) value
  exact mirrors_guard_bind (y := set (m.fillRaw address value width)) hfilled (mirrors_lift _) m

/-! ## Numbers -/

/-- What an integer becomes in a cell. -/
def encode (t : Storage) (value : Int) : Guarded Nat :=
  match t with
  | .int8 => do return (← clamp 0 255 value).toNat
  | t => return t.encode value

/-- The integer that a number is rounded to before it is stored. -/
def rounded (t : Storage) (x : Float) : Guarded Int :=
  match t with
  | .int8 => round 0 255 (Number.exact x)
  | t => return t.rounded x

/-- An integer held within the range of a field. -/
def saturate (f : SlotField) (value : Int) : Guarded Int :=
  match f.storage with
  | .int8 => clamp 0 255 value
  | .int16 => clamp 0 65535 value
  | .signedInt16 => clamp (-32768) 32767 value
  | .int24 => clamp 0 16777215 value

/-- The integer in a cell. -/
def fetchInt (t : Storage) (address : Nat) : GuardedEdit Int := do
  return t.decode (← fetch address t.width)

/-- The number in a cell. -/
def fetchNumber (t : Storage) (address : Nat) : GuardedEdit Float := do
  return Number.ofInt (← fetchInt t address)

/-- Writes an integer to a cell. -/
def storeInt (t : Storage) (address : Nat) (value : Int) : GuardedEdit Unit := do
  let raw ← encode t value
  store address t.width raw

/-- Rounds a number and writes it to a cell. -/
def storeNumber (t : Storage) (address : Nat) (x : Float) : GuardedEdit Unit := do
  let value ← rounded t x
  storeInt t address value

/-- Sets the shake of the camera, if both cells are in the memory. -/
def setShake (x y : Int) : GuardedEdit Unit := do
  Edit.read (·.checkRegion .globals shakeX 2)
  Edit.read (·.checkRegion .globals shakeY 2)
  storeInt .signedInt16 shakeX x
  storeInt .signedInt16 shakeY y

theorem encode_eq_ok (t : Storage) (value : Int) : encode t value = .ok (t.encode value) := by
  cases t <;> rfl

theorem rounded_eq_ok (t : Storage) (x : Float) : rounded t x = .ok (t.rounded x) := by
  cases t <;> rfl

theorem saturate_eq_ok (f : SlotField) (value : Int) :
    saturate f value = .ok (f.saturate value) := by
  obtain ⟨offset, storage⟩ := f
  cases storage <;> rfl

theorem fetchInt_mirrors (t : Storage) (address : Nat) :
    Mirrors (fetchInt t address) (Edit.read (·.fetchInt t address)) :=
  mirrors_read_bind (fetch_mirrors address t.width) fun _ => mirrors_read_pure _

theorem fetchNumber_mirrors (t : Storage) (address : Nat) :
    Mirrors (fetchNumber t address) (Edit.read (·.fetchNumber t address)) :=
  mirrors_read_bind (fetchInt_mirrors t address) fun _ => mirrors_read_pure _

theorem storeInt_mirrors (t : Storage) (address : Nat) (value : Int) :
    Mirrors (storeInt t address value) (Edit.storeInt t address value) :=
  mirrors_guard_bind (encode_eq_ok t value) (store_mirrors _ _ _)

theorem storeNumber_mirrors (t : Storage) (address : Nat) (x : Float) :
    Mirrors (storeNumber t address x) (Edit.storeNumber t address x) :=
  mirrors_guard_bind (rounded_eq_ok t x) (storeInt_mirrors _ _ _)

theorem setShake_mirrors (x y : Int) : Mirrors (setShake x y) (Edit.setShake x y) :=
  mirrors_bind (mirrors_lift _) fun _ => mirrors_bind (mirrors_lift _) fun _ =>
    mirrors_bind (storeInt_mirrors _ _ _) fun _ => storeInt_mirrors _ _ _

/-! ## Slots -/

/-- The number of the slot at an address, which must be the first byte of one. -/
def slotIndex? (address : Nat) : Guarded (Option Nat) := do
  if address < Region.entityPool.start ∨ Region.entityPool.stop ≤ address then return none
  let offset ← minus address Region.entityPool.start
  if (← modulo offset slotBytes) = 0 then
    return some (← divide offset slotBytes)
  return none

/-- Refuses an address that is not the first byte of a slot. -/
def checkSlot (address : Nat) : GuardedEdit Unit := do
  let index ← slotIndex? address
  if index.isSome then return ()
  else (throw (.outsideRegion Region.entityPool.name address slotBytes) : Edit Unit)

/-- The integer in a field of a slot. -/
def field (address : Nat) (f : SlotField) : GuardedEdit Int := do
  checkSlot address
  fetchInt f.storage (address + f.offset)

/-- Whether the entity of a slot is active. -/
def isActive (address : Nat) : GuardedEdit Bool := do
  return (← field address .active) != 0

/-- The position of the entity of a slot. -/
def position (address : Nat) : GuardedEdit (Int × Int) := do
  let x ← field address .positionX
  let y ← field address .positionY
  return (x, y)

/-- The velocity of the entity of a slot. -/
def velocity (address : Nat) : GuardedEdit (Int × Int) := do
  let x ← field address .velocityX
  let y ← field address .velocityY
  return (x, y)

/-- The addresses of the active slots, ascending. -/
def activeSlots (m : Memory) : Guarded (List Nat) :=
  (slotAddresses m.size).filterM fun p => do return ((← (isActive p).outcome? m)).getD false

/-- The first slot that is not active. -/
def freeSlot? (m : Memory) : Guarded (Option Nat) :=
  (slotAddresses m.size).findM? fun p => do return !((← (isActive p).outcome? m)).getD true

/-- Writes an integer to a field of a slot, saturated to the range of the field. -/
def setField (address : Nat) (f : SlotField) (value : Int) : GuardedEdit Unit := do
  checkSlot address
  let stored ← saturate f value
  storeInt f.storage (address + f.offset) stored

/-- Makes the entity of a slot active or not. -/
def setActive (address : Nat) (active : Bool) : GuardedEdit Unit :=
  setField address .active (if active then 1 else 0)

/-- Moves the entity of a slot. -/
def setPosition (address : Nat) (x y : Int) : GuardedEdit Unit := do
  setField address .positionX x
  setField address .positionY y

/-- Sets the velocity of the entity of a slot. -/
def setVelocity (address : Nat) (x y : Int) : GuardedEdit Unit := do
  setField address .velocityX x
  setField address .velocityY y

/-- Fills a slot with zeros. -/
def clearSlot (address : Nat) : GuardedEdit Unit := do
  checkSlot address
  fill .entityPool address slotBytes 0

/-- Puts a fresh entity into the first slot that is not active, if there is one. -/
def spawn (typeId x y health : Int) : GuardedEdit (Option Nat) := do
  let m ← (get : Edit Memory)
  match ← (freeSlot? m : Guarded _) with
  | none => return none
  | some address =>
    clearSlot address
    setField address .typeId typeId
    setPosition address x y
    setField address .health health
    setActive address true
    return some address

theorem slotIndex?_eq_ok (address : Nat) :
    slotIndex? address = .ok (PixelScene.slotIndex? address) := by
  unfold slotIndex? PixelScene.slotIndex?
  split
  · rfl
  · rename_i h
    rw [minus_eq_ok (by omega), ok_bind, modulo_eq_ok (by decide), ok_bind]
    dsimp only
    split
    · rw [divide_eq_ok (by decide)]
      rfl
    · rfl

theorem checkSlot_mirrors (address : Nat) :
    Mirrors (checkSlot address) (Edit.read fun _ => PixelScene.checkSlot address) := by
  refine mirrors_guard_bind (slotIndex?_eq_ok address) fun m => ?_
  unfold PixelScene.checkSlot
  split <;> rfl

theorem field_mirrors (address : Nat) (f : SlotField) :
    Mirrors (field address f) (Edit.read (·.field address f)) :=
  mirrors_read_bind (checkSlot_mirrors address) fun _ => fetchInt_mirrors _ _

theorem isActive_mirrors (address : Nat) :
    Mirrors (isActive address) (Edit.read (·.isActive address)) :=
  mirrors_read_bind (field_mirrors address .active) fun _ => mirrors_read_pure _

theorem position_mirrors (address : Nat) :
    Mirrors (position address) (Edit.read (·.position address)) :=
  mirrors_read_bind (field_mirrors address .positionX) fun _ =>
    mirrors_read_bind (field_mirrors address .positionY) fun _ => mirrors_read_pure _

theorem velocity_mirrors (address : Nat) :
    Mirrors (velocity address) (Edit.read (·.velocity address)) :=
  mirrors_read_bind (field_mirrors address .velocityX) fun _ =>
    mirrors_read_bind (field_mirrors address .velocityY) fun _ => mirrors_read_pure _

theorem activeSlots_eq_ok (m : Memory) : activeSlots m = .ok m.activeSlots := by
  refine filterM_eq_ok (fun p => ?_) _
  rw [(isActive_mirrors p).outcome?]
  rfl

theorem freeSlot?_eq_ok (m : Memory) : freeSlot? m = .ok m.freeSlot? := by
  refine findM?_eq_ok (fun p => ?_) _
  rw [(isActive_mirrors p).outcome?]
  rfl

theorem setField_mirrors (address : Nat) (f : SlotField) (value : Int) :
    Mirrors (setField address f value) (Edit.setField address f value) :=
  mirrors_bind (checkSlot_mirrors address) fun _ =>
    mirrors_guard_bind (saturate_eq_ok f value) (storeInt_mirrors _ _ _)

theorem setActive_mirrors (address : Nat) (active : Bool) :
    Mirrors (setActive address active) (Edit.setActive address active) :=
  setField_mirrors address .active _

theorem setPosition_mirrors (address : Nat) (x y : Int) :
    Mirrors (setPosition address x y) (Edit.setPosition address x y) :=
  mirrors_bind (setField_mirrors address .positionX x) fun _ =>
    setField_mirrors address .positionY y

theorem setVelocity_mirrors (address : Nat) (x y : Int) :
    Mirrors (setVelocity address x y) (Edit.setVelocity address x y) :=
  mirrors_bind (setField_mirrors address .velocityX x) fun _ =>
    setField_mirrors address .velocityY y

theorem clearSlot_mirrors (address : Nat) :
    Mirrors (clearSlot address) (Edit.clearSlot address) :=
  mirrors_bind (checkSlot_mirrors address) fun _ => fill_mirrors .entityPool address slotBytes 0

theorem spawn_mirrors (typeId x y health : Int) :
    Mirrors (spawn typeId x y health) (Edit.spawn typeId x y health) := by
  refine mirrors_bind (mirrors_lift _) fun m => mirrors_guard_bind (freeSlot?_eq_ok m) ?_
  cases m.freeSlot? with
  | none => exact mirrors_pure none
  | some address =>
    exact mirrors_bind (clearSlot_mirrors address) fun _ =>
      mirrors_bind (setField_mirrors address .typeId typeId) fun _ =>
      mirrors_bind (setPosition_mirrors address x y) fun _ =>
      mirrors_bind (setField_mirrors address .health health) fun _ =>
      mirrors_bind (setActive_mirrors address true) fun _ => mirrors_pure _

/-! ## Scratch bytes -/

/-- A scratch cell of a slot. -/
def scratch (slot : Nat) (s : Scratch) (t : Storage) (index : Nat) : GuardedEdit Int := do
  checkSlot slot
  let address ← Edit.read fun _ => s.address slot index t.width
  fetchInt t address

/-- Writes a scratch cell of a slot. -/
def setScratch (slot : Nat) (s : Scratch) (t : Storage) (index : Nat) (value : Int) :
    GuardedEdit Unit := do
  checkSlot slot
  let address ← Edit.read fun _ => s.address slot index t.width
  storeInt t address value

theorem scratch_mirrors (slot : Nat) (s : Scratch) (t : Storage) (index : Nat) :
    Mirrors (scratch slot s t index) (Edit.read (·.scratch slot s t index)) :=
  mirrors_read_bind (checkSlot_mirrors slot) fun _ =>
    mirrors_read_bind (mirrors_lift _) fun _ => fetchInt_mirrors _ _

theorem setScratch_mirrors (slot : Nat) (s : Scratch) (t : Storage) (index : Nat) (value : Int) :
    Mirrors (setScratch slot s t index value) (Edit.setScratch slot s t index value) :=
  mirrors_bind (checkSlot_mirrors slot) fun _ =>
    mirrors_bind (mirrors_lift _) fun _ => storeInt_mirrors _ _ _

end PixelScene.Guarded
