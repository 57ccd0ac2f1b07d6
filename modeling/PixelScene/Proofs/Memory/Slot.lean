import PixelScene.Memory.Slot
import PixelScene.Proofs.Memory.Cell

/-!
# Slots in the memory

A slot is active when its first byte is not zero, and the byte after it is the number of its type;
the other fourteen bytes are its data.

* `setField_within`: a field access writes to its own bytes.
* `Scratch.address_eq_ok`: where a scratch cell lies, whether or not its sums go over the top.
* `setScratch_cases`: a scratch write is refused, or changes nothing but its cell.
* `spawn_of_free`: a fresh entity takes the first slot that is not active, and no other byte
  changes.

Fields have fixed places, so their accesses are plain sums. A scratch access is given a part and an
index, and the engine adds them up in 64 bits (`addr`): it asks that the index lies in the part and
that the part lies in the slot, each with a sum that may wrap. `Scratch.Refused` is that question,
`Scratch.place` the byte that it leads to. As long as no sum is too large the two say what one
expects (`Scratch.not_refused_of_fits`, `Scratch.place_eq_add`).
-/

namespace PixelScene

open Memory (Within)

/-! ## Addresses -/

/-- The address of a slot of the pool, whether or not it fits into the memory. -/
def IsSlot (address : Nat) : Prop := ∃ index < slotCount, address = slotAddress index

theorem slotCount_eq : slotCount = 736 := rfl

theorem isSlot_iff {address : Nat} :
    IsSlot address ↔ 512 ≤ address ∧ address < 12288 ∧ address % 16 = 0 := by
  simp only [IsSlot, slotCount_eq, slotAddress, Region.entityPool, slotBytes]
  constructor
  · rintro ⟨index, hindex, rfl⟩
    omega
  · rintro ⟨hlow, hhigh, hmod⟩
    exact ⟨(address - 512) / 16, by omega, by omega⟩

theorem IsSlot.add_le {address : Nat} (h : IsSlot address) : address + 16 ≤ 12288 := by
  have := isSlot_iff.mp h
  omega

/-- The bytes of two slots do not meet. -/
theorem IsSlot.apart {p q : Nat} (hp : IsSlot p) (hq : IsSlot q) (hne : p ≠ q) :
    p + 16 ≤ q ∨ q + 16 ≤ p := by
  have := isSlot_iff.mp hp
  have := isSlot_iff.mp hq
  omega

theorem isSome_slotIndex?_iff {address : Nat} :
    (slotIndex? address).isSome = true ↔ IsSlot address := by
  have hstart : Region.entityPool.start = 512 := rfl
  have hstop : Region.entityPool.stop = 12288 := rfl
  rw [isSlot_iff, slotIndex?, hstart, hstop, slotBytes]
  split
  · exact ⟨nofun, fun h => by omega⟩
  · dsimp only
    split
    · exact ⟨fun _ => by omega, fun _ => rfl⟩
    · exact ⟨nofun, fun h => by omega⟩

theorem checkSlot_eq_ok {address : Nat} (h : IsSlot address) : checkSlot address = .ok () :=
  if_pos (isSome_slotIndex?_iff.mpr h)

theorem checkSlot_eq_error {address : Nat} (h : ¬ IsSlot address) :
    checkSlot address = .error (.outsideRegion Region.entityPool.name address slotBytes) :=
  if_neg fun hsome => h (isSome_slotIndex?_iff.mp hsome)

theorem mem_slotAddresses {address size : Nat} :
    address ∈ slotAddresses size ↔ IsSlot address ∧ address + 16 ≤ size := by
  simp only [slotAddresses, slotsWithin, List.mem_map, List.mem_range, IsSlot, slotCount_eq,
    slotAddress, Region.entityPool, slotBytes]
  constructor
  · rintro ⟨index, hindex, rfl⟩
    exact ⟨⟨index, by omega, rfl⟩, by omega⟩
  · rintro ⟨⟨index, hindex, rfl⟩, hsize⟩
    exact ⟨index, by omega, rfl⟩

/-! ## The bytes of slots -/

/-- The bytes of the slots. -/
def poolCells : Set Nat := Set.Ico Region.entityPool.start Region.entityPool.stop

/-- The bytes of a slot. -/
def slotCells (address : Nat) : Set Nat := Set.Ico address (address + slotBytes)

/-- The bytes of a slot but for those that tell whether it is active and what its type is. -/
def slotData (address : Nat) : Set Nat :=
  {i | IsSlot address ∧ i ∈ Set.Ico (address + 2) (address + slotBytes)}

/-- The data of all slots. -/
def poolData : Set Nat := {i | ∃ address, i ∈ slotData address}

theorem slotData_subset_poolData (address : Nat) : slotData address ⊆ poolData :=
  fun _ hi => ⟨address, hi⟩

theorem IsSlot.slotCells_subset {address : Nat} (h : IsSlot address) :
    slotCells address ⊆ poolCells := by
  rintro i ⟨hlow, hhigh⟩
  obtain ⟨hstart, -, -⟩ := isSlot_iff.mp h
  exact ⟨hstart.trans hlow, hhigh.trans_le h.add_le⟩

/-- No byte of a slot belongs to another one. -/
theorem IsSlot.add_notMem_slotCells {slot other : Nat} (hslot : IsSlot slot) (hother : IsSlot other)
    (hne : slot ≠ other) : ∀ i < 16, slot + i ∉ slotCells other := by
  rintro i hi ⟨hlow, hhigh⟩
  have hbytes : slotBytes = 16 := rfl
  rcases hslot.apart hother hne with h | h <;> omega

theorem poolData_subset_poolCells : poolData ⊆ poolCells := by
  rintro i ⟨address, hslot, hi⟩
  exact hslot.slotCells_subset ⟨(Nat.le_add_right address 2).trans hi.1, hi.2⟩

/-- Whether a slot is active is no part of the data of any slot. -/
theorem IsSlot.active_notMem_poolData {p : Nat} (hp : IsSlot p) : p ∉ poolData := by
  rintro ⟨q, hq, hlow, hhigh⟩
  have := isSlot_iff.mp hp
  have := isSlot_iff.mp hq
  simp only [slotBytes] at hhigh
  omega

/-- The type of a slot is no part of the data of any slot. -/
theorem IsSlot.type_notMem_poolData {p : Nat} (hp : IsSlot p) : p + 1 ∉ poolData := by
  rintro ⟨q, hq, hlow, hhigh⟩
  have := isSlot_iff.mp hp
  have := isSlot_iff.mp hq
  simp only [slotBytes] at hhigh
  omega

namespace SlotField

/-- The bytes of a field of a slot. -/
def cells (f : SlotField) (address : Nat) : Set Nat :=
  Set.Ico (address + f.offset) (address + f.offset + f.storage.width)

end SlotField

/-! ## Reading a slot -/

namespace Memory

theorem field_eq_fetchInt {m : Memory} {address : Nat} {f : SlotField} (h : IsSlot address) :
    m.field address f = m.fetchInt f.storage (address + f.offset) := by
  rw [field, checkSlot_eq_ok h]
  rfl

theorem field_eq_ok {m : Memory} {address : Nat} {f : SlotField} (hslot : IsSlot address)
    (hsize : address + f.offset + f.storage.width ≤ m.size) :
    m.field address f =
      .ok (f.storage.decode (m.fetchRaw (address + f.offset) f.storage.width)) := by
  rw [field_eq_fetchInt hslot, fetchInt_eq_ok hsize]

/-- A field is read only from a slot, and only if the memory has it. -/
theorem isSlot_of_field_eq_ok {m : Memory} {address : Nat} {f : SlotField} {value : Int}
    (h : m.field address f = .ok value) :
    IsSlot address ∧ address + f.offset + f.storage.width ≤ m.size := by
  have hslot : IsSlot address := by
    by_contra hslot
    rw [field, checkSlot_eq_error hslot] at h
    exact absurd h nofun
  rw [field_eq_fetchInt hslot] at h
  exact ⟨hslot, (fetchInt_eq_ok_iff.mp h).1⟩

/-- In a slot that fits into the memory every field is read. -/
theorem exists_field_eq_ok {m : Memory} {slot : Nat} (hslot : slot ∈ slotAddresses m.size)
    {f : SlotField} (hf : f.offset + f.storage.width ≤ slotBytes) :
    ∃ value, m.field slot f = .ok value := by
  obtain ⟨hslot, hsize⟩ := mem_slotAddresses.mp hslot
  rw [slotBytes] at hf
  exact ⟨_, field_eq_ok hslot (by omega)⟩

theorem exists_position_eq_ok {m : Memory} {slot : Nat} (hslot : slot ∈ slotAddresses m.size) :
    ∃ p, m.position slot = .ok p := by
  obtain ⟨x, hx⟩ := exists_field_eq_ok hslot (f := .positionX) (by decide)
  obtain ⟨y, hy⟩ := exists_field_eq_ok hslot (f := .positionY) (by decide)
  rw [position, hx, hy]
  exact ⟨(x, y), rfl⟩

theorem exists_velocity_eq_ok {m : Memory} {slot : Nat} (hslot : slot ∈ slotAddresses m.size) :
    ∃ v, m.velocity slot = .ok v := by
  obtain ⟨x, hx⟩ := exists_field_eq_ok hslot (f := .velocityX) (by decide)
  obtain ⟨y, hy⟩ := exists_field_eq_ok hslot (f := .velocityY) (by decide)
  rw [velocity, hx, hy]
  exact ⟨(x, y), rfl⟩

/-- A field of one byte is read as that byte. -/
theorem byteField_eq_ok {m : Memory} {address : Nat} {f : SlotField} (hf : f.storage = .int8)
    (hslot : IsSlot address) (hsize : address + f.offset + f.storage.width ≤ m.size) :
    m.field address f = .ok ((m.byte (address + f.offset)).toNat : Int) := by
  have hraw : ∀ i, m.fetchRaw i 1 = (m.byte i).toNat := fun i => by
    rw [fetchRaw, fetchRaw, Nat.zero_mul, Nat.zero_add, Nat.add_zero]
  rw [field_eq_ok hslot hsize, hf, Storage.width, hraw]
  rfl

theorem isActive_eq_ok {m : Memory} {address : Nat} (hslot : IsSlot address)
    (hsize : address < m.size) : m.isActive address = .ok (m.byte address != 0) := by
  have hbyte : ((m.byte address).toNat : Int) ≠ 0 ↔ m.byte address ≠ 0 := by
    rw [Int.natCast_ne_zero, ← UInt8.toNat_zero, ne_eq, ne_eq, UInt8.toNat_inj]
  rw [isActive, byteField_eq_ok (f := .active) rfl hslot hsize]
  refine congrArg Except.ok (Bool.eq_iff_iff.mpr ?_)
  rw [bne_iff_ne, bne_iff_ne]
  exact hbyte

theorem typeId_eq_ok {m : Memory} {address : Nat} (hslot : IsSlot address)
    (hsize : address + 1 < m.size) :
    m.field address .typeId = .ok ((m.byte (address + 1)).toNat : Int) :=
  byteField_eq_ok (f := .typeId) rfl hslot hsize

/-- The first slot that is not active fits into the memory. -/
theorem freeSlot?_eq_some {m : Memory} {address : Nat} (h : m.freeSlot? = some address) :
    IsSlot address ∧ address + 16 ≤ m.size ∧ m.byte address = 0 := by
  obtain ⟨hslot, hsize⟩ := mem_slotAddresses.mp (List.mem_of_find?_eq_some h)
  have hinactive := List.find?_some h
  rw [isActive_eq_ok hslot (by omega)] at hinactive
  refine ⟨hslot, hsize, ?_⟩
  simpa [Except.toOption] using hinactive

/-- The memory with a value in a field of a slot. -/
def putField (m : Memory) (address : Nat) (f : SlotField) (value : Int) : Memory :=
  m.storeRaw (address + f.offset) f.storage.width (f.storage.encode (f.saturate value))

@[simp] theorem size_putField (m : Memory) (address : Nat) (f : SlotField) (value : Int) :
    (m.putField address f value).size = m.size := m.size_storeRaw _ _ _

theorem within_putField (m : Memory) (address : Nat) (f : SlotField) (value : Int) :
    Within (f.cells address) m (m.putField address f value) := m.within_storeRaw _ _ _

theorem byte_putField_of_notMem {m : Memory} {address : Nat} {f : SlotField} {value : Int} {i : Nat}
    (h : i < address + f.offset ∨ address + f.offset + f.storage.width ≤ i) :
    (m.putField address f value).byte i = m.byte i :=
  (m.within_putField address f value).byte i fun hi => by
    have hlow : address + f.offset ≤ i := hi.1
    have hhigh : i < address + f.offset + f.storage.width := hi.2
    omega

/-- A field of one byte holds the value, saturated. -/
theorem byte_putField {m : Memory} {address : Nat} {f : SlotField} (hf : f.storage = .int8)
    (hsize : address + f.offset < m.size) (value : Int) :
    (m.putField address f value).byte (address + f.offset) =
      UInt8.ofNat (Number.clamp 0 255 value).toNat := by
  have hclamp : Number.clamp 0 255 (Number.clamp 0 255 value) = Number.clamp 0 255 value := by
    have hmem := Number.clamp_mem (by decide : (0 : Int) ≤ 255) value
    exact Number.clamp_eq_self hmem.1 hmem.2
  have hexp : address + f.offset + 1 - 1 - (address + f.offset) = 0 := by omega
  rw [putField, SlotField.saturate, hf, byte_storeRaw, Storage.width,
    if_pos ⟨le_refl _, by omega, hsize⟩, hexp, Nat.pow_zero, Nat.div_one, Storage.encode, hclamp]

end Memory

/-! ## Writing to a slot -/

namespace Edit

theorem setField_eq_ok {m : Memory} {address : Nat} {f : SlotField} (hslot : IsSlot address)
    (hsize : address + f.offset + f.storage.width ≤ m.size) (value : Int) :
    setField address f value m = .ok () (m.putField address f value) := by
  rw [setField, bind_of_ok (read_eq_ok (checkSlot_eq_ok hslot))]
  exact store_eq_ok hsize _

/-- The setter of a field writes to the field of a slot, or to nothing. -/
theorem setField_within (address : Nat) (f : SlotField) (value : Int) :
    Keeps (Within {i | IsSlot address ∧ i ∈ f.cells address}) (setField address f value) := by
  by_cases hslot : IsSlot address
  · refine keeps_bind (keeps_read _) fun _ => ?_
    refine (storeInt_within f.storage _ _).mono fun _ _ => Within.mono fun i hi => ?_
    exact ⟨hslot, hi⟩
  · intro m
    have herror : setField address f value m = .error _ m :=
      bind_of_error (read_eq_error (checkSlot_eq_error hslot))
    rw [leaves_of_error herror]
    exact .refl _ m

/-- The setter of a field behind the first two leaves alone which slots are active and
their types. -/
theorem setField_slotData {f : SlotField} (hlow : 2 ≤ f.offset)
    (hhigh : f.offset + f.storage.width ≤ slotBytes) (address : Nat) (value : Int) :
    Keeps (Within (slotData address)) (setField address f value) := by
  refine (setField_within address f value).mono fun _ _ => Within.mono fun i hi => ?_
  obtain ⟨hslot, hi⟩ := hi
  exact ⟨hslot, (Nat.add_le_add_left hlow address).trans hi.1, hi.2.trans_le (by omega)⟩

theorem setPosition_slotData (address : Nat) (x y : Int) :
    Keeps (Within (slotData address)) (setPosition address x y) :=
  keeps_bind (setField_slotData (by decide) (by decide) address x) fun _ =>
    setField_slotData (by decide) (by decide) address y

theorem setVelocity_slotData (address : Nat) (x y : Int) :
    Keeps (Within (slotData address)) (setVelocity address x y) :=
  keeps_bind (setField_slotData (by decide) (by decide) address x) fun _ =>
    setField_slotData (by decide) (by decide) address y

end Edit

/-! ## Scratch bytes -/

namespace Scratch

/-- The bytes of a slot that belong to a component's part. -/
def cells (s : Scratch) (slot : Nat) : Set Nat :=
  Set.Ico (slot + scratchOffset + s.start) (slot + scratchOffset + s.start + s.size) ∩ slotCells slot

/-- A cell whose place is refused: counted in 64-bit words, its end lies behind the part or behind
the slot. -/
def Refused (s : Scratch) (index width : Nat) : Prop :=
  s.size < Number.wrapWord64 (index + width) ∨
    scratchBytes < Number.wrapWord64 (s.start + index + width)

instance (s : Scratch) (index width : Nat) : Decidable (s.Refused index width) :=
  inferInstanceAs (Decidable (_ ∨ _))

/-- Where a cell lies that is not refused. -/
def place (s : Scratch) (slot index width : Nat) : Nat :=
  slot + scratchOffset + Number.wrapWord64 (s.start + index + width) - width

/-- The bytes of a cell that is not refused. -/
def reach (s : Scratch) (slot index width : Nat) : Set Nat :=
  Set.Ico (s.place slot index width) (s.place slot index width + width)

variable {s : Scratch} {slot index width : Nat}

theorem exists_address_eq_error (slot : Nat) (h : s.Refused index width) :
    ∃ e, s.address slot index width = .error e := by
  unfold Refused at h
  rw [address, if_pos h]
  exact ⟨_, rfl⟩

theorem address_eq_word (slot : Nat) (h : ¬ s.Refused index width) :
    s.address slot index width =
      .ok (Number.wrapWord64 (slot + scratchOffset + s.start + index)) := by
  unfold Refused at h
  rw [address, if_neg h]
  rfl

/-- Also where the sums go over the top, the cell ends at most four bytes behind the start of the
scratch bytes. -/
theorem address_eq_ok (hslot : IsSlot slot) (hwidth : width ≤ 3) (h : ¬ s.Refused index width) :
    s.address slot index width = .ok (s.place slot index width) := by
  have hpool := hslot.add_le
  have hplace : Number.wrapWord64 (slot + scratchOffset + s.start + index) =
      s.place slot index width := by
    simp only [place, Number.wrapWord64, scratchOffset]
    simp only [Refused, Number.wrapWord64, scratchBytes, slotBytes, scratchOffset, not_or] at h
    omega
  rw [address_eq_word slot h, hplace]

/-- Where no sum goes over the top, a cell is refused unless it lies in the part and in the slot. -/
theorem refused_iff (hindex : index + width < 2 ^ 64) (hstart : s.start + index + width < 2 ^ 64) :
    s.Refused index width ↔ s.size < index + width ∨ scratchBytes < s.start + index + width := by
  rw [Refused, Number.wrapWord64_eq_self hindex, Number.wrapWord64_eq_self hstart]

theorem place_eq_add (hwidth : width ≤ scratchOffset) :
    s.place slot index width = slot + s.place 0 index width := by
  rw [place, place]
  omega

/-- A cell that lies in the part and in the slot is where it is looked for. -/
theorem place_of_fits (h : s.start + index + width ≤ scratchBytes) :
    s.place slot index width = slot + scratchOffset + s.start + index := by
  have hword : scratchBytes < 2 ^ 64 := by decide
  rw [place, Number.wrapWord64_eq_self (by omega)]
  omega

theorem not_refused_of_fits (hsize : index + width ≤ s.size)
    (hscratch : s.start + index + width ≤ scratchBytes) : ¬ s.Refused index width := by
  have hword : scratchBytes < 2 ^ 64 := by decide
  rw [refused_iff (by omega) (by omega)]
  omega

theorem address_of_fits (hslot : IsSlot slot) (hsize : index + width ≤ s.size)
    (hscratch : s.start + index + width ≤ scratchBytes) :
    s.address slot index width = .ok (slot + scratchOffset + s.start + index) := by
  have hpool := hslot.add_le
  rw [address_eq_word slot (not_refused_of_fits hsize hscratch), Number.wrapWord64_eq_self]
  simp only [scratchOffset, scratchBytes, slotBytes] at *
  omega

/-- A cell that is not refused lies in its slot, behind the velocity. -/
theorem reach_subset (hwidth : width ≤ 3) (h : ¬ s.Refused index width) :
    s.reach slot index width ⊆ Set.Ico (slot + 9) (slot + slotBytes) := by
  rintro i ⟨hlow, hhigh⟩
  simp only [Refused, scratchBytes, slotBytes, not_or] at h
  simp only [place, scratchOffset, slotBytes, Set.mem_Ico] at *
  omega

theorem reach_subset_slotCells (hwidth : width ≤ 3) (h : ¬ s.Refused index width) :
    s.reach slot index width ⊆ slotCells slot :=
  (reach_subset hwidth h).trans (Set.Ico_subset_Ico_left (Nat.le_add_right _ _))

theorem reach_subset_slotData (hslot : IsSlot slot) (hwidth : width ≤ 3)
    (h : ¬ s.Refused index width) : s.reach slot index width ⊆ slotData slot := fun _ hi =>
  ⟨hslot, Set.Ico_subset_Ico_left (Nat.add_le_add_left (by decide) _) (reach_subset hwidth h hi)⟩

/-- A cell that lies in the part and in the slot takes bytes of the part. -/
theorem reach_subset_cells (hsize : index + width ≤ s.size)
    (hscratch : s.start + index + width ≤ scratchBytes) :
    s.reach slot index width ⊆ s.cells slot := by
  rintro i ⟨hlow, hhigh⟩
  rw [place_of_fits hscratch] at hlow hhigh
  simp only [scratchBytes, scratchOffset, slotBytes] at hscratch
  refine ⟨⟨?_, ?_⟩, ?_, ?_⟩ <;> simp only [scratchOffset, slotBytes] at * <;> omega

end Scratch

namespace Edit

/-- A scratch write is refused and changes nothing, or it changes bytes of the cell. -/
theorem setScratch_cases (slot : Nat) (s : Scratch) (t : Storage) (index : Nat) (value : Int)
    (m : Memory) : (∃ e, setScratch slot s t index value m = .error e m) ∨
      IsSlot slot ∧ ¬ s.Refused index t.width ∧ ∃ m', setScratch slot s t index value m = .ok () m' ∧
        Within (s.reach slot index t.width) m m' := by
  by_cases hslot : IsSlot slot
  · have hrun : setScratch slot s t index value m =
        (do
          let address ← Edit.read fun _ => s.address slot index t.width
          storeInt t address value : Edit Unit) m := bind_of_ok (read_eq_ok (checkSlot_eq_ok hslot))
    rw [hrun]
    by_cases hrefused : s.Refused index t.width
    · obtain ⟨e, he⟩ := Scratch.exists_address_eq_error slot hrefused
      exact .inl ⟨e, bind_of_error (read_eq_error he)⟩
    · rw [bind_of_ok (read_eq_ok (Scratch.address_eq_ok hslot t.width_le hrefused))]
      by_cases hsize : s.place slot index t.width + t.width ≤ m.size
      · exact .inr ⟨hslot, hrefused, _, store_eq_ok hsize _, m.within_storeRaw _ _ _⟩
      · exact .inl ⟨_, store_eq_error hsize _⟩
  · exact .inl ⟨_, bind_of_error (read_eq_error (checkSlot_eq_error hslot))⟩

theorem setScratch_slotData (slot : Nat) (s : Scratch) (t : Storage) (index : Nat) (value : Int) :
    Keeps (Within (slotData slot)) (setScratch slot s t index value) := by
  intro m
  rcases setScratch_cases slot s t index value m with ⟨e, h⟩ | ⟨hslot, hrefused, m', h, hwithin⟩
  · rw [leaves_of_error h]
    exact .refl _ m
  · rw [leaves_of_ok h]
    exact hwithin.mono (Scratch.reach_subset_slotData hslot t.width_le hrefused)

/-! ## Fresh entities -/

/-- Nothing happens when every slot is active. -/
theorem spawn_of_full {m : Memory} (h : m.freeSlot? = none) (typeId x y health : Int) :
    spawn typeId x y health m = .ok none m := by
  rw [spawn, bind_of_ok get_eq_ok, h]
  rfl

/-- The memory with a fresh entity in a slot. -/
def fresh (m : Memory) (address : Nat) (typeId x y health : Int) : Memory :=
  (((((m.fillRaw address 0 slotBytes).putField address .typeId typeId).putField address
    .positionX x).putField address .positionY y).putField address .health health).putField address
    .active 1

/-- A fresh entity takes the first slot that is not active. -/
theorem spawn_of_free {m : Memory} {address : Nat} (h : m.freeSlot? = some address)
    (typeId x y health : Int) :
    spawn typeId x y health m = .ok (some address) (fresh m address typeId x y health) := by
  obtain ⟨hslot, hsize, -⟩ := Memory.freeSlot?_eq_some h
  have hclear : clearSlot address m = .ok () (m.fillRaw address 0 slotBytes) := by
    have hpool := isSlot_iff.mp hslot
    have hholds : Region.entityPool.holds address slotBytes = true := by
      have hend := hslot.add_le
      rw [Region.holds, slotBytes, Number.wrapWord64_eq_self (by omega)]
      exact Bool.and_eq_true_iff.mpr ⟨decide_eq_true hpool.1, decide_eq_true hend⟩
    rw [clearSlot, bind_of_ok (read_eq_ok (checkSlot_eq_ok hslot))]
    exact bind_of_ok (read_eq_ok (Memory.checkRegion_eq_ok hholds hsize))
  -- no write is refused: each of them leaves the length as it was
  have hput : ∀ {m' : Memory} (f : SlotField) (value : Int), m'.size = m.size →
      f.offset + f.storage.width ≤ 16 →
      setField address f value m' = .ok () (m'.putField address f value) :=
    fun f value hm' hf => setField_eq_ok hslot (by omega) value
  have hposition : ∀ {m' : Memory}, m'.size = m.size → setPosition address x y m' =
      .ok () ((m'.putField address .positionX x).putField address .positionY y) := by
    intro m' hm'
    rw [setPosition, bind_of_ok (hput .positionX x hm' (by decide))]
    exact hput .positionY y (by simpa using hm') (by decide)
  rw [spawn, bind_of_ok get_eq_ok, h]
  dsimp only
  rw [bind_of_ok hclear, bind_of_ok (hput .typeId typeId (by simp) (by decide)),
    bind_of_ok (hposition (by simp)), bind_of_ok (hput .health health (by simp) (by decide)),
    setActive, bind_of_ok (hput .active _ (by simp) (by decide))]
  rfl

/-- A fresh entity changes nothing but its slot. -/
theorem within_fresh (m : Memory) {address : Nat} (typeId x y health : Int) :
    Within (slotCells address) m (fresh m address typeId x y health) := by
  have hput : ∀ (m' : Memory) (f : SlotField) (value : Int),
      f.offset + f.storage.width ≤ slotBytes →
      Within (slotCells address) m' (m'.putField address f value) := by
    intro m' f value hf
    refine (m'.within_putField address f value).mono fun i hi => ?_
    exact ⟨(Nat.le_add_right _ _).trans hi.1, hi.2.trans_le (by omega)⟩
  have hclear := m.within_fillRaw address 0 slotBytes
  exact ((((hclear.trans (hput _ _ _ (by decide))).trans (hput _ _ _ (by decide))).trans
    (hput _ _ _ (by decide))).trans (hput _ _ _ (by decide))).trans (hput _ _ _ (by decide))

/-- A fresh entity is put into a slot, or nowhere. -/
theorem spawn_within (typeId x y health : Int) :
    Keeps (Within poolCells) (spawn typeId x y health) := by
  intro m
  cases h : m.freeSlot? with
  | none =>
    rw [leaves_of_ok (spawn_of_full h typeId x y health)]
    exact .refl _ m
  | some address =>
    rw [leaves_of_ok (spawn_of_free h typeId x y health)]
    have hslot := (Memory.freeSlot?_eq_some h).1
    exact (within_fresh m typeId x y health).mono hslot.slotCells_subset

theorem active_fresh {m : Memory} {address : Nat} (hsize : address < m.size)
    (typeId x y health : Int) : (fresh m address typeId x y health).byte address = 1 := by
  have hfits : address + SlotField.active.offset < m.size := hsize
  exact Memory.byte_putField (f := .active) rfl (by simpa using hfits) 1

theorem type_fresh {m : Memory} {address : Nat} (hsize : address + 1 < m.size) {typeId : Nat}
    (htype : typeId ≤ 255) (x y health : Int) :
    ((fresh m address typeId x y health).byte (address + 1)).toNat = typeId := by
  have hbefore : ∀ (f : SlotField), 1 < f.offset → address + 1 < address + f.offset :=
    fun f hf => Nat.add_lt_add_left hf address
  have hafter : address + SlotField.active.offset + SlotField.active.storage.width ≤ address + 1 :=
    le_refl _
  have hfits : address + SlotField.typeId.offset < m.size := hsize
  rw [fresh, Memory.byte_putField_of_notMem (.inr hafter),
    Memory.byte_putField_of_notMem (.inl (hbefore .health (by decide))),
    Memory.byte_putField_of_notMem (.inl (hbefore .positionY (by decide))),
    Memory.byte_putField_of_notMem (.inl (hbefore .positionX (by decide)))]
  have htypeId := Memory.byte_putField (m := m.fillRaw address 0 slotBytes) (f := .typeId) rfl
    (by simpa using hfits) (typeId : Int)
  have hclamp : Number.clamp 0 255 (typeId : Int) = typeId :=
    Number.clamp_eq_self (by omega) (by omega)
  rw [hclamp, Int.toNat_natCast] at htypeId
  change ((_ : Memory).byte (address + SlotField.typeId.offset)).toNat = typeId
  rw [htypeId, UInt8.toNat_ofNat_of_lt' (Nat.lt_succ_of_le htype)]

end Edit

end PixelScene
