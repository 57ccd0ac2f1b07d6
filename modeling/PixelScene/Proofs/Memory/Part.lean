import PixelScene.Proofs.Memory.Slot

/-!
# The parts of a slot

A part of a slot is what one getter reads and one setter writes: a field, a pair of fields, or a
scratch byte. The parts of a slot lie beside one another and slots lie apart, so a setter is seen by
the getter of its own part and by no other.

* `Memory.field_putField`, `Memory.putField_of_field`, `Memory.Within.field_eq`: one field.
* `SlotPart.write_reads`, `SlotPart.write_of_read`, `SlotPart.read_of_within`: one part.
* `SlotPart.independent`: any two parts of any two slots.

The getters and setters are those of the engine on a slot: the active byte, the type, position,
velocity, health, sprite, and the scratch accesses of one and two bytes. Scratch cells are taken by
their place in the slot, so that two components with overlapping parts may well see each other's
writes; that the engine does not share out overlapping parts is said elsewhere
(`PixelScene.Proofs.Simulation.ScratchParts`). What a setter cannot hold it saturates, and the
getter returns the saturated value.
-/

namespace PixelScene

open Memory (Within)

/-! ## Fields -/

namespace SlotField

variable {f g : SlotField} {v : Int}

theorem saturate_eq_clamp (f : SlotField) (v : Int) :
    f.saturate v = Number.clamp f.storage.least f.storage.greatest v := by
  rw [saturate]
  cases f.storage <;> rfl

theorem saturate_mem (f : SlotField) (v : Int) :
    f.storage.least ≤ f.saturate v ∧ f.saturate v ≤ f.storage.greatest := by
  rw [saturate_eq_clamp]
  exact Number.clamp_mem (by cases f.storage <;> decide) v

theorem saturate_eq_self (hlow : f.storage.least ≤ v) (hhigh : v ≤ f.storage.greatest) :
    f.saturate v = v := by
  rw [saturate_eq_clamp, Number.clamp_eq_self hlow hhigh]

/-- The byte of a slot with a given number among the scratch bytes. -/
def scratch (byte : Nat) : SlotField := ⟨scratchOffset + byte, .int8⟩

end SlotField

namespace Memory

variable {m m' : Memory} {slot other : Nat} {f g : SlotField} {v : Int}

theorem field_putField (hslot : IsSlot slot) (hsize : slot + f.offset + f.storage.width ≤ m.size)
    (v : Int) : (m.putField slot f v).field slot f = .ok (f.saturate v) := by
  have hmem := f.saturate_mem v
  rw [field_eq_fetchInt hslot, putField, fetchInt_storeRaw hsize,
    Storage.kept_eq_self hmem.1 hmem.2]

theorem putField_of_field (h : m.field slot f = .ok v) : m.putField slot f v = m := by
  rw [field_eq_fetchInt (isSlot_of_field_eq_ok h).1] at h
  have hmem := fetchInt_mem h
  rw [putField, SlotField.saturate_eq_self hmem.1 hmem.2, storeRaw_of_fetchInt h]

/-- Changes elsewhere make no difference to a field. -/
theorem Within.field_eq {cells : Set Nat} (h : Within cells m m')
    (hcells : Disjoint (f.cells slot) cells) : m'.field slot f = m.field slot f := by
  by_cases hslot : IsSlot slot
  · rw [field_eq_fetchInt hslot, field_eq_fetchInt hslot]
    exact h.fetchInt_eq fun i hlow hhigh => hcells.notMem_of_mem_left ⟨hlow, hhigh⟩
  · rw [field, field, checkSlot_eq_error hslot]
    rfl

/-- A scratch byte of a component is a field of the slot. -/
theorem scratch_eq_field {s : Scratch} {index : Nat} (hsize : index < s.size)
    (hscratch : s.start + index < scratchBytes) :
    m.scratch slot s .int8 index = m.field slot (.scratch (s.start + index)) := by
  by_cases hslot : IsSlot slot
  · rw [scratch, field, Storage.width, Scratch.address_of_fits hslot hsize hscratch,
      Nat.add_assoc, Nat.add_assoc]
    rfl
  · rw [scratch, field, checkSlot_eq_error hslot]
    rfl

end Memory

namespace Edit

variable {m : Memory} {slot : Nat} {f g : SlotField}

/-- A scratch byte that is not refused is set like a field of one byte, also where it is not one of
the component's part. -/
theorem setScratch_eq_setField_place {s : Scratch} {index : Nat} (h : ¬ s.Refused index 1) (v : Int) :
    setScratch slot s .int8 index v = setField slot ⟨s.place 0 index 1, .int8⟩ v := by
  have hmem := Number.clamp_mem (by decide : (0 : Int) ≤ 255) v
  have hclamp : Storage.int8.encode (Number.clamp 0 255 v) = Storage.int8.encode v := by
    rw [Storage.encode, Storage.encode, Number.clamp_eq_self hmem.1 hmem.2]
  by_cases hslot : IsSlot slot
  · rw [setScratch, setField, Storage.width, Scratch.address_eq_ok hslot (by decide) h,
      Scratch.place_eq_add (by decide)]
    refine bind_congr fun _ => ?_
    change storeInt .int8 _ v = storeInt .int8 _ (Number.clamp 0 255 v)
    rw [storeInt, storeInt, hclamp]
  · rw [setScratch, setField, checkSlot_eq_error hslot]
    rfl

theorem setScratch_eq_setField {s : Scratch} {index : Nat} (hsize : index < s.size)
    (hscratch : s.start + index < scratchBytes) (v : Int) :
    setScratch slot s .int8 index v = setField slot (.scratch (s.start + index)) v := by
  rw [setScratch_eq_setField_place (Scratch.not_refused_of_fits hsize hscratch),
    Scratch.place_of_fits hscratch, SlotField.scratch, Nat.zero_add, Nat.add_assoc]

/-- A field is set in place, and its value is read afterwards. -/
theorem setField_reads (hslot : IsSlot slot) (hsize : slot + f.offset + f.storage.width ≤ m.size)
    (v : Int) : ∃ m', setField slot f v m = .ok () m' ∧ Within (f.cells slot) m m' ∧
      m'.field slot f = .ok (f.saturate v) :=
  ⟨_, setField_eq_ok hslot hsize v, m.within_putField slot f v,
    Memory.field_putField hslot hsize v⟩

/-- Of two fields that are set one after the other, both values are read afterwards. -/
theorem setField_setField_reads (hslot : IsSlot slot) (hfg : f.offset + f.storage.width ≤ g.offset)
    (hsize : slot + g.offset + g.storage.width ≤ m.size) (x y : Int) :
    ∃ m', (setField slot f x >>= fun _ => setField slot g y) m = .ok () m' ∧
      Within (f.cells slot ∪ g.cells slot) m m' ∧ m'.field slot f = .ok (f.saturate x) ∧
      m'.field slot g = .ok (g.saturate y) := by
  obtain ⟨m₁, hrun₁, hwithin₁, hf⟩ := setField_reads (f := f) (m := m) hslot (by omega) x
  obtain ⟨m₂, hrun₂, hwithin₂, hg⟩ := setField_reads (f := g) (m := m₁) hslot
    (by rwa [hwithin₁.size]) y
  have hapart : Disjoint (f.cells slot) (g.cells slot) :=
    Set.disjoint_left.mpr fun i hf hg => absurd hf.2 (by have := hg.1; omega)
  refine ⟨m₂, (bind_of_ok hrun₁).trans hrun₂, ?_, ?_, hg⟩
  · exact (hwithin₁.mono Set.subset_union_left).trans (hwithin₂.mono Set.subset_union_right)
  · rw [hwithin₂.field_eq hapart, hf]

/-- Setting a field to what it holds changes nothing. -/
theorem setField_of_field {n : Int} (h : m.field slot f = .ok n) :
    setField slot f n m = .ok () m := by
  obtain ⟨hslot, hsize⟩ := Memory.isSlot_of_field_eq_ok h
  rw [setField_eq_ok hslot hsize, Memory.putField_of_field h]

end Edit

/-! ## Parts -/

/-- What one getter of a slot reads and one setter writes. -/
inductive SlotPart where
  | active
  | typeId
  | position
  | velocity
  | health
  | sprite
  | scratch (s : Scratch) (index : Nat) (h : index < s.size ∧ s.start + index < scratchBytes)

namespace SlotPart

/-- What the getter of a part gives and its setter takes. -/
abbrev Value : SlotPart → Type
  | active => Bool
  | position | velocity => Int × Int
  | typeId | health | sprite | scratch .. => Int

/-- The getter of a part. -/
def read : (p : SlotPart) → Memory → Nat → Except AccessError p.Value
  | active, m, slot => m.isActive slot
  | typeId, m, slot => m.field slot .typeId
  | position, m, slot => m.position slot
  | velocity, m, slot => m.velocity slot
  | health, m, slot => m.field slot .health
  | sprite, m, slot => m.field slot .sprite
  | scratch s index _, m, slot => m.scratch slot s .int8 index

/-- The setter of a part. -/
def write : (p : SlotPart) → Nat → p.Value → Edit Unit
  | active, slot, v => Edit.setActive slot v
  | typeId, slot, v => Edit.setField slot .typeId v
  | position, slot, v => Edit.setPosition slot v.1 v.2
  | velocity, slot, v => Edit.setVelocity slot v.1 v.2
  | health, slot, v => Edit.setField slot .health v
  | sprite, slot, v => Edit.setField slot .sprite v
  | scratch s index _, slot, v => Edit.setScratch slot s .int8 index v

/-- A value brought into the range of the part. -/
def saturate : (p : SlotPart) → p.Value → p.Value
  | active, v => v
  | position, v => (Number.clamp 0 65535 v.1, Number.clamp 0 65535 v.2)
  | velocity, v => (Number.clamp (-32768) 32767 v.1, Number.clamp (-32768) 32767 v.2)
  | typeId, v | health, v | sprite, v | scratch .., v => Number.clamp 0 255 v

/-- Two parts are the same, or the same scratch byte under two components. -/
def Same : SlotPart → SlotPart → Prop
  | scratch s index _, scratch s' index' _ => s.start + index = s'.start + index'
  | p, q => p = q

/-- Where a part begins in its slot. -/
def offset : SlotPart → Nat
  | active => 0
  | typeId => 1
  | position => 2
  | velocity => 6
  | health => 10
  | sprite => 11
  | scratch s index _ => scratchOffset + (s.start + index)

/-- The bytes of a part. -/
def width : SlotPart → Nat
  | position | velocity => 4
  | active | typeId | health | sprite | scratch .. => 1

/-- The bytes of a part in the memory. -/
def cells (p : SlotPart) (slot : Nat) : Set Nat :=
  Set.Ico (slot + p.offset) (slot + p.offset + p.width)

/-! ## Where the parts lie -/

variable {m m' : Memory} {slot other : Nat} {p q : SlotPart}

theorem offset_add_width_le (p : SlotPart) : p.offset + p.width ≤ slotBytes := by
  cases p with
  | scratch s index h =>
    obtain ⟨-, h⟩ := h
    simp only [scratchBytes, scratchOffset, slotBytes] at h
    simp only [offset, width, scratchOffset, slotBytes]
    omega
  | _ => decide

theorem same_of_offset_eq (h : p.offset = q.offset) : p.Same q := by
  cases p <;> cases q <;> simp only [offset, Same, scratchOffset] at h ⊢ <;> omega

/-- The parts of a slot lie one after the other. -/
theorem add_width_le_offset (h : p.offset < q.offset) : p.offset + p.width ≤ q.offset := by
  cases p <;> cases q <;> simp only [offset, width, scratchOffset] at h ⊢ <;> omega

theorem cells_subset (p : SlotPart) (slot : Nat) : p.cells slot ⊆ slotCells slot := by
  rintro i ⟨hlow, hhigh⟩
  have := p.offset_add_width_le
  exact ⟨by omega, by omega⟩

theorem disjoint_cells (hslot : IsSlot slot) (hother : IsSlot other)
    (h : ¬ (other = slot ∧ q.Same p)) : Disjoint (q.cells other) (p.cells slot) := by
  rw [Set.disjoint_left]
  intro i hq hp
  have hqslot := q.cells_subset other hq
  have hpslot := p.cells_subset slot hp
  obtain ⟨hqlow, hqhigh⟩ := hq
  obtain ⟨hplow, hphigh⟩ := hp
  by_cases heq : other = slot
  · subst heq
    have hne : q.offset ≠ p.offset := fun hoffset => h ⟨rfl, same_of_offset_eq hoffset⟩
    rcases hne.lt_or_gt with hlt | hgt
    · have := add_width_le_offset hlt
      omega
    · have := add_width_le_offset hgt
      omega
  · obtain ⟨hqlow, hqhigh⟩ := hqslot
    obtain ⟨hplow, hphigh⟩ := hpslot
    simp only [slotBytes] at hqhigh hphigh
    rcases hother.apart hslot heq with hbefore | hbehind <;> omega

/-- The fields that a part is made of. -/
def fields : SlotPart → List SlotField
  | active => [.active]
  | typeId => [.typeId]
  | position => [.positionX, .positionY]
  | velocity => [.velocityX, .velocityY]
  | health => [.health]
  | sprite => [.sprite]
  | scratch s index _ => [.scratch (s.start + index)]

theorem cells_of_mem_fields {f : SlotField} (h : f ∈ p.fields) :
    f.cells slot ⊆ p.cells slot := by
  have hplace : p.offset ≤ f.offset ∧ f.offset + f.storage.width ≤ p.offset + p.width := by
    cases p <;> simp only [fields, List.mem_cons, List.not_mem_nil, or_false] at h
    case position | velocity => rcases h with rfl | rfl <;> decide
    case scratch => exact h ▸ ⟨le_rfl, le_rfl⟩
    all_goals exact h ▸ by decide
  rintro i ⟨hlow, hhigh⟩
  exact ⟨by omega, by omega⟩

/-! ## Getters and setters -/

/-- A getter depends on the fields of its part only. -/
theorem read_congr (h : ∀ f ∈ p.fields, m'.field slot f = m.field slot f) :
    p.read m' slot = p.read m slot := by
  cases p <;> simp only [fields, List.forall_mem_cons] at h
  case scratch s index hscratch =>
    rw [read, read, Memory.scratch_eq_field hscratch.1 hscratch.2,
      Memory.scratch_eq_field hscratch.1 hscratch.2, h.1]
  case position => rw [read, read, Memory.position, Memory.position, h.1, h.2.1]
  case velocity => rw [read, read, Memory.velocity, Memory.velocity, h.1, h.2.1]
  case active => rw [read, read, Memory.isActive, Memory.isActive, h.1]
  all_goals exact h.1

/-- Changes elsewhere make no difference to a getter. -/
theorem read_of_within {cells : Set Nat} (h : Within cells m m')
    (hcells : Disjoint (p.cells slot) cells) : p.read m' slot = p.read m slot :=
  read_congr fun _ hf => h.field_eq (hcells.mono_left (cells_of_mem_fields hf))

/-- A setter goes through, changes its part only, and its value is read afterwards. -/
theorem write_reads (hslot : IsSlot slot) (hsize : slot + slotBytes ≤ m.size) (p : SlotPart)
    (v : p.Value) : ∃ m', p.write slot v m = .ok () m' ∧ Within (p.cells slot) m m' ∧
      p.read m' slot = .ok (p.saturate v) := by
  have hfits : ∀ f : SlotField, f.offset + f.storage.width ≤ slotBytes →
      slot + f.offset + f.storage.width ≤ m.size := fun f hf => by omega
  -- two fields side by side make up a part
  have hunion : ∀ {f g : SlotField}, p.fields = [f, g] → f.cells slot ∪ g.cells slot ⊆ p.cells slot :=
    fun {f g} hp => Set.union_subset (cells_of_mem_fields (by simp [hp]))
      (cells_of_mem_fields (by simp [hp]))
  cases p with
  | typeId => exact Edit.setField_reads (f := .typeId) hslot (hfits _ (by decide)) v
  | health => exact Edit.setField_reads (f := .health) hslot (hfits _ (by decide)) v
  | sprite => exact Edit.setField_reads (f := .sprite) hslot (hfits _ (by decide)) v
  | scratch s index h =>
    have hplace : scratchOffset + (s.start + index) + 1 ≤ slotBytes := by
      have := (scratch s index h).offset_add_width_le
      exact this
    obtain ⟨m', hrun, hwithin, hfield⟩ :=
      Edit.setField_reads (f := .scratch (s.start + index)) hslot (hfits _ hplace) v
    refine ⟨m', ?_, hwithin, ?_⟩
    · rw [write, Edit.setScratch_eq_setField h.1 h.2, hrun]
    · rw [read, Memory.scratch_eq_field h.1 h.2, hfield]
      rfl
  | active =>
    obtain ⟨m', hrun, hwithin, hfield⟩ :=
      Edit.setField_reads (f := .active) hslot (hfits _ (by decide)) (if v then 1 else 0)
    refine ⟨m', hrun, hwithin, ?_⟩
    rw [read, Memory.isActive, hfield]
    cases v <;> rfl
  | position =>
    obtain ⟨m', hrun, hwithin, hx, hy⟩ := Edit.setField_setField_reads (f := .positionX)
      (g := .positionY) hslot (by decide) (hfits _ (by decide)) v.1 v.2
    refine ⟨m', hrun, hwithin.mono (hunion rfl), ?_⟩
    rw [read, Memory.position, hx, hy]
    rfl
  | velocity =>
    obtain ⟨m', hrun, hwithin, hx, hy⟩ := Edit.setField_setField_reads (f := .velocityX)
      (g := .velocityY) hslot (by decide) (hfits _ (by decide)) v.1 v.2
    refine ⟨m', hrun, hwithin.mono (hunion rfl), ?_⟩
    rw [read, Memory.velocity, hx, hy]
    rfl

/-- Setting a part to what its getter gives changes nothing. The setter of the active byte knows two
values of it only. -/
theorem write_of_read {w : p.Value} (h : p.read m slot = .ok w)
    (hactive : p = active → m.byte slot = 0 ∨ m.byte slot = 1) : p.write slot w m = .ok () m := by
  cases p with
  | typeId | health | sprite => exact Edit.setField_of_field h
  | scratch s index hscratch =>
    rw [read, Memory.scratch_eq_field hscratch.1 hscratch.2] at h
    rw [write, Edit.setScratch_eq_setField hscratch.1 hscratch.2, Edit.setField_of_field h]
  | position | velocity =>
    obtain ⟨x, hx, h⟩ := bind_eq_ok_iff.mp h
    obtain ⟨y, hy, h⟩ := bind_eq_ok_iff.mp h
    cases h
    exact (bind_of_ok (Edit.setField_of_field hx)).trans (Edit.setField_of_field hy)
  | active =>
    obtain ⟨n, hn, h⟩ := bind_eq_ok_iff.mp h
    cases h
    have hbyte := Memory.byteField_eq_ok (f := .active) rfl (Memory.isSlot_of_field_eq_ok hn).1
      (Memory.isSlot_of_field_eq_ok hn).2
    have hn' : (if n != 0 then 1 else 0) = n := by
      rw [hbyte] at hn
      cases hn
      rcases hactive rfl with h | h <;> rw [SlotField.active, Nat.add_zero, h] <;> rfl
    change Edit.setField slot .active (if n != 0 then 1 else 0) m = .ok () m
    rw [hn', Edit.setField_of_field hn]

/-- Every part of a slot that fits into the memory is read. -/
theorem exists_read_eq_ok (hslot : slot ∈ slotAddresses m.size) (p : SlotPart) :
    ∃ w, p.read m slot = .ok w := by
  have hplace := p.offset_add_width_le
  cases p with
  | typeId | health | sprite => exact Memory.exists_field_eq_ok hslot (by decide)
  | position => exact Memory.exists_position_eq_ok hslot
  | velocity => exact Memory.exists_velocity_eq_ok hslot
  | scratch s index h =>
    obtain ⟨n, hn⟩ := Memory.exists_field_eq_ok hslot (f := .scratch (s.start + index)) hplace
    exact ⟨n, (Memory.scratch_eq_field h.1 h.2).trans hn⟩
  | active =>
    obtain ⟨n, hn⟩ := Memory.exists_field_eq_ok hslot (f := .active) (by decide)
    exact ⟨n != 0, by rw [read, Memory.isActive, hn]; rfl⟩

/--
**The parts of slots are independent.** In a slot that fits into the memory every setter goes
through, and the getter of the same part then gives the value, brought into the range of the part;
the getters of every other part, and of every part of another slot, give what they gave before.
Setting a part to what its getter gives changes nothing, if the active byte is one that its setter
writes.
-/
theorem independent {m : Memory} {slot other : Nat} (hslot : slot ∈ slotAddresses m.size)
    (hother : other ∈ slotAddresses m.size) (p : SlotPart) (v : p.Value) :
    (∃ m', p.write slot v m = .ok () m' ∧ p.read m' slot = .ok (p.saturate v) ∧
      ∀ q : SlotPart, ¬ (other = slot ∧ q.Same p) → q.read m' other = q.read m other) ∧
    ∃ w, p.read m slot = .ok w ∧
      (m.byte slot = 0 ∨ m.byte slot = 1 → p.write slot w m = .ok () m) := by
  obtain ⟨w, hw⟩ := exists_read_eq_ok hslot p
  obtain ⟨hslot, hsize⟩ := mem_slotAddresses.mp hslot
  obtain ⟨hother, -⟩ := mem_slotAddresses.mp hother
  obtain ⟨m', hrun, hwithin, hread⟩ := write_reads hslot hsize p v
  refine ⟨⟨m', hrun, hread, fun q hq => ?_⟩, w, hw, fun hactive => ?_⟩
  · exact read_of_within hwithin (disjoint_cells hslot hother hq)
  · exact write_of_read hw fun _ => hactive

/-- A position is saturated, and nothing is seen of it in the next slot. -/
theorem independent_position :
    ∃ m', position.write 512 (-5, 70000) (Memory.zeros 16384) = .ok () m' ∧
      position.read m' 512 = .ok (0, 65535) ∧
      ∀ q : SlotPart, q.read m' 528 = q.read (Memory.zeros 16384) 528 := by
  have hslot : 512 ∈ slotAddresses (Memory.zeros 16384).size :=
    mem_slotAddresses.mpr ⟨isSlot_iff.mpr (by decide), by rw [Memory.size_zeros]; decide⟩
  have hother : 528 ∈ slotAddresses (Memory.zeros 16384).size :=
    mem_slotAddresses.mpr ⟨isSlot_iff.mpr (by decide), by rw [Memory.size_zeros]; decide⟩
  obtain ⟨⟨m', hrun, hread, hother⟩, -⟩ := independent hslot hother position (-5, 70000)
  exact ⟨m', hrun, hread, fun q => hother q fun h => absurd h.1 (by decide)⟩

end SlotPart

end PixelScene
