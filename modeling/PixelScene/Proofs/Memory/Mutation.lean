import PixelScene.Proofs.Memory.Part

/-!
# Changes that fail

A change of the memory is atomic when its failure leaves every byte as it was. A change of one cell
is, and so is one that makes all its checks before the first write. The two setters of a pair of
fields check the second field after they have written the first: where the memory ends between the
two, the first stays written.

* `Edit.Atomic.read_bind`: checks in front of an atomic change.
* `Edit.atomic_setField_setField_iff`: the setters of a pair of fields.
* `Mutation.atomic_iff`: the changes that a host can make, and `Mutation.position_torn`.

The changes are those that a host can make through the public operations of the buffer: cells, the
shake, all setters of a slot, clearing it, and spawning. What tears is a position or a velocity in a
buffer that ends in the middle of a slot; `set_camera_shake` and `clear_slot`, which also write more
than one cell, check everything first. The condition is exact for every memory.
-/

namespace PixelScene

namespace Memory

variable {m : Memory} {slot : Nat} {f : SlotField}

theorem le_size_of_checkRegion {r : Region} {address width : Nat} {u : Unit}
    (h : m.checkRegion r address width = .ok u) : address + width ≤ m.size := by
  by_contra hsize
  rw [checkRegion, check, if_neg hsize] at h
  split at h <;> cases h

/-- Writing to a field changes nothing exactly if the field holds the value already. -/
theorem putField_eq_self_iff (hslot : IsSlot slot)
    (hsize : slot + f.offset + f.storage.width ≤ m.size) {v : Int} :
    m.putField slot f v = m ↔ m.field slot f = .ok (f.saturate v) := by
  constructor
  · intro h
    rw [← field_putField hslot hsize v, h]
  · intro h
    have hmem := f.saturate_mem v
    have hput := putField_of_field h
    rwa [putField, SlotField.saturate_eq_self hmem.1 hmem.2] at hput

end Memory

namespace Edit

variable {α β : Type} {m m' : Memory} {slot : Nat} {f g : SlotField} {x y : Int}

/-- From a given memory, the edit leaves that memory when it fails. -/
def Atomic (e : Edit α) (m : Memory) : Prop := ∀ err m', e m = .error err m' → m' = m

theorem atomic_of_ok {e : Edit α} {a : α} (h : e m = .ok a m') : Atomic e m := by
  intro err m₁ hfail
  rw [h] at hfail
  cases hfail

theorem atomic_of_error {e : Edit α} {err : AccessError} (h : e m = .error err m') :
    Atomic e m ↔ m' = m := by
  refine ⟨fun hatomic => hatomic err m' h, fun heq err₁ m₁ hfail => ?_⟩
  rw [h] at hfail
  cases hfail
  exact heq

/-- What is read before a change makes no difference to it. -/
theorem Atomic.read_bind {r : Memory → Except AccessError α} {e : α → Edit β}
    (h : ∀ a, r m = .ok a → Atomic (e a) m) : Atomic (Edit.read r >>= e) m := by
  cases hread : r m with
  | ok a =>
    intro err m₁ hfail
    rw [bind_of_ok (read_eq_ok hread)] at hfail
    exact h a hread err m₁ hfail
  | error err => exact (atomic_of_error (bind_of_error (read_eq_error hread))).mpr rfl

theorem atomic_store (address width value : Nat) (m : Memory) :
    Atomic (store address width value) m :=
  Atomic.read_bind fun _ _ => atomic_of_ok rfl

theorem atomic_setField (slot : Nat) (f : SlotField) (v : Int) (m : Memory) :
    Atomic (setField slot f v) m :=
  Atomic.read_bind fun _ _ => atomic_store _ _ _ m

theorem atomic_setScratch (slot : Nat) (s : Scratch) (t : Storage) (index : Nat) (v : Int)
    (m : Memory) : Atomic (setScratch slot s t index v) m :=
  Atomic.read_bind fun _ _ => Atomic.read_bind fun _ _ => atomic_store _ _ _ m

theorem atomic_clearSlot (slot : Nat) (m : Memory) : Atomic (clearSlot slot) m :=
  Atomic.read_bind fun _ _ => Atomic.read_bind fun _ _ => atomic_of_ok rfl

/-- A fresh entity is put into a slot that fits into the memory, so no write of it is refused. -/
theorem atomic_spawn (typeId x y health : Int) (m : Memory) :
    Atomic (spawn typeId x y health) m := by
  cases hfree : m.freeSlot? with
  | none => exact atomic_of_ok (spawn_of_full hfree typeId x y health)
  | some slot => exact atomic_of_ok (spawn_of_free hfree typeId x y health)

/-- Both cells of the shake are checked before the first is written. -/
theorem atomic_setShake (x y : Int) (m : Memory) : Atomic (setShake x y) m := by
  refine Atomic.read_bind fun _ _ => Atomic.read_bind fun _ hcheck => ?_
  have hsize : shakeY + Storage.signedInt16.width ≤ m.size := Memory.le_size_of_checkRegion hcheck
  have hx : shakeX + Storage.signedInt16.width ≤ m.size :=
    (by decide : shakeX + Storage.signedInt16.width ≤ shakeY + 2).trans hsize
  exact atomic_of_ok ((bind_of_ok (storeInt_eq_ok hx x)).trans
    (storeInt_eq_ok (by rwa [Memory.size_storeRaw]) y))

/-- The memory ends between two fields of a slot, and the first does not hold a given value. -/
def Torn (m : Memory) (slot : Nat) (f g : SlotField) (x : Int) : Prop :=
  IsSlot slot ∧ slot + f.offset + f.storage.width ≤ m.size ∧
    m.size < slot + g.offset + g.storage.width ∧ m.field slot f ≠ .ok (f.saturate x)

/-- Where the memory ends between two fields, setting both fails with the first written. -/
theorem setField_setField_eq_error (hslot : IsSlot slot)
    (hf : slot + f.offset + f.storage.width ≤ m.size)
    (hg : m.size < slot + g.offset + g.storage.width) (x y : Int) :
    (setField slot f x >>= fun _ => setField slot g y) m =
      .error (.outOfRange (slot + g.offset) g.storage.width m.size) (m.putField slot f x) := by
  have hsize := m.size_putField slot f x
  rw [bind_of_ok (setField_eq_ok hslot hf x), setField,
    bind_of_ok (read_eq_ok (checkSlot_eq_ok hslot)), storeInt_eq_error (by omega), hsize]

/-- Two fields that are set one after the other are torn, or they are set whole or not at all. -/
theorem atomic_setField_setField_iff :
    Atomic (setField slot f x >>= fun _ => setField slot g y) m ↔ ¬ Torn m slot f g x := by
  by_cases hslot : IsSlot slot
  · by_cases hf : slot + f.offset + f.storage.width ≤ m.size
    · by_cases hg : slot + g.offset + g.storage.width ≤ m.size
      · have hrun : (setField slot f x >>= fun _ => setField slot g y) m =
            .ok () ((m.putField slot f x).putField slot g y) :=
          (bind_of_ok (setField_eq_ok hslot hf x)).trans
            (setField_eq_ok hslot (by rwa [Memory.size_putField]) y)
        exact iff_of_true (atomic_of_ok hrun) fun h => absurd h.2.2.1 (by omega)
      · rw [atomic_of_error (setField_setField_eq_error hslot hf (by omega) x y),
          Memory.putField_eq_self_iff hslot hf]
        exact ⟨fun heq h => h.2.2.2 heq, fun h => by_contra fun hne => h ⟨hslot, hf, by omega, hne⟩⟩
    · have hrun : setField slot f x m = .error _ m :=
        (bind_of_ok (read_eq_ok (checkSlot_eq_ok hslot))).trans (storeInt_eq_error hf _)
      exact iff_of_true ((atomic_of_error (bind_of_error hrun)).mpr rfl) fun h => hf h.2.1
  · have hrun : setField slot f x m = .error _ m :=
      bind_of_error (read_eq_error (checkSlot_eq_error hslot))
    exact iff_of_true ((atomic_of_error (bind_of_error hrun)).mpr rfl) fun h => hslot h.1

end Edit

/-! ## The changes that a host can make -/

/-- A change of the memory with its arguments. -/
inductive Mutation where
  | setActive (slot : Nat) (active : Bool)
  | setTypeId (slot : Nat) (typeId : Int)
  | setPosition (slot : Nat) (x y : Int)
  | setVelocity (slot : Nat) (x y : Int)
  | setHealth (slot : Nat) (health : Int)
  | setSprite (slot : Nat) (sprite : Int)
  | setScratch (slot : Nat) (s : Scratch) (t : Storage) (index : Nat) (v : Int)
  | clearSlot (slot : Nat)
  | spawn (typeId x y health : Int)
  | setShake (x y : Int)
  | storeNumber (t : Storage) (address : Nat) (x : Float)

namespace Mutation

/-- What a change gives: the slot of a fresh entity, and nothing else. -/
def Result : Mutation → Type
  | spawn .. => Option Nat
  | _ => Unit

/-- Makes a change. -/
def run : (c : Mutation) → Edit c.Result
  | setActive slot active => Edit.setActive slot active
  | setTypeId slot typeId => Edit.setField slot .typeId typeId
  | setPosition slot x y => Edit.setPosition slot x y
  | setVelocity slot x y => Edit.setVelocity slot x y
  | setHealth slot health => Edit.setField slot .health health
  | setSprite slot sprite => Edit.setField slot .sprite sprite
  | setScratch slot s t index v => Edit.setScratch slot s t index v
  | clearSlot slot => Edit.clearSlot slot
  | spawn typeId x y health => Edit.spawn typeId x y health
  | setShake x y => Edit.setShake x y
  | storeNumber t address x => Edit.storeNumber t address x

/-- The change is one of a pair of fields that the memory ends between. -/
def Tears (m : Memory) : Mutation → Prop
  | setPosition slot x _ => Edit.Torn m slot .positionX .positionY x
  | setVelocity slot x _ => Edit.Torn m slot .velocityX .velocityY x
  | _ => False

/--
**A change that fails leaves every byte as it was, unless the memory ends between two fields that it
sets** and the first of them does not hold its value already. There, and only there, the change fails
with its first field written, as `Edit.setField_setField_eq_error` says.
-/
theorem atomic_iff (c : Mutation) (m : Memory) : Edit.Atomic c.run m ↔ ¬ c.Tears m := by
  cases c with
  | setPosition slot x y => exact Edit.atomic_setField_setField_iff
  | setVelocity slot x y => exact Edit.atomic_setField_setField_iff
  | setActive slot active => exact iff_of_true (Edit.atomic_setField slot _ _ m) id
  | setTypeId slot typeId => exact iff_of_true (Edit.atomic_setField slot _ _ m) id
  | setHealth slot health => exact iff_of_true (Edit.atomic_setField slot _ _ m) id
  | setSprite slot sprite => exact iff_of_true (Edit.atomic_setField slot _ _ m) id
  | setScratch slot s t index v => exact iff_of_true (Edit.atomic_setScratch slot s t index v m) id
  | clearSlot slot => exact iff_of_true (Edit.atomic_clearSlot slot m) id
  | spawn typeId x y health => exact iff_of_true (Edit.atomic_spawn typeId x y health m) id
  | setShake x y => exact iff_of_true (Edit.atomic_setShake x y m) id
  | storeNumber t address x => exact iff_of_true (Edit.atomic_store _ _ _ m) id

/-- In a memory of 516 bytes, which end behind the horizontal position in the first slot, that
position is written and the vertical one is refused. -/
theorem position_torn :
    ∃ m', (setPosition 512 258 772).run (Memory.zeros 516) = .error (.outOfRange 516 2 516) m' ∧
      m'.byte 514 = 1 ∧ m'.byte 515 = 2 ∧ m' ≠ Memory.zeros 516 := by
  have hslot : IsSlot 512 := isSlot_iff.mpr (by decide)
  have hsize := Memory.size_zeros 516
  have hbyte : ∀ i, 514 ≤ i → i < 516 → ((Memory.zeros 516).putField 512 .positionX 258).byte i =
      UInt8.ofNat (258 / 256 ^ (515 - i)) := fun i hlow hhigh => by
    rw [Memory.putField, Memory.byte_storeRaw]
    exact if_pos ⟨hlow, hhigh, hhigh.trans_eq hsize.symm⟩
  have hhigh := hbyte 514 (by omega) (by omega)
  have hlow := hbyte 515 (by omega) (by omega)
  refine ⟨_, ?_, hhigh, hlow, fun heq => ?_⟩
  · have hrun := Edit.setField_setField_eq_error (f := .positionX) (g := .positionY) hslot
      (by rw [hsize]; decide) (by rw [hsize]; decide) 258 772
    rwa [hsize] at hrun
  · rw [heq, Memory.byte_zeros] at hhigh
    exact absurd hhigh (by decide)

end Mutation

end PixelScene
