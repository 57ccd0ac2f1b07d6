import PixelScene.Proofs.Component.Idempotence
import PixelScene.Proofs.Simulation.Spawning

/-!
# Components that run again and again

From one tick of a component to the next, anything may happen to the world. What the component keeps
in a cell of its scratch bytes is still there then, if only that cell is left alone.

* `World.AgreesOn cells w w'`: anything may have happened but to some bytes of the memory.
* `Repeats steps between w n w'`: `n` steps lead from one world to the other, with something else
  before each of them.
* `Repeats.invariant`: what holds of every world that they lead to.
* `World.Stores`: what the cell of a component holds, and `World.Stores.set` about writing to it.

Ticks of other entities, of events and of hosts come between two ticks of one entity, and a
statement about counts should not depend on them. So the steps in between are arbitrary, within the
bytes that they must leave alone, and a run is an induction over its ticks with what the cell holds
as the invariant.
-/

namespace PixelScene

open Memory (Within)

/-! ## Repeated steps -/

/-- The memories of the worlds have the same size and agree on some bytes; all else may differ. -/
def World.AgreesOn (cells : Set Nat) (w w' : World) : Prop := Within cellsᶜ w.memory w'.memory

theorem World.AgreesOn.mono {cells cells' : Set Nat} {w w' : World} (hsub : cells' ⊆ cells)
    (h : w.AgreesOn cells w') : w.AgreesOn cells' w' :=
  Within.mono (Set.compl_subset_compl.mpr hsub) h

/-- The second world is what the last of `n` steps leaves. Each step is one of some steps, and
before it the world may change in some way. -/
inductive Repeats (steps : Set (Tick Unit)) (between : World → World → Prop) (w : World) :
    Nat → World → Prop
  | start : Repeats steps between w 0 w
  | step {n : Nat} {u v : World} {x : Tick Unit} (h : Repeats steps between w n u)
      (hbetween : between u v) (hx : x ∈ steps) : Repeats steps between w (n + 1) (leaves x v)

/-- What holds at the start, is kept by what happens between the steps and led on by each
of them. -/
theorem Repeats.invariant {steps : Set (Tick Unit)} {between : World → World → Prop} {w w' : World}
    {n : Nat} {P : Nat → World → Prop} (h : Repeats steps between w n w') (hstart : P 0 w)
    (hbetween : ∀ n u v, P n u → between u v → P n v)
    (hstep : ∀ n v, P n v → ∀ x ∈ steps, P (n + 1) (leaves x v)) : P n w' := by
  induction h with
  | start => exact hstart
  | step _ hchange hx ih => exact hstep _ _ (hbetween _ _ _ ih hchange) _ hx

/-! ## The cell of a component -/

namespace Scratch

variable {s : Scratch} {t : Storage} {slot : Nat}

/-- The bytes of the first cell of a component's part of the scratch bytes. -/
def cell (s : Scratch) (t : Storage) (slot : Nat) : Set Nat :=
  Set.Ico (slot + scratchOffset + s.start) (slot + scratchOffset + s.start + t.width)

theorem cell_subset_slotData (hslot : IsSlot slot) (hs : ¬ s.Lacks t.width) :
    s.cell t slot ⊆ slotData slot := by
  rintro i ⟨hlow, hhigh⟩
  unfold Lacks at hs
  simp only [scratchBytes, slotBytes, scratchOffset] at hs hlow hhigh
  exact ⟨hslot, by omega, by simp only [slotBytes]; omega⟩

theorem cell_subset_slotCells (hslot : IsSlot slot) (hs : ¬ s.Lacks t.width) :
    s.cell t slot ⊆ slotCells slot := by
  intro i hi
  obtain ⟨-, hlow, hhigh⟩ := cell_subset_slotData hslot hs hi
  exact ⟨(Nat.le_add_right slot 2).trans hlow, hhigh⟩

/-- The cell lies behind the fields of the slot. -/
theorem disjoint_cell {p : SlotPart} (hp : p.offset + p.width ≤ scratchOffset) :
    Disjoint (p.cells slot) (s.cell t slot) := by
  rw [Set.disjoint_left]
  rintro i ⟨-, hhigh⟩ ⟨hlow, -⟩
  omega

end Scratch

/-- The memory of the world has `n` bytes, and the cell of a component holds a value. -/
structure World.Stores (n slot : Nat) (s : Scratch) (t : Storage) (w : World) (value : Int) :
    Prop where
  size : w.OfSize n
  stored : w.memory.scratch slot s t 0 = .ok value

namespace World.Stores

variable {n slot : Nat} {s : Scratch} {t : Storage} {w w' : World} {value : Int}
  (hslot : slot ∈ slotAddresses n) (hs : ¬ s.Lacks t.width)

include hslot hs

theorem mem (h : w.Stores n slot s t value) : t.least ≤ value ∧ value ≤ t.greatest := by
  have hstored := h.stored
  rw [Memory.scratch_eq_fetchInt (mem_slotAddresses.mp hslot).1 (Scratch.not_refused hs)] at hstored
  exact Memory.fetchInt_mem hstored

/-- Changes elsewhere make no difference to the cell. -/
theorem of_within {cells : Set Nat} (h : w.Stores n slot s t value)
    (hwithin : Within cells w.memory w'.memory) (hcells : Disjoint (s.cell t slot) cells) :
    w'.Stores n slot s t value := by
  obtain ⟨hpool, -⟩ := mem_slotAddresses.mp hslot
  refine ⟨hwithin.size.trans h.size, Eq.trans ?_ h.stored⟩
  have hrefused := Scratch.not_refused hs
  rw [Memory.scratch_eq_fetchInt hpool hrefused, Memory.scratch_eq_fetchInt hpool hrefused,
    Scratch.place_zero hs]
  exact hwithin.fetchInt_eq fun i hlow hhigh => hcells.notMem_of_mem_left ⟨hlow, hhigh⟩

theorem of_agreesOn (h : w.Stores n slot s t value) (hagrees : w.AgreesOn (s.cell t slot) w') :
    w'.Stores n slot s t value :=
  h.of_within hslot hs hagrees (Set.disjoint_compl_right_iff_subset.mpr subset_rfl)

/-- A value that the cell can hold is written to it, and nothing else changes. -/
theorem set (hw : w.OfSize n) (value : Int) (hlow : t.least ≤ value) (hhigh : value ≤ t.greatest) :
    ∃ w', Tick.edit (Edit.setScratch slot s t 0 value) w = .ok () w' ∧
      w.Differs (s.cell t slot) w' ∧ w'.Stores n slot s t value := by
  obtain ⟨hpool, -⟩ := mem_slotAddresses.mp hslot
  have hsize : w.memory.size = n := hw
  have hrefused := Scratch.not_refused hs
  have hfits : slot + scratchOffset + s.start + t.width ≤ w.memory.size := by
    rw [← Scratch.place_zero hs, hsize]
    exact Scratch.fits hslot t hrefused
  have hwrite : Edit.setScratch slot s t 0 value w.memory =
      .ok () (w.memory.storeRaw (slot + scratchOffset + s.start) t.width (t.encode value)) := by
    rw [Edit.setScratch, bind_of_ok (Edit.read_eq_ok (checkSlot_eq_ok hpool)),
      bind_of_ok (Edit.read_eq_ok (Scratch.address_eq_ok hpool t.width_le hrefused)),
      Scratch.place_zero hs]
    exact Edit.storeInt_eq_ok hfits value
  refine ⟨_, Tick.edit_eq_ok hwrite, .ofMemory (w.memory.within_storeRaw _ _ _), ?_, ?_⟩
  · exact (w.memory.size_storeRaw _ _ _).trans hw
  · rw [Memory.scratch_eq_fetchInt hpool hrefused, Scratch.place_zero hs,
      Memory.fetchInt_storeRaw hfits,
      Storage.kept_eq_self hlow hhigh]

end World.Stores

end PixelScene
