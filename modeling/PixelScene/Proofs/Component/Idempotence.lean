import PixelScene.Proofs.Component.Failure
import PixelScene.Proofs.Memory.Part

/-!
# Components that do nothing more when they run again

Nine of the built-in components do no more than set data of their own slot. What they set does not
depend on it, or is kept where it is found, so it makes no difference whether such a component runs
once or twice in a tick.

* `World.Differs cells w w'`: two worlds that are the same but for some bytes of the memory.
* `Overlooks cells x`: the step `x` changes nothing, and does not see those bytes.
* `Settles n cells x`: the steps `x` write to those bytes and would do nothing more a second time,
  or they fail at once.
* One lemma for each component says that it settles, and which bytes it writes to.
* `Registry.settings_idempotent`: all of them together.

The nine are those whose effect is a setting: of a velocity, of a position within bounds, of the
active byte, of a flag in a scratch byte. A component that counts frames or adds to a position is
none of them. A field that saturates is settled once it is at its bound, which is why the values
need no assumption. Running twice means in the same tick, with the same properties and the same
surroundings, in any world and any slot.
-/

namespace PixelScene

open Memory (Within)

/-! ## Setting a part to what it holds -/

theorem Number.clamp_clamp {low high : Int} (h : low ≤ high) (n : Int) :
    clamp low high (clamp low high n) = clamp low high n :=
  clamp_eq_self (clamp_mem h n).1 (clamp_mem h n).2

/-- A number that was moved into one range and then into another one lies in both, or the ranges lie
apart; doing so once more leads to the same number. -/
theorem Number.clamp_clamp_clamp {low high least greatest : Int} (h : low ≤ high)
    (h' : least ≤ greatest) (n : Int) :
    clamp least greatest (clamp low high (clamp least greatest (clamp low high n))) =
      clamp least greatest (clamp low high n) := by
  unfold clamp
  omega

theorem SlotField.saturate_saturate (f : SlotField) (v : Int) :
    f.saturate (f.saturate v) = f.saturate v :=
  saturate_eq_self (f.saturate_mem v).1 (f.saturate_mem v).2

namespace Edit

variable {m : Memory} {slot : Nat} {f : SlotField} {v : Int}

/-- A value and what it is saturated to are written in the same way. -/
theorem setField_saturate (slot : Nat) (f : SlotField) (v : Int) :
    setField slot f (f.saturate v) = setField slot f v := by
  rw [setField, setField, f.saturate_saturate]

/-- A field that holds what a value is saturated to need not be written. -/
theorem setField_of_saturate (h : m.field slot f = .ok (f.saturate v)) :
    setField slot f v m = .ok () m := by
  rw [← setField_saturate, setField_of_field h]

end Edit

namespace SlotPart

variable {m m' : Memory} {slot : Nat} {p : SlotPart}

theorem saturate_saturate (p : SlotPart) (v : p.Value) :
    p.saturate (p.saturate v) = p.saturate v := by
  have hbyte := fun n : Int => Number.clamp_clamp (by decide : (0 : Int) ≤ 255) n
  have hword := fun n : Int => Number.clamp_clamp (by decide : (0 : Int) ≤ 65535) n
  have hsigned := fun n : Int => Number.clamp_clamp (by decide : (-32768 : Int) ≤ 32767) n
  cases p with
  | active => rfl
  | typeId | health | sprite | scratch => exact hbyte v
  | position => exact Prod.ext (hword v.1) (hword v.2)
  | velocity => exact Prod.ext (hsigned v.1) (hsigned v.2)

theorem write_saturate (p : SlotPart) (slot : Nat) (v : p.Value) :
    p.write slot (p.saturate v) = p.write slot v := by
  cases p with
  | active => rfl
  | typeId | health | sprite => exact Edit.setField_saturate _ _ v
  | scratch s index h =>
    rw [write, write, Edit.setScratch_eq_setField h.1 h.2, Edit.setScratch_eq_setField h.1 h.2]
    exact Edit.setField_saturate slot (.scratch (s.start + index)) v
  | position | velocity =>
    exact congr_arg₂ (fun x y => x >>= fun _ => y) (Edit.setField_saturate _ _ v.1)
      (Edit.setField_saturate _ _ v.2)

/-- A part that holds what a value is saturated to need not be written. -/
theorem write_of_saturate (hp : p ≠ active) {v : p.Value}
    (h : p.read m slot = .ok (p.saturate v)) : p.write slot v m = .ok () m := by
  rw [← write_saturate]
  exact write_of_read h fun hactive => absurd hactive hp

/-- What a getter gives is in the range of the part. -/
theorem saturate_of_read {v : p.Value} (h : p.read m slot = .ok v) : p.saturate v = v := by
  have hfield : ∀ {f : SlotField} {n : Int}, m.field slot f = .ok n → f.saturate n = n := by
    intro f n hn
    rw [Memory.field_eq_fetchInt (Memory.isSlot_of_field_eq_ok hn).1] at hn
    exact SlotField.saturate_eq_self (Memory.fetchInt_mem hn).1 (Memory.fetchInt_mem hn).2
  cases p with
  | active => rfl
  | typeId | health | sprite => exact hfield h
  | scratch s index hscratch =>
    rw [read, Memory.scratch_eq_field hscratch.1 hscratch.2] at h
    exact hfield h
  | position | velocity =>
    obtain ⟨x, hx, h⟩ := bind_eq_ok_iff.mp h
    obtain ⟨y, hy, h⟩ := bind_eq_ok_iff.mp h
    cases h
    exact Prod.ext (hfield hx) (hfield hy)

/-- Changes elsewhere in the slots make no difference to a getter, which fails anywhere else. -/
theorem read_of_within_slot {cells : Set Nat} (h : Within cells m m')
    (hcells : IsSlot slot → Disjoint (p.cells slot) cells) : p.read m' slot = p.read m slot := by
  by_cases hslot : IsSlot slot
  · exact read_of_within h (hcells hslot)
  · refine read_congr fun f _ => ?_
    rw [Memory.field, Memory.field, checkSlot_eq_error hslot]
    rfl

end SlotPart

/-! ## Worlds that are the same but for some bytes -/

/-- The worlds are the same but for some bytes of the memory. -/
structure World.Differs (cells : Set Nat) (w w' : World) : Prop where
  eq : w' = { w with memory := w'.memory }
  within : Within cells w.memory w'.memory

namespace World.Differs

variable {cells cells' : Set Nat} {w w' w'' : World}

theorem refl (cells : Set Nat) (w : World) : w.Differs cells w := ⟨rfl, .refl _ _⟩

theorem ofMemory {m : Memory} (h : Within cells w.memory m) :
    w.Differs cells { w with memory := m } := ⟨rfl, h⟩

theorem mono (hsub : cells ⊆ cells') (h : w.Differs cells w') : w.Differs cells' w' :=
  ⟨h.eq, h.within.mono hsub⟩

theorem trans (h : w.Differs cells w') (h' : w'.Differs cells w'') : w.Differs cells w'' := by
  refine ⟨?_, h.within.trans h'.within⟩
  rw [h'.eq, h.eq]

theorem ofSize {n : Nat} (h : w.Differs cells w') (hw : w.OfSize n) : w'.OfSize n :=
  h.within.size.trans hw

end World.Differs

/-- In worlds that are the same but for these bytes the step gives the same, and changes nothing. -/
def Overlooks {α : Type} (cells : Set Nat) (x : Tick α) : Prop :=
  ∀ w w', w.Differs cells w' →
    (∃ a, x w = .ok a w ∧ x w' = .ok a w') ∨ ∃ e, x w = .error e w ∧ x w' = .error e w'

/-- From a world whose memory has `n` bytes, the steps write to these bytes and would do nothing
more a second time, or they fail at once. -/
def Settles (n : Nat) (cells : Set Nat) (x : Tick Unit) : Prop :=
  ∀ w, w.OfSize n →
    (∃ w', x w = .ok () w' ∧ w.Differs cells w' ∧ x w' = .ok () w') ∨ ∃ e, x w = .error e w

/-- Steps that settle give the same when they run again, and leave the same world. -/
theorem Settles.again {n : Nat} {cells : Set Nat} {x : Tick Unit} (h : Settles n cells x) {w : World}
    (hw : w.OfSize n) : x (leaves x w) = x w := by
  rcases h w hw with ⟨w', hrun, -, hagain⟩ | ⟨e, herror⟩
  · rw [leaves_of_ok hrun, hagain, hrun]
  · rw [leaves_of_error herror]

section Rules

variable {n : Nat} {cells cells' : Set Nat} {α β : Type}

/-! ## Steps that overlook some bytes -/

theorem overlooks_pure (a : α) : Overlooks cells (pure a : Tick α) :=
  fun _ _ _ => .inl ⟨a, rfl, rfl⟩

theorem overlooks_bind {x : Tick α} {f : α → Tick β} (hx : Overlooks cells x)
    (hf : ∀ a, Overlooks cells (f a)) : Overlooks cells (x >>= f) := by
  intro w w' hdiff
  rcases hx w w' hdiff with ⟨a, ha, ha'⟩ | ⟨e, he, he'⟩
  · rw [bind_of_ok ha, bind_of_ok ha']
    exact hf a w w' hdiff
  · exact .inr ⟨e, bind_of_error he, bind_of_error he'⟩

theorem overlooks_ite {c : Prop} [Decidable c] {x y : Tick α} (hx : Overlooks cells x)
    (hy : Overlooks cells y) : Overlooks cells (if c then x else y) := by
  split
  · exact hx
  · exact hy

theorem overlooks_foldlM {f : β → α → Tick β} (hf : ∀ b a, Overlooks cells (f b a)) (l : List α)
    (b : β) : Overlooks cells (l.foldlM f b) := by
  induction l generalizing b with
  | nil => exact overlooks_pure b
  | cons a l ih =>
    rw [List.foldlM_cons]
    exact overlooks_bind (hf b a) ih

/-- What is taken from the world does not depend on the bytes. -/
theorem overlooks_get {g : World → α} (h : ∀ w w', w.Differs cells w' → g w' = g w) :
    Overlooks cells (get >>= fun w => pure (g w)) := by
  intro w w' hdiff
  rw [bind_of_ok get_eq_ok, bind_of_ok get_eq_ok, h w w' hdiff]
  exact .inl ⟨g w, rfl, rfl⟩

theorem overlooks_read {f : Memory → Except AccessError α}
    (h : ∀ m m', Within cells m m' → f m' = f m) : Overlooks cells (Tick.read f) := by
  intro w w' hdiff
  have hsame := h w.memory w'.memory hdiff.within
  cases hread : f w.memory with
  | ok a =>
    refine .inl ⟨a, ?_, ?_⟩
    · rw [Tick.read, Tick.edit, Edit.read_eq_ok hread]
    · rw [Tick.read, Tick.edit, Edit.read_eq_ok (hsame.trans hread)]
  | error e =>
    refine .inr ⟨.access e, ?_, ?_⟩
    · rw [Tick.read, Tick.edit, Edit.read_eq_error hread]
    · rw [Tick.read, Tick.edit, Edit.read_eq_error (hsame.trans hread)]

/-! ## Steps that settle -/

theorem settles_pure : Settles n cells (pure ()) :=
  fun w _ => .inl ⟨w, rfl, .refl _ w, rfl⟩

theorem settles_ite {c : Prop} [Decidable c] {x y : Tick Unit} (hx : Settles n cells x)
    (hy : Settles n cells y) : Settles n cells (if c then x else y) := by
  split
  · exact hx
  · exact hy

theorem Settles.mono {x : Tick Unit} (h : Settles n cells x) (hsub : cells ⊆ cells') :
    Settles n cells' x := by
  intro w hw
  rcases h w hw with ⟨w', hrun, hdiff, hagain⟩ | hfail
  · exact .inl ⟨w', hrun, hdiff.mono hsub, hagain⟩
  · exact .inr hfail

/-- What a step sees that overlooks the bytes is there again the second time. -/
theorem settles_bind {x : Tick α} {f : α → Tick Unit} (hx : Overlooks cells x)
    (hf : ∀ a, Settles n cells (f a)) : Settles n cells (x >>= f) := by
  intro w hw
  rcases hx w w (.refl _ w) with ⟨a, ha, -⟩ | ⟨e, he, -⟩
  · rw [bind_of_ok ha]
    refine (hf a w hw).imp_left ?_
    rintro ⟨w', hrun, hdiff, hagain⟩
    refine ⟨w', hrun, hdiff, ?_⟩
    rcases hx w w' hdiff with ⟨a', ha', hlater⟩ | ⟨e, he, -⟩
    · cases ha.symm.trans ha'
      rw [bind_of_ok hlater, hagain]
    · cases ha.symm.trans he
  · exact .inr ⟨e, bind_of_error he⟩

/-- What follows a look at the world has to be the same in worlds that differ in the bytes. -/
theorem settles_get_bind {f : World → Tick Unit} (hf : ∀ w, Settles n cells (f w))
    (hsame : ∀ w w', w.Differs cells w' → f w' = f w) : Settles n cells (get >>= f) := by
  intro w hw
  rw [bind_of_ok get_eq_ok]
  refine (hf w w hw).imp_left ?_
  rintro ⟨w', hrun, hdiff, hagain⟩
  refine ⟨w', hrun, hdiff, ?_⟩
  rw [bind_of_ok get_eq_ok, hsame w w' hdiff, hagain]

/-- Steps that fail because something is missing do so again. -/
theorem FailsIff.settles {missing : Prop} {x : Tick Unit}
    (h : FailsIff (World.OfSize n) missing x) (hmissing : missing) : Settles n cells x :=
  fun w hw => .inr ((h w hw).1 hmissing)

theorem settles_edit {e : Edit Unit}
    (h : ∀ m, m.OfSize n → ∃ m', e m = .ok () m' ∧ Within cells m m' ∧ e m' = .ok () m') :
    Settles n cells (Tick.edit e) := by
  intro w hw
  obtain ⟨m', hrun, hwithin, hagain⟩ := h w.memory hw
  refine .inl ⟨{ w with memory := m' }, ?_, .ofMemory hwithin, ?_⟩
  · rw [Tick.edit, hrun]
  · rw [Tick.edit, hagain]

end Rules

namespace Component

/-! ## Numbers within limits -/

/-- What an axis keeps of its velocity `v` at the place `x`, within some limits. -/
def axisVelocity (low high x v : Int) : Int := if Number.clamp low high x ≠ x then 0 else v

/-- At the place where it was moved to, an axis keeps the velocity that it has got. -/
theorem axisVelocity_again {low high x : Int} (hx : Number.clamp 0 65535 x = x) (v : Int) :
    Number.clamp (-32768) 32767
        (axisVelocity low high (Number.clamp 0 65535 (Number.clamp low high x))
          (Number.clamp (-32768) 32767 (axisVelocity low high x v))) =
      Number.clamp (-32768) 32767 (axisVelocity low high x v) := by
  by_cases hmoved : Number.clamp low high x = x
  · -- nothing was moved, so nothing is moved again
    have hkeeps : ∀ u, axisVelocity low high x u = u := fun u => if_neg (not_not.mpr hmoved)
    rw [hmoved, hx, hkeeps, hkeeps, Number.clamp_clamp (by decide)]
  · -- the axis stands still, whether it is moved again or not
    have hstill : axisVelocity low high x v = 0 := if_pos hmoved
    have hzero : Number.clamp (-32768) 32767 0 = 0 := by decide
    rw [hstill, hzero, axisVelocity, ite_self, hzero]

end Component

section Slots

variable {n slot : Nat} (hslot : slot ∈ slotAddresses n)

/-! ## Writing to parts of a slot -/

namespace SlotPart

variable {p q : SlotPart} {w : World}

theorem read_bind_of_ok {α : Type} {v : p.Value} (h : p.read w.memory slot = .ok v)
    (f : p.Value → Tick α) : (Tick.read (p.read · slot) >>= f) w = f v w := by
  have hread : Tick.read (p.read · slot) w = .ok v w := by
    rw [Tick.read, Tick.edit, Edit.read_eq_ok h]
  rw [bind_of_ok hread]

/-- A part that holds what a value is saturated to is written without a change. -/
theorem edit_of_saturate (hp : p ≠ active) {v : p.Value}
    (h : p.read w.memory slot = .ok (p.saturate v)) : Tick.edit (p.write slot v) w = .ok () w := by
  rw [Tick.edit, write_of_saturate hp h]

include hslot

theorem edit_reads (hw : w.OfSize n) (p : SlotPart) (v : p.Value) :
    ∃ w', Tick.edit (p.write slot v) w = .ok () w' ∧ w.Differs (p.cells slot) w' ∧
      p.read w'.memory slot = .ok (p.saturate v) := by
  obtain ⟨hpool, hfits⟩ := mem_slotAddresses.mp hslot
  have hsize : w.memory.size = n := hw
  obtain ⟨m, hwrite, hwithin, hread⟩ := write_reads hpool (m := w.memory) (by rwa [hsize]) p v
  exact ⟨{ w with memory := m }, by rw [Tick.edit, hwrite], .ofMemory hwithin, hread⟩

theorem exists_read_of_size (hw : w.OfSize n) (p : SlotPart) :
    ∃ v, p.read w.memory slot = .ok v := by
  have hsize : w.memory.size = n := hw
  exact exists_read_eq_ok (by rwa [hsize]) p

/-- A part is written, and the same value need not be written again. -/
theorem write_settles (hp : p ≠ active) (v : p.Value) :
    Settles n (p.cells slot) (Tick.edit (p.write slot v)) := by
  intro w hw
  obtain ⟨w', hrun, hdiff, hread⟩ := edit_reads hslot hw p v
  exact .inl ⟨w', hrun, hdiff, edit_of_saturate hp hread⟩

/-- A part is written first, and what follows settles and does not write to it. -/
theorem write_bind_settles (hp : p ≠ active) (v : p.Value) {cells : Set Nat} {x : Tick Unit}
    (hx : Settles n cells x) (hsucceeds : Succeeds (World.OfSize n) x)
    (hcells : Disjoint (p.cells slot) cells) :
    Settles n (p.cells slot ∪ cells) (Tick.edit (p.write slot v) >>= fun _ => x) := by
  intro w hw
  obtain ⟨w₁, hrun₁, hdiff₁, hread₁⟩ := edit_reads hslot hw p v
  rcases hx w₁ (hdiff₁.ofSize hw) with ⟨w₂, hrun₂, hdiff₂, hagain⟩ | ⟨e, he⟩
  · refine .inl ⟨w₂, (bind_of_ok hrun₁).trans hrun₂, ?_, ?_⟩
    · exact (hdiff₁.mono Set.subset_union_left).trans (hdiff₂.mono Set.subset_union_right)
    · have hread₂ : p.read w₂.memory slot = .ok (p.saturate v) := by
        rw [read_of_within hdiff₂.within hcells, hread₁]
      rw [bind_of_ok (edit_of_saturate hp hread₂), hagain]
  · obtain ⟨a, w₂, hok, -⟩ := hsucceeds w₁ (hdiff₁.ofSize hw)
    cases he.symm.trans hok

/-- A part is read and written, and from the new value it is written in the same way. -/
theorem update_settles (hp : p ≠ active) {f : p.Value → p.Value}
    (hf : ∀ v, p.saturate (f (p.saturate (f v))) = p.saturate (f v)) :
    Settles n (p.cells slot)
      (Tick.read (p.read · slot) >>= fun v => Tick.edit (p.write slot (f v))) := by
  intro w hw
  obtain ⟨v, hv⟩ := exists_read_of_size hslot hw p
  obtain ⟨w', hrun, hdiff, hread⟩ := edit_reads hslot hw p (f v)
  refine .inl ⟨w', ?_, hdiff, ?_⟩
  · rw [read_bind_of_ok hv, hrun]
  · rw [read_bind_of_ok hread, edit_of_saturate hp]
    rw [hread, hf]

/-- Two parts are read and written, the second one by the values of both, and from the new values
they are written in the same way. -/
theorem update_both_settles (hp : p ≠ active) (hq : q ≠ active) (hpq : ¬ p.Same q)
    {f : p.Value → p.Value} {g : p.Value → q.Value → q.Value}
    (hf : ∀ v, p.saturate (f (p.saturate (f v))) = p.saturate (f v))
    (hg : ∀ v u, p.saturate v = v →
      q.saturate (g (p.saturate (f v)) (q.saturate (g v u))) = q.saturate (g v u)) :
    Settles n (p.cells slot ∪ q.cells slot)
      (Tick.read (p.read · slot) >>= fun v => Tick.read (q.read · slot) >>= fun u =>
        Tick.edit (p.write slot (f v)) >>= fun _ => Tick.edit (q.write slot (g v u))) := by
  obtain ⟨hpool, -⟩ := mem_slotAddresses.mp hslot
  intro w hw
  obtain ⟨v, hv⟩ := exists_read_of_size hslot hw p
  obtain ⟨u, hu⟩ := exists_read_of_size hslot hw q
  obtain ⟨w₁, hrun₁, hdiff₁, hread₁⟩ := edit_reads hslot hw p (f v)
  obtain ⟨w₂, hrun₂, hdiff₂, hreadq⟩ := edit_reads hslot (hdiff₁.ofSize hw) q (g v u)
  have hreadp : p.read w₂.memory slot = .ok (p.saturate (f v)) := by
    rw [read_of_within hdiff₂.within (disjoint_cells hpool hpool fun h => hpq h.2), hread₁]
  refine .inl ⟨w₂, ?_, ?_, ?_⟩
  · rw [read_bind_of_ok hv, read_bind_of_ok hu, bind_of_ok hrun₁, hrun₂]
  · exact (hdiff₁.mono Set.subset_union_left).trans (hdiff₂.mono Set.subset_union_right)
  · have hp₂ : Tick.edit (p.write slot (f (p.saturate (f v)))) w₂ = .ok () w₂ :=
      edit_of_saturate hp (by rw [hreadp, hf])
    rw [read_bind_of_ok hreadp, read_bind_of_ok hreadq, bind_of_ok hp₂, edit_of_saturate hq]
    rw [hreadq, hg v u (saturate_of_read hv)]

end SlotPart

/-! ## The bytes that a setting changes -/

/-- The bytes of a slot from the velocity on. -/
def hindCells (slot : Nat) : Set Nat :=
  Set.Ico (slot + SlotPart.velocity.offset) (slot + slotBytes)

namespace SlotPart

variable {p : SlotPart}

theorem cells_subset_hindCells (hp : velocity.offset ≤ p.offset) (slot : Nat) :
    p.cells slot ⊆ hindCells slot := by
  rintro i ⟨hlow, hhigh⟩
  have := p.offset_add_width_le
  exact ⟨by omega, by omega⟩

/-- Parts before the velocity lie apart from these bytes, in every slot. -/
theorem disjoint_hindCells (hslot : IsSlot slot) {other : Nat} (hother : IsSlot other)
    (hp : p.offset + p.width ≤ velocity.offset) :
    Disjoint (p.cells other) (hindCells slot) := by
  rw [Set.disjoint_left]
  rintro i ⟨hplow, hphigh⟩ ⟨hlow, hhigh⟩
  simp only [slotBytes, offset] at *
  by_cases heq : other = slot
  · omega
  · rcases hother.apart hslot heq with hbefore | hbehind <;> omega

/-- The first scratch byte of a component is a part of its slot unless it is refused: one of the
scratch bytes or, when counting it goes over the top, the sprite. -/
theorem exists_write_eq_setScratch {s : Scratch} (h : ¬ s.Refused 0 1) :
    ∃ (p : SlotPart) (f : Int → p.Value), velocity.offset + velocity.width ≤ p.offset ∧
      ∀ slot v, Edit.setScratch slot s .int8 0 v = p.write slot (f v) := by
  cases hplace : Number.wrapWord64 (s.start + 0 + 1) with
  | zero =>
    refine ⟨sprite, id, by decide, fun slot v => ?_⟩
    rw [Edit.setScratch_eq_setField_place h, Scratch.place, hplace]
    rfl
  | succ byte =>
    have hbyte : byte < scratchBytes := by
      unfold Scratch.Refused at h
      omega
    refine ⟨scratch ⟨byte, 1⟩ 0 ⟨Nat.one_pos, hbyte⟩, id, le_add_right (by decide), fun slot v => ?_⟩
    rw [Edit.setScratch_eq_setField_place h, Scratch.place, hplace]
    exact (Edit.setScratch_eq_setField (s := ⟨byte, 1⟩) Nat.one_pos hbyte v).symm

/-- A getter of a part before the velocity does not see these bytes. -/
theorem read_of_within_hindCells {m m' : Memory} (hslot : IsSlot slot)
    (h : Within (hindCells slot) m m') (hp : p.offset + p.width ≤ velocity.offset) (other : Nat) :
    p.read m' other = p.read m other :=
  read_of_within_slot h fun hother => disjoint_hindCells hslot hother hp

end SlotPart

namespace Component

/-! ## Looking around -/

section Looking

variable (hpool : IsSlot slot)

include hpool

theorem center_overlooks (other : Nat) : Overlooks (hindCells slot) (center other) := by
  refine overlooks_bind (overlooks_read fun m m' h => ?_) fun _ => overlooks_pure _
  exact SlotPart.read_of_within_hindCells (p := .position) hpool h (by decide) other

/-- The active slots and their types do not depend on the bytes from the velocity on. -/
theorem others_overlooks (p : Properties) (env : Surroundings) :
    Overlooks (hindCells slot) (others slot p env) := by
  refine overlooks_get fun w w' hdiff => ?_
  have hactive : w'.memory.activeSlots = w.memory.activeSlots := by
    have hread := SlotPart.read_of_within_hindCells (p := .active) hpool hdiff.within (by decide)
    rw [Memory.activeSlots, Memory.activeSlots, hdiff.within.size]
    refine List.filter_congr fun other _ => ?_
    exact congrArg (fun a => (Except.toOption a).getD false) (hread other)
  have htype : ∀ target other,
      isTarget w'.memory target other = isTarget w.memory target other := by
    intro target other
    have hread := SlotPart.read_of_within_hindCells (p := .typeId) hpool hdiff.within (by decide)
      other
    change w'.memory.field other .typeId = w.memory.field other .typeId at hread
    unfold isTarget
    rw [hread]
  simp only [hactive, htype]

theorem anyPosition_overlooks (test : Point → Bool) (slots : List Nat) :
    Overlooks (hindCells slot) (anyPosition test slots) := by
  induction slots with
  | nil => exact overlooks_pure _
  | cons other slots ih =>
    exact overlooks_bind (center_overlooks hpool other) fun _ => overlooks_ite (overlooks_pure _) ih

end Looking

/-! ## Setting -/

include hslot

theorem setVelocity_settles (x y : Int) :
    Settles n (hindCells slot) (Tick.edit (Edit.setVelocity slot x y)) :=
  (SlotPart.write_settles hslot (p := .velocity) nofun (x, y)).mono
    (SlotPart.cells_subset_hindCells le_rfl slot)

theorem setScratch_settles (s : Scratch) (value : Int) :
    Settles n (hindCells slot) (Tick.edit (Edit.setScratch slot s .int8 0 value)) := by
  by_cases hrefused : s.Refused 0 1
  · exact (setScratch_failsIff hslot .int8 value).settles hrefused
  · obtain ⟨p, f, hbehind, hwrite⟩ := SlotPart.exists_write_eq_setScratch hrefused
    have hactive : p ≠ .active := fun h => absurd hbehind (h ▸ by decide)
    rw [hwrite]
    exact (SlotPart.write_settles hslot hactive (f value)).mono
      (SlotPart.cells_subset_hindCells (le_of_add_le_left hbehind) slot)

theorem setActive_settles (active : Bool) :
    Settles n (SlotPart.active.cells slot) (Tick.edit (Edit.setActive slot active)) := by
  obtain ⟨hpool, hfits⟩ := mem_slotAddresses.mp hslot
  refine settles_edit fun m hm => ?_
  have hsize : m.size = n := hm
  obtain ⟨m', hrun, hwithin, hfield⟩ := Edit.setField_reads (f := .active) hpool (m := m)
    (by simp [SlotField.active, Storage.width]; omega) (if active then 1 else 0)
  exact ⟨m', hrun, hwithin, Edit.setField_of_saturate hfield⟩

/-! ## The components -/

variable (p : Properties) (env : Surroundings)

/-- The health is not seen to change when the entity is ended. -/
theorem health_settles : Settles n (SlotPart.active.cells slot) (health slot p env) := by
  obtain ⟨hpool, -⟩ := mem_slotAddresses.mp hslot
  refine settles_bind (overlooks_read fun m m' h => ?_) fun _ =>
    settles_ite (setActive_settles hslot false) settles_pure
  exact SlotPart.read_of_within (p := .health) h (SlotPart.disjoint_cells hpool hpool nofun)

theorem collider_settles : Settles n (hindCells slot) (collider slot p env) := by
  obtain ⟨hpool, -⟩ := mem_slotAddresses.mp hslot
  exact settles_bind (center_overlooks hpool slot) fun _ =>
    settles_ite (setVelocity_settles hslot 0 0) settles_pure

theorem playerController_settles : Settles n (hindCells slot) (playerController slot p env) :=
  setVelocity_settles hslot _ _

theorem chase_settles : Settles n (hindCells slot) (chase slot p env) := by
  obtain ⟨hpool, -⟩ := mem_slotAddresses.mp hslot
  refine settles_bind (center_overlooks hpool slot) fun _ => ?_
  refine settles_bind (others_overlooks hpool p env) fun _ => ?_
  refine settles_bind (overlooks_foldlM (fun _ other => ?_) _ _) fun found => ?_
  · exact overlooks_bind (center_overlooks hpool other) fun _ => overlooks_pure _
  · cases found with
    | none => exact settles_pure
    | some found => exact setVelocity_settles hslot _ _

theorem interactable_settles : Settles n (hindCells slot) (interactable slot p env) := by
  obtain ⟨hpool, -⟩ := mem_slotAddresses.mp hslot
  refine settles_bind (center_overlooks hpool slot) fun _ => settles_ite ?_ ?_
  · refine settles_bind (others_overlooks hpool p env) fun _ => ?_
    refine settles_bind (anyPosition_overlooks hpool _ _) fun _ => ?_
    exact setScratch_settles hslot _ _
  · exact setScratch_settles hslot _ _

theorem areaTrigger_settles : Settles n (hindCells slot) (areaTrigger slot p env) := by
  obtain ⟨hpool, -⟩ := mem_slotAddresses.mp hslot
  refine settles_bind (center_overlooks hpool slot) fun _ => ?_
  refine settles_bind (others_overlooks hpool p env) fun _ => ?_
  exact settles_bind (anyPosition_overlooks hpool _ _) fun _ => setScratch_settles hslot _ _

omit hslot in
theorem animator_settles (slot : Nat) : Settles n (hindCells slot) (animator slot p env) :=
  settles_pure

/-- The velocity is set to one number, and to a second one or to what it was. -/
theorem updateVelocity_settles (x y : Int) (keeps : Bool) :
    Settles n (SlotPart.velocity.cells slot) (do
      let (_, vy) ← Tick.read (·.velocity slot)
      Tick.edit (Edit.setVelocity slot x (if keeps then y else vy))) := by
  refine SlotPart.update_settles hslot (p := .velocity)
    (f := fun v => (x, if keeps then y else v.2)) nofun fun v => ?_
  cases keeps with
  | true => rfl
  | false => exact Prod.ext rfl (Number.clamp_clamp (by decide) v.2)

theorem updateVelocity_succeeds (x y : Int) (keeps : Bool) :
    Succeeds (World.OfSize n) (do
      let (_, vy) ← Tick.read (·.velocity slot)
      Tick.edit (Edit.setVelocity slot x (if keeps then y else vy))) :=
  succeeds_look_bind (velocity_looks hslot) fun _ _ => setVelocity_succeeds hslot _ _

/-- The ground under the feet is told from the position, which is not changed. -/
theorem platformController_settles :
    Settles n (hindCells slot) (platformController slot p env) := by
  by_cases hrefused : env.scratch.Refused 0 1
  · exact (platformController_failsIff hslot p env).settles hrefused
  · obtain ⟨hpool, -⟩ := mem_slotAddresses.mp hslot
    obtain ⟨q, f, hbehind, hwrite⟩ := SlotPart.exists_write_eq_setScratch hrefused
    have hactive : q ≠ .active := fun h => absurd hbehind (h ▸ by decide)
    have hsub : q.cells slot ∪ SlotPart.velocity.cells slot ⊆ hindCells slot :=
      Set.union_subset (SlotPart.cells_subset_hindCells (le_of_add_le_left hbehind) slot)
        (SlotPart.cells_subset_hindCells le_rfl slot)
    have hcells : Disjoint (q.cells slot) (SlotPart.velocity.cells slot) :=
      Set.Ico_disjoint_Ico.mpr ((min_le_right _ _).trans (le_trans (by omega) (le_max_left _ _)))
    refine settles_bind (center_overlooks hpool slot) fun position => ?_
    extract_lets feet grounded
    rw [hwrite]
    exact (SlotPart.write_bind_settles hslot hactive _ (updateVelocity_settles hslot _ _ _)
      (updateVelocity_succeeds hslot _ _ _) hcells).mono hsub

/-- The limits depend on the canvas, whose size no component changes. -/
theorem bounds_settles :
    Settles n (SlotPart.position.cells slot ∪ SlotPart.velocity.cells slot)
      (bounds slot p env) := by
  refine settles_get_bind (fun w => ?_) fun w w' hdiff => by rw [hdiff.eq]
  dsimp only
  generalize p.rounded "minX" 0 = minX
  generalize p.rounded "minY" 0 = minY
  generalize hmaxX : max (p.rounded "maxX" (Number.ofInt w.width)) minX = maxX
  generalize hmaxY : max (p.rounded "maxY" (Number.ofInt w.height)) minY = maxY
  have hx : minX ≤ maxX := hmaxX ▸ le_max_right _ _
  have hy : minY ≤ maxY := hmaxY ▸ le_max_right _ _
  refine SlotPart.update_both_settles hslot (p := .position) (q := .velocity) nofun nofun nofun
    (f := fun v => (Number.clamp minX maxX v.1, Number.clamp minY maxY v.2))
    (g := fun v u => (axisVelocity minX maxX v.1 u.1, axisVelocity minY maxY v.2 u.2))
    (fun v => ?_) fun v u hv => ?_
  · exact Prod.ext (Number.clamp_clamp_clamp hx (by decide) v.1)
      (Number.clamp_clamp_clamp hy (by decide) v.2)
  · obtain ⟨hv₁, hv₂⟩ := Prod.mk.inj hv
    exact Prod.ext (axisVelocity_again hv₁ u.1) (axisVelocity_again hv₂ u.2)

end Component

end Slots

/-! ## All of them -/

namespace Component

/-- The component gives the same when it runs twice as when it runs once, and leaves the same world,
whether it succeeds or fails. -/
def Idempotent (component : Component) : Prop :=
  ∀ (w : World) (slot : Nat), slot ∈ slotAddresses w.memory.size →
    ∀ (p : Properties) (env : Surroundings),
      component.tick slot p env (leaves (component.tick slot p env) w) = component.tick slot p env w

theorem idempotent_of_settles {component : Component}
    (h : ∀ {n slot : Nat}, slot ∈ slotAddresses n → ∀ (p : Properties) (env : Surroundings),
      ∃ cells, Settles n cells (component.tick slot p env)) : component.Idempotent := by
  intro w slot hslot p env
  obtain ⟨cells, hsettles⟩ := h hslot p env
  exact hsettles.again rfl

/-- The components that only set data of their own slot. -/
def settingIds : List String :=
  ["Health", "Collider", "Bounds", "PlayerController", "PlatformController", "Interactable",
    "AreaTrigger", "Chase", "Animator"]

end Component

section Builtins

open Component

/-- **Setting components are idempotent.** Each of them is a built-in component, and in every world
and every slot that fits into its memory, with any properties and surroundings, it gives the same
and leaves the same world when it runs twice as when it runs once. -/
theorem Registry.settings_idempotent {id : String} (hid : id ∈ settingIds) :
    ∃ component, builtins.get? id = some component ∧ component.Idempotent := by
  have builtin : ∀ {component : Component}, builtins.get? id = some component →
      (∀ {n slot : Nat}, slot ∈ slotAddresses n → ∀ (p : Properties) (env : Surroundings),
        ∃ cells, Settles n cells (component.tick slot p env)) →
      ∃ component, builtins.get? id = some component ∧ component.Idempotent :=
    fun hget h => ⟨_, hget, idempotent_of_settles h⟩
  simp only [settingIds, List.mem_cons, List.not_mem_nil, or_false] at hid
  rcases hid with rfl | rfl | rfl | rfl | rfl | rfl | rfl | rfl | rfl
  · exact builtin rfl fun hslot p env => ⟨_, health_settles hslot p env⟩
  · exact builtin rfl fun hslot p env => ⟨_, collider_settles hslot p env⟩
  · exact builtin rfl fun hslot p env => ⟨_, bounds_settles hslot p env⟩
  · exact builtin rfl fun hslot p env => ⟨_, playerController_settles hslot p env⟩
  · exact builtin rfl fun hslot p env => ⟨_, platformController_settles hslot p env⟩
  · exact builtin rfl fun hslot p env => ⟨_, interactable_settles hslot p env⟩
  · exact builtin rfl fun hslot p env => ⟨_, areaTrigger_settles hslot p env⟩
  · exact builtin rfl fun hslot p env => ⟨_, chase_settles hslot p env⟩
  · exact builtin rfl fun {_ slot} _ p env => ⟨_, animator_settles p env slot⟩

end Builtins

/-- Limits beyond every position move the entity and stop it, once and for all. -/
theorem Registry.settings_idempotent_bounds :
    let w := World.start 12 11 0
    let far : Properties := Dictionary.ofList [("minX", .integer 70000), ("maxY", .integer (-1))]
    let bounds := Component.bounds 512 far (bareSurroundings .none)
    "Bounds" ∈ Component.settingIds ∧ 512 ∈ slotAddresses w.memory.size ∧
      bounds (leaves bounds w) = bounds w := by
  intro w far bounds
  have hid : "Bounds" ∈ Component.settingIds := by decide
  have hslot : 512 ∈ slotAddresses w.memory.size := by decide +kernel
  obtain ⟨component, hget, hidempotent⟩ := settings_idempotent hid
  have hbounds : builtins.get? "Bounds" = some ⟨Component.bounds, none, 0⟩ := rfl
  obtain rfl := Option.some.inj (hget.symm.trans hbounds)
  exact ⟨hid, hslot, hidempotent w 512 hslot far (bareSurroundings .none)⟩

end PixelScene
