import PixelScene.Proofs.Component.Frame
import PixelScene.Proofs.Success

/-!
# When a component fails

In a slot that fits into the memory, a built-in component fails only if it lacks scratch bytes that
it uses, or if it is a `Spawner` that does not know what to make. It finds out before it changes
anything.

* `Scratch.Lacks`, `Component.Unmet`: what a component needs and does not have.
* One lemma for each component says when it fails, and that nothing is changed then.
* `Registry.builtins_fail_iff`: all of them together.

What is asked of scratch bytes is that their place is not refused (`Scratch.Refused`), as `addr`
asks it: with sums of 64 bits. A part that begins near the top of all addresses passes that test
with bytes that it does not have. `Component.Strays` says when, and up to this case the test is the
plain one, a part that has its first bytes and has them in the slot (`Scratch.Lacks`). No part that
the engine shares out begins there, but a host may ask for one.
-/

namespace PixelScene

/-! ## Slots that fit into the memory -/

/-- The memory has `n` bytes. -/
def Memory.OfSize (n : Nat) (m : Memory) : Prop := m.size = n

/-- The memory of the world has `n` bytes. -/
def World.OfSize (n : Nat) (w : World) : Prop := w.memory.OfSize n

section Slots

variable {n slot : Nat} (hslot : slot ∈ slotAddresses n)

namespace Edit

include hslot

theorem setField_succeeds {f : SlotField} (hf : f.offset + f.storage.width ≤ slotBytes)
    (value : Int) : Succeeds (Memory.OfSize n) (setField slot f value) := by
  intro m hm
  obtain ⟨hslot, hfits⟩ := mem_slotAddresses.mp hslot
  have hsize : m.size = n := hm
  rw [slotBytes] at hf
  exact ⟨(), _, setField_eq_ok hslot (by omega) value, (m.size_putField _ _ _).trans hm⟩

theorem setPosition_succeeds (x y : Int) :
    Succeeds (Memory.OfSize n) (setPosition slot x y) :=
  succeeds_bind (setField_succeeds hslot (by decide) x) fun _ =>
    setField_succeeds hslot (by decide) y

theorem setVelocity_succeeds (x y : Int) :
    Succeeds (Memory.OfSize n) (setVelocity slot x y) :=
  succeeds_bind (setField_succeeds hslot (by decide) x) fun _ =>
    setField_succeeds hslot (by decide) y

theorem setActive_succeeds (active : Bool) :
    Succeeds (Memory.OfSize n) (setActive slot active) :=
  setField_succeeds hslot (by decide) _

/-- A memory with a slot has the globals before it, and the shake of the camera at their end. -/
theorem setShake_succeeds (x y : Int) : Succeeds (Memory.OfSize n) (setShake x y) := by
  obtain ⟨hslot, hfits⟩ := mem_slotAddresses.mp hslot
  have hlow := (isSlot_iff.mp hslot).1
  have hcheck : ∀ address, Region.globals.holds address 2 = true → address + 2 ≤ 512 →
      Looks (Memory.OfSize n) (read (·.checkRegion .globals address 2)) fun _ => True := by
    intro address hholds haddress m hm
    have hsize : m.size = n := hm
    exact ⟨(), read_eq_ok (Memory.checkRegion_eq_ok hholds (by omega)), trivial⟩
  have hstore : ∀ address value, address + 2 ≤ 512 →
      Succeeds (Memory.OfSize n) (storeInt .signedInt16 address value) := by
    intro address value haddress m hm
    have hsize : m.size = n := hm
    have hstored : address + Storage.signedInt16.width ≤ m.size := by
      rw [hsize]
      exact haddress.trans (by omega)
    exact ⟨(), _, store_eq_ok hstored _, (m.size_storeRaw _ _ _).trans hm⟩
  refine succeeds_look_bind (hcheck shakeX (by decide) (by decide)) fun _ _ => ?_
  refine succeeds_look_bind (hcheck shakeY (by decide) (by decide)) fun _ _ => ?_
  exact succeeds_bind (hstore shakeX x (by decide)) fun _ => hstore shakeY y (by decide)

omit hslot in
theorem spawn_succeeds (typeId x y health : Int) :
    Succeeds (Memory.OfSize n) (spawn typeId x y health) := by
  intro m hm
  cases h : m.freeSlot? with
  | none => exact ⟨none, m, spawn_of_full h typeId x y health, hm⟩
  | some address =>
    exact ⟨some address, _, spawn_of_free h typeId x y health,
      (within_fresh m typeId x y health).size.trans hm⟩

end Edit

/-! ## Scratch bytes -/

namespace Scratch

variable {s : Scratch} {slot width : Nat}

/-- A part of the scratch bytes that does not have its first `width` bytes, or not in the slot. -/
def Lacks (s : Scratch) (width : Nat) : Prop :=
  s.size < width ∨ scratchBytes < s.start + width

/-- The first `width` bytes of a part are not refused, though they are missing, exactly if the part
starts so far behind the slot that their end goes over the top. -/
theorem lacks_iff (hwidth : width ≤ 3) (hstart : s.start < 2 ^ 64) :
    s.Lacks width ↔ s.Refused 0 width ∨ width ≤ s.size ∧ 2 ^ 64 ≤ s.start + width := by
  simp only [Lacks, Refused, Number.wrapWord64, scratchBytes, slotBytes, scratchOffset]
  omega

/-- A cell of a part whose end goes over the top is not refused. -/
theorem not_refused_of_over (hwidth : width ≤ 3) (hstart : s.start < 2 ^ 64)
    (h : width ≤ s.size ∧ 2 ^ 64 ≤ s.start + width) : ¬ s.Refused 0 width := by
  simp only [Refused, Number.wrapWord64, scratchBytes, slotBytes, scratchOffset]
  omega

theorem not_refused (h : ¬ s.Lacks width) : ¬ s.Refused 0 width := by
  unfold Lacks at h
  exact not_refused_of_fits (by omega) (by omega)

theorem not_lacks (hwidth : width ≤ 3) (hword : s.start + width < 2 ^ 64)
    (h : ¬ s.Refused 0 width) : ¬ s.Lacks width := by
  rw [lacks_iff hwidth (by omega), or_iff_right h]
  omega

theorem place_zero (h : ¬ s.Lacks width) :
    s.place slot 0 width = slot + scratchOffset + s.start := by
  unfold Lacks at h
  exact place_of_fits (by omega)

end Scratch

/-- The first cell of a component is read where its bytes lie. -/
theorem Memory.scratch_eq_fetchInt {m : Memory} {slot : Nat} {s : Scratch} {t : Storage}
    (hslot : IsSlot slot) (hs : ¬ s.Refused 0 t.width) :
    m.scratch slot s t 0 = m.fetchInt t (s.place slot 0 t.width) := by
  rw [scratch, checkSlot_eq_ok hslot, Scratch.address_eq_ok hslot t.width_le hs]
  rfl

section Cells

variable {s : Scratch} (t : Storage)

include hslot

/-- The bytes of a cell that is not refused lie in the memory. -/
theorem Scratch.fits (h : ¬ s.Refused 0 t.width) : s.place slot 0 t.width + t.width ≤ n := by
  obtain ⟨-, hfits⟩ := mem_slotAddresses.mp hslot
  have hlast : s.place slot 0 t.width + (t.width - 1) ∈ s.reach slot 0 t.width := by
    have hwidth := t.width_pos
    exact ⟨by omega, by omega⟩
  have hhigh := (reach_subset t.width_le h hlast).2
  rw [slotBytes] at hhigh
  omega

/-- A scratch cell is read unless it is refused. -/
theorem Memory.scratch_failsIff : FailsIff (Memory.OfSize n) (s.Refused 0 t.width)
    (Edit.read (·.scratch slot s t 0)) := by
  obtain ⟨hpool, -⟩ := mem_slotAddresses.mp hslot
  intro m hm
  constructor
  · intro hrefused
    obtain ⟨e, he⟩ := Scratch.exists_address_eq_error slot hrefused
    have hread : m.scratch slot s t 0 = .error e := by
      rw [scratch, checkSlot_eq_ok hpool, he]
      rfl
    exact ⟨e, Edit.read_eq_error hread⟩
  · intro hrefused
    have hfits : s.place slot 0 t.width + t.width ≤ m.size := hm ▸ Scratch.fits hslot t hrefused
    have hread := (scratch_eq_fetchInt hpool hrefused).trans (fetchInt_eq_ok hfits)
    exact ⟨_, m, Edit.read_eq_ok hread, hm⟩

/-- A scratch cell is written unless it is refused. -/
theorem Edit.setScratch_failsIff (value : Int) : FailsIff (Memory.OfSize n) (s.Refused 0 t.width)
    (Edit.setScratch slot s t 0 value) := by
  obtain ⟨hpool, -⟩ := mem_slotAddresses.mp hslot
  intro m hm
  rw [setScratch, bind_of_ok (read_eq_ok (checkSlot_eq_ok hpool))]
  constructor
  · intro hrefused
    obtain ⟨e, he⟩ := Scratch.exists_address_eq_error slot hrefused
    exact ⟨e, bind_of_error (read_eq_error he)⟩
  · intro hrefused
    have hfits : s.place slot 0 t.width + t.width ≤ m.size := hm ▸ Scratch.fits hslot t hrefused
    rw [bind_of_ok (read_eq_ok (Scratch.address_eq_ok hpool t.width_le hrefused))]
    exact ⟨(), _, store_eq_ok hfits _, (m.size_storeRaw _ _ _).trans hm⟩

end Cells

/-! ## Ticks -/

namespace Tick

variable {α : Type} {Q : α → Prop} {missing : Prop}

theorem succeeds_edit {e : Edit α} (h : Succeeds (Memory.OfSize n) e) :
    Succeeds (World.OfSize n) (Tick.edit e) := by
  intro w hw
  obtain ⟨a, m, hok, hm⟩ := h w.memory hw
  exact ⟨a, { w with memory := m }, by rw [edit, hok], hm⟩

theorem failsIff_edit {e : Edit α} (h : FailsIff (Memory.OfSize n) missing e) :
    FailsIff (World.OfSize n) missing (Tick.edit e) := by
  intro w hw
  obtain ⟨hfail, hok⟩ := h w.memory hw
  constructor
  · intro hmissing
    obtain ⟨fault, hfault⟩ := hfail hmissing
    exact ⟨.access fault, by rw [edit, hfault]⟩
  · intro hmissing
    obtain ⟨a, m, ha, hm⟩ := hok hmissing
    exact ⟨a, { w with memory := m }, by rw [edit, ha], hm⟩

theorem looks_read {f : Memory → Except AccessError α}
    (h : ∀ m, m.OfSize n → ∃ a, f m = .ok a) :
    Looks (World.OfSize n) (Tick.read f) fun _ => True := by
  intro w hw
  obtain ⟨a, ha⟩ := h w.memory hw
  exact ⟨a, by rw [read, edit, Edit.read_eq_ok ha], trivial⟩

end Tick

namespace Component

section Looking

include hslot

theorem position_looks : Looks (World.OfSize n) (Tick.read (·.position slot)) fun _ => True :=
  Tick.looks_read fun _ hm => Memory.exists_position_eq_ok (hm ▸ hslot)

theorem velocity_looks : Looks (World.OfSize n) (Tick.read (·.velocity slot)) fun _ => True :=
  Tick.looks_read fun _ hm => Memory.exists_velocity_eq_ok (hm ▸ hslot)

theorem health_looks : Looks (World.OfSize n) (Tick.read (·.field slot .health)) fun _ => True :=
  Tick.looks_read fun _ hm => Memory.exists_field_eq_ok (hm ▸ hslot) (by decide)

theorem center_looks : Looks (World.OfSize n) (center slot) fun _ => True :=
  looks_bind (position_looks hslot) fun _ _ => looks_pure trivial

omit hslot in
/-- The other entities stand in slots that fit into the memory. -/
theorem others_looks (slot : Nat) (p : Properties) (env : Surroundings) :
    Looks (World.OfSize n) (others slot p env) fun l => ∀ other ∈ l, other ∈ slotAddresses n := by
  refine looks_bind looks_get fun w hw => looks_pure fun other hother => ?_
  have hactive := List.mem_of_mem_filter (List.mem_of_mem_filter hother)
  rwa [show w.memory.size = n from hw] at hactive

omit hslot in
theorem anyPosition_looks (test : Point → Bool) {slots : List Nat}
    (h : ∀ other ∈ slots, other ∈ slotAddresses n) :
    Looks (World.OfSize n) (anyPosition test slots) fun _ => True := by
  induction slots with
  | nil => exact looks_pure trivial
  | cons other slots ih =>
    refine looks_bind (center_looks (h other List.mem_cons_self)) fun _ _ => ?_
    exact looks_ite (looks_pure trivial) (ih fun q hq => h q (List.mem_cons_of_mem _ hq))

theorem setVelocity_succeeds (x y : Int) :
    Succeeds (World.OfSize n) (Tick.edit (Edit.setVelocity slot x y)) :=
  Tick.succeeds_edit (Edit.setVelocity_succeeds hslot x y)

theorem setPosition_succeeds (x y : Int) :
    Succeeds (World.OfSize n) (Tick.edit (Edit.setPosition slot x y)) :=
  Tick.succeeds_edit (Edit.setPosition_succeeds hslot x y)

theorem setActive_succeeds (active : Bool) :
    Succeeds (World.OfSize n) (Tick.edit (Edit.setActive slot active)) :=
  Tick.succeeds_edit (Edit.setActive_succeeds hslot active)

theorem scratch_failsIff {s : Scratch} (t : Storage) :
    FailsIff (World.OfSize n) (s.Refused 0 t.width) (Tick.read (·.scratch slot s t 0)) :=
  Tick.failsIff_edit (Memory.scratch_failsIff hslot t)

theorem setScratch_failsIff {s : Scratch} (t : Storage) (value : Int) :
    FailsIff (World.OfSize n) (s.Refused 0 t.width)
      (Tick.edit (Edit.setScratch slot s t 0 value)) :=
  Tick.failsIff_edit (Edit.setScratch_failsIff hslot t value)

theorem setScratch_succeeds {s : Scratch} (t : Storage) (h : ¬ s.Refused 0 t.width) (value : Int) :
    Succeeds (World.OfSize n) (Tick.edit (Edit.setScratch slot s t 0 value)) :=
  fun w hw => (setScratch_failsIff hslot t value w hw).2 h

end Looking

/-! ## Components that always succeed -/

section Succeeding

variable (p : Properties) (env : Surroundings)

include hslot

theorem gravity_succeeds : Succeeds (World.OfSize n) (gravity slot p env) :=
  succeeds_look_bind (velocity_looks hslot) fun _ _ => setVelocity_succeeds hslot _ _

theorem kinematic_succeeds : Succeeds (World.OfSize n) (kinematic slot p env) :=
  succeeds_look_bind (position_looks hslot) fun _ _ =>
    succeeds_look_bind (velocity_looks hslot) fun _ _ => setPosition_succeeds hslot _ _

theorem friction_succeeds : Succeeds (World.OfSize n) (friction slot p env) :=
  succeeds_look_bind (velocity_looks hslot) fun _ _ => setVelocity_succeeds hslot _ _

theorem bounds_succeeds : Succeeds (World.OfSize n) (bounds slot p env) := by
  refine succeeds_look_bind looks_get fun w _ => ?_
  refine succeeds_look_bind (position_looks hslot) fun _ _ => ?_
  refine succeeds_look_bind (velocity_looks hslot) fun _ _ => ?_
  exact succeeds_bind (setPosition_succeeds hslot _ _) fun _ => setVelocity_succeeds hslot _ _

theorem collider_succeeds : Succeeds (World.OfSize n) (collider slot p env) :=
  succeeds_look_bind (center_looks hslot) fun _ _ =>
    succeeds_ite (setVelocity_succeeds hslot _ _) (succeeds_pure _)

theorem playerController_succeeds : Succeeds (World.OfSize n) (playerController slot p env) :=
  setVelocity_succeeds hslot _ _

theorem chase_succeeds : Succeeds (World.OfSize n) (chase slot p env) := by
  refine succeeds_look_bind (center_looks hslot) fun _ _ => ?_
  refine succeeds_look_bind (others_looks slot p env) fun l hl => ?_
  refine succeeds_look_bind (looks_foldlM (R := fun _ => True) (fun _ other hother _ => ?_) trivial)
    fun found _ => ?_
  · exact looks_bind (center_looks (hl other hother)) fun _ _ => looks_pure trivial
  · cases found with
    | none => exact succeeds_pure _
    | some found => exact setVelocity_succeeds hslot _ _

theorem health_succeeds : Succeeds (World.OfSize n) (health slot p env) :=
  succeeds_look_bind (health_looks hslot) fun _ _ =>
    succeeds_ite (setActive_succeeds hslot _) (succeeds_pure _)

theorem hit_succeeds (damage : Int) (knockback : Float32) (origin position : Point) :
    Succeeds (World.OfSize n) (hit damage knockback origin position slot) := by
  refine succeeds_look_bind (health_looks hslot) fun _ _ => ?_
  have hhealth := fun value => Tick.succeeds_edit
    (Edit.setField_succeeds hslot (f := .health) (by decide) value)
  refine succeeds_bind (hhealth _) fun _ => succeeds_ite ?_ (succeeds_pure _)
  exact succeeds_look_bind (velocity_looks hslot) fun _ _ => setVelocity_succeeds hslot _ _

theorem hitbox_succeeds : Succeeds (World.OfSize n) (hitbox slot p env) := by
  refine succeeds_look_bind (center_looks hslot) fun _ _ => ?_
  refine succeeds_look_bind (others_looks slot p env) fun l hl => ?_
  refine succeeds_forM fun other hother => ?_
  refine succeeds_look_bind (center_looks (hl other hother)) fun _ _ => ?_
  exact succeeds_ite (hit_succeeds (hl other hother) _ _ _ _) (succeeds_pure _)

theorem screenShake_succeeds : Succeeds (World.OfSize n) (screenShake slot p env) := by
  refine succeeds_get_bind fun w hw => ?_
  dsimp only
  -- the random numbers move on first, which leaves the memory as it is
  rw [bind_of_ok (set_eq_ok _)]
  have hsize : w.memory.size = n := hw
  exact Tick.succeeds_edit (Edit.setShake_succeeds hslot _ _) _ hsize

theorem camera_succeeds : Succeeds (World.OfSize n) (camera slot p env) :=
  succeeds_look_bind (center_looks hslot) fun _ _ => succeeds_get_bind fun _ hw => ⟨(), _, rfl, hw⟩

omit hslot in
theorem animator_succeeds (slot : Nat) : Succeeds (World.OfSize n) (animator slot p env) :=
  succeeds_pure _

end Succeeding

/-! ## Components that use scratch bytes -/

section Failing

variable (p : Properties) (env : Surroundings)

/-- The path that a `PathFollower` is on has points. -/
def HasPath (p : Properties) (env : Surroundings) : Prop :=
  env.geometry.pathSize (Number.truncateWord64 (p.number "path" 0)) ≠ 0

/-- A `Spawner` knows what to make: its `entity` property is not blank and names a type. -/
def KnowsEntity (p : Properties) (env : Surroundings) : Prop :=
  ∃ name type, p.text? "entity" = some name ∧ env.script.typeId? name = some type

include hslot

theorem lifetime_failsIff :
    FailsIff (World.OfSize n) (env.scratch.Refused 0 1) (lifetime slot p env) := by
  refine failsIff_bind (scratch_failsIff hslot .int8) fun hscratch _ => ?_
  have hcount := setScratch_succeeds hslot .int8 hscratch
  have hend := setActive_succeeds hslot false
  refine succeeds_ite (succeeds_ite hend (hcount _)) ?_
  exact succeeds_bind (hcount _) fun _ => succeeds_ite hend (succeeds_pure _)

theorem platformController_failsIff :
    FailsIff (World.OfSize n) (env.scratch.Refused 0 1) (platformController slot p env) := by
  refine failsIff_look_bind (center_looks hslot) fun _ _ => ?_
  refine failsIff_bind (setScratch_failsIff hslot .int8 _) fun _ _ => ?_
  exact succeeds_look_bind (velocity_looks hslot) fun _ _ => setVelocity_succeeds hslot _ _

theorem interactable_failsIff :
    FailsIff (World.OfSize n) (env.scratch.Refused 0 1) (interactable slot p env) := by
  refine failsIff_look_bind (center_looks hslot) fun _ _ => failsIff_ite ?_ ?_
  · refine failsIff_look_bind (others_looks slot p env) fun l hl => ?_
    refine failsIff_look_bind (anyPosition_looks _ hl) fun _ _ => ?_
    exact setScratch_failsIff hslot .int8 _
  · exact setScratch_failsIff hslot .int8 _

theorem areaTrigger_failsIff :
    FailsIff (World.OfSize n) (env.scratch.Refused 0 1) (areaTrigger slot p env) := by
  refine failsIff_look_bind (center_looks hslot) fun _ _ => ?_
  refine failsIff_look_bind (others_looks slot p env) fun l hl => ?_
  exact failsIff_look_bind (anyPosition_looks _ hl) fun _ _ => setScratch_failsIff hslot .int8 _

theorem patrol_failsIff :
    FailsIff (World.OfSize n) (env.scratch.Refused 0 1) (patrol slot p env) := by
  refine failsIff_bind (scratch_failsIff hslot .int8) fun hscratch _ => ?_
  refine succeeds_look_bind (center_looks hslot) fun _ _ => ?_
  refine succeeds_bind (setScratch_succeeds hslot .int8 hscratch _) fun _ => ?_
  exact succeeds_look_bind (velocity_looks hslot) fun _ _ => setVelocity_succeeds hslot _ _

/-- Without a path nothing is read and nothing is missing. -/
theorem pathFollower_failsIff :
    FailsIff (World.OfSize n) (HasPath p env ∧ env.scratch.Refused 0 2)
      (pathFollower slot p env) := by
  by_cases hpath : HasPath p env
  · refine FailsIff.congr ?_ (and_iff_right hpath)
    unfold pathFollower
    rw [if_neg hpath]
    refine failsIff_bind (scratch_failsIff hslot .int16) fun hscratch stored => ?_
    have hprogress := setScratch_succeeds hslot .int16 hscratch
    dsimp only
    split
    · exact succeeds_bind (setPosition_succeeds hslot _ _) fun _ => hprogress _
    · exact hprogress _
  · unfold pathFollower
    rw [if_pos (not_not.mp hpath)]
    exact (succeeds_pure _).failsIff fun h => hpath h.1

theorem spawner_failsIff : FailsIff (World.OfSize n)
    (env.scratch.Refused 0 1 ∨ ¬ KnowsEntity p env) (spawner slot p env) := by
  unfold spawner
  split
  · rename_i hnone
    refine failsIff_throw (.inr ?_) _
    rintro ⟨name, type, hname, -⟩
    exact absurd (hnone.symm.trans hname) nofun
  · rename_i name hname
    split
    · rename_i hnone
      refine failsIff_throw (.inr ?_) _
      rintro ⟨name', type, hname', htype⟩
      obtain rfl := Option.some.inj (hname.symm.trans hname')
      exact absurd (hnone.symm.trans htype) nofun
    · rename_i type htype
      refine FailsIff.congr ?_ (or_iff_left (not_not.mpr ⟨name, type, hname, htype⟩))
      refine failsIff_bind (scratch_failsIff hslot .int8) fun hscratch _ => ?_
      have hcount := setScratch_succeeds hslot .int8 hscratch
      refine succeeds_ite ?_ (hcount _)
      refine succeeds_look_bind (position_looks hslot) fun _ _ => ?_
      exact succeeds_bind (Tick.succeeds_edit (Edit.spawn_succeeds _ _ _ _)) fun _ => hcount _

end Failing

/-- The number of scratch bytes that a built-in component comes to. -/
def UsesScratch (id : String) (p : Properties) (env : Surroundings) (width : Nat) : Prop :=
  (id ∈ ["Lifetime", "PlatformController", "Interactable", "AreaTrigger", "Patrol", "Spawner"] ∧
    width = 1) ∨
  (id = "PathFollower" ∧ HasPath p env ∧ width = 2)

/-- What a built-in component needs and does not have: scratch bytes, when `missing` tells which
numbers of them are missing, and an entity to make. -/
def Unmet (missing : Nat → Prop) (id : String) (p : Properties) (env : Surroundings) : Prop :=
  (∃ width, UsesScratch id p env width ∧ missing width) ∨ (id = "Spawner" ∧ ¬ KnowsEntity p env)

/-- A built-in component fails if it needs something that it does not have, and else succeeds. -/
theorem builtins_failsIff {id : String} {component : Component}
    (h : Registry.builtins.get? id = some component) (hslot : slot ∈ slotAddresses n)
    (p : Properties) (env : Surroundings) :
    FailsIff (World.OfSize n) (Unmet (env.scratch.Refused 0) id p env)
      (component.tick slot p env) := by
  have always : ∀ {x : Tick Unit}, Succeeds (World.OfSize n) x →
      ¬ Unmet (env.scratch.Refused 0) id p env →
      FailsIff (World.OfSize n) (Unmet (env.scratch.Refused 0) id p env) x := fun hx => hx.failsIff
  -- one case for each entry of the registry, in its order
  have hmem := Dictionary.mem_of_get?_ofList h
  simp only [Component.builtins, List.mem_cons, Prod.mk.injEq, List.not_mem_nil, or_false] at hmem
  rcases hmem with ⟨rfl, rfl⟩ | ⟨rfl, rfl⟩ | ⟨rfl, rfl⟩ | ⟨rfl, rfl⟩ | ⟨rfl, rfl⟩ | ⟨rfl, rfl⟩ |
    ⟨rfl, rfl⟩ | ⟨rfl, rfl⟩ | ⟨rfl, rfl⟩ | ⟨rfl, rfl⟩ | ⟨rfl, rfl⟩ | ⟨rfl, rfl⟩ | ⟨rfl, rfl⟩ |
    ⟨rfl, rfl⟩ | ⟨rfl, rfl⟩ | ⟨rfl, rfl⟩ | ⟨rfl, rfl⟩ | ⟨rfl, rfl⟩ | ⟨rfl, rfl⟩
  · exact always (gravity_succeeds hslot p env) (by simp [Unmet, UsesScratch])
  · exact always (kinematic_succeeds hslot p env) (by simp [Unmet, UsesScratch])
  · exact always (collider_succeeds hslot p env) (by simp [Unmet, UsesScratch])
  · exact always (friction_succeeds hslot p env) (by simp [Unmet, UsesScratch])
  · exact always (playerController_succeeds hslot p env) (by simp [Unmet, UsesScratch])
  · exact always (health_succeeds hslot p env) (by simp [Unmet, UsesScratch])
  · exact (lifetime_failsIff hslot p env).congr (by simp [Unmet, UsesScratch])
  · exact always (hitbox_succeeds hslot p env) (by simp [Unmet, UsesScratch])
  · exact (platformController_failsIff hslot p env).congr (by simp [Unmet, UsesScratch])
  · exact always (screenShake_succeeds hslot p env) (by simp [Unmet, UsesScratch])
  · exact always (camera_succeeds hslot p env) (by simp [Unmet, UsesScratch])
  · exact (interactable_failsIff hslot p env).congr (by simp [Unmet, UsesScratch])
  · exact (areaTrigger_failsIff hslot p env).congr (by simp [Unmet, UsesScratch])
  · exact always (animator_succeeds p env slot) (by simp [Unmet, UsesScratch])
  · exact (pathFollower_failsIff hslot p env).congr (by simp [Unmet, UsesScratch])
  · exact (patrol_failsIff hslot p env).congr (by simp [Unmet, UsesScratch])
  · exact always (chase_succeeds hslot p env) (by simp [Unmet, UsesScratch])
  · exact always (bounds_succeeds hslot p env) (by simp [Unmet, UsesScratch])
  · exact (spawner_failsIff hslot p env).congr (by simp [Unmet, UsesScratch])

section Missing

variable {id : String} {p : Properties} {env : Surroundings} {width : Nat}

theorem UsesScratch.le (h : UsesScratch id p env width) : width ≤ 3 := by
  rcases h with ⟨-, rfl⟩ | ⟨-, -, rfl⟩ <;> decide

theorem UsesScratch.unique {width' : Nat} (h : UsesScratch id p env width)
    (h' : UsesScratch id p env width') : width = width' := by
  have hother : "PathFollower" ∉
      ["Lifetime", "PlatformController", "Interactable", "AreaTrigger", "Patrol", "Spawner"] := by
    decide
  rcases h with ⟨hid, rfl⟩ | ⟨hid, -, rfl⟩ <;> rcases h' with ⟨hid', rfl⟩ | ⟨hid', -, rfl⟩
  · rfl
  · exact absurd (hid' ▸ hid) hother
  · exact absurd (hid ▸ hid') hother
  · rfl

/-- A component comes to scratch bytes that are missing but not refused. -/
def Strays (id : String) (p : Properties) (env : Surroundings) : Prop :=
  ∃ width, UsesScratch id p env width ∧ width ≤ env.scratch.size ∧
    2 ^ 64 ≤ env.scratch.start + width ∧ (id = "Spawner" → KnowsEntity p env)

/-- What is missing is refused, unless the component comes to bytes that are not. -/
theorem unmet_refused_iff (hstart : env.scratch.start < 2 ^ 64) :
    (Unmet (env.scratch.Refused 0) id p env ↔ Unmet env.scratch.Lacks id p env) ↔
      ¬ Strays id p env := by
  constructor
  · rintro hsame ⟨width, hneeds, hsize, hover, hknows⟩
    have hlacks := (Scratch.lacks_iff hneeds.le hstart).mpr (.inr ⟨hsize, hover⟩)
    rcases hsame.mpr (.inl ⟨width, hneeds, hlacks⟩) with
      ⟨width', hneeds', hrefused⟩ | ⟨hid, hunknown⟩
    · obtain rfl := hneeds.unique hneeds'
      exact Scratch.not_refused_of_over hneeds.le hstart ⟨hsize, hover⟩ hrefused
    · exact hunknown (hknows hid)
  · intro hstays
    refine or_congr_left' fun hentity => exists_congr fun width => and_congr_right fun hneeds => ?_
    rw [Scratch.lacks_iff hneeds.le hstart, iff_self_or]
    intro hover
    exact absurd ⟨width, hneeds, hover.1, hover.2, fun hid => not_not.mp fun h => hentity ⟨hid, h⟩⟩
      hstays

end Missing

end Component

end Slots

/-- What a component sees that has the given scratch bytes, and no script. -/
def bareSurroundings (scratch : Scratch) : Surroundings :=
  ⟨Held.nothing, Geometry.empty, Script.empty, scratch⟩

end PixelScene
