import PixelScene.Proofs.Script.Numbering
import PixelScene.Proofs.Simulation.Spawning
import PixelScene.Proofs.Simulation.Turns

/-!
# Placing the entities that are there from the start

The search for a free slot begins anew for each placement, but it never finds anything new: a fresh
entity takes the first of the free slots and leaves the others as they are. So the placements whose
entity has a type go into the free slots in order, until one of the two lists is used up.

* `Memory.freeSlots`: the free slots, ascending.
* `Memory.freeSlots_fresh`: a fresh entity takes the first of them.
* `Script.placeable`: the placements whose entity has a type.
* `Simulation.Fills`: what placing some entities does to a world.
* `Simulation.spawnPlacements_fills`: this is what the placements of a script do to any world.

The engine searches the pool anew for each placement (`spawn_instances`), stops at the first one
that finds no room, and says so. Placements of an entity without a type are passed over with a line
of their own. Nothing is asked of the world: its pool may be full, cut short, or hold anything.
-/

namespace PixelScene

open Memory (Within)

/-! ## Free slots -/

namespace Memory

variable {m : Memory} {slot : Nat} {rest : List Nat}

/-- The free slots that fit into a memory, ascending. -/
def freeSlots (m : Memory) : List Nat := (slotAddresses m.size).filter fun slot => m.byte slot = 0

theorem mem_freeSlots :
    slot ∈ m.freeSlots ↔ IsSlot slot ∧ slot + 16 ≤ m.size ∧ m.byte slot = 0 := by
  rw [freeSlots, List.mem_filter, mem_slotAddresses, decide_eq_true_eq, and_assoc]

theorem freeSlots_ascending (m : Memory) : m.freeSlots.Pairwise (· < ·) :=
  (Simulation.slotAddresses_ascending m.size).filter _

/-- The slot that is searched for is the first of the free slots. -/
theorem freeSlot?_eq_head? (m : Memory) : m.freeSlot? = m.freeSlots.head? := by
  rw [freeSlots, List.head?_filter, freeSlot?]
  refine List.find?_congr fun slot hslot => ?_
  obtain ⟨hpool, hfits⟩ := mem_slotAddresses.mp hslot
  rw [isActive_eq_ok hpool (by omega), Except.toOption, Option.getD_some, bne, Bool.not_not]
  rfl

/-- A fresh entity takes the first of the free slots, and the others stay free. -/
theorem freeSlots_fresh (h : m.freeSlots = slot :: rest) (typeId x y health : Int) :
    (Edit.fresh m slot typeId x y health).freeSlots = rest := by
  obtain ⟨hpool, hfits, -⟩ := mem_freeSlots.mp (h ▸ List.mem_cons_self : slot ∈ m.freeSlots)
  have hwithin : Within (slotCells slot) m (Edit.fresh m slot typeId x y health) :=
    Edit.within_fresh m typeId x y health
  have hascending : (slot :: rest).Pairwise (· < ·) := h ▸ m.freeSlots_ascending
  have htaken : slot ∉ rest := fun hmem =>
    Nat.lt_irrefl slot (List.rel_of_pairwise_cons hascending hmem)
  -- of the slots that were free before, all but this one are free now
  have hfilter : (Edit.fresh m slot typeId x y health).freeSlots =
      m.freeSlots.filter fun q => q ≠ slot := by
    rw [freeSlots, freeSlots, List.filter_filter, hwithin.size]
    refine List.filter_congr fun q hq => ?_
    by_cases heq : q = slot
    · subst heq
      rw [Edit.active_fresh (by omega)]
      simp
    · have hother := (mem_slotAddresses.mp hq).1.add_notMem_slotCells hpool heq 0 (by decide)
      rw [hwithin.byte q hother]
      simp [heq]
  rw [hfilter, h, List.filter_cons_of_neg (by simp)]
  exact List.filter_eq_self.mpr fun q hq => decide_eq_true fun heq => htaken (heq ▸ hq)

/-- Changes of free slots leave a taken one alone. -/
theorem slotContent_of_taken {m' : Memory} {count : Nat}
    (h : Within {i | ∃ q ∈ m.freeSlots.take count, i ∈ slotCells q} m m') (hslot : IsSlot slot)
    (htaken : m.byte slot ≠ 0) : m'.slotContent slot = m.slotContent slot := by
  refine slotContent_eq_of_within h ?_
  rintro i hi ⟨q, hq, hcell⟩
  obtain ⟨hpool, -, hzero⟩ := mem_freeSlots.mp (List.mem_of_mem_take hq)
  have hne : slot ≠ q := fun heq => htaken (heq ▸ hzero)
  exact hslot.add_notMem_slotCells hpool hne i hi hcell

end Memory

/-! ## Placements -/

/-- What stands at the place of a key is what is found under it. -/
theorem Table.exists_at?_of_position? {α : Type} {t : Table α} {key : String} {i : Nat}
    (h : t.position? key = some i) :
    ∃ value, t.at? i = some (key, value) ∧ t.get? key = some value := by
  obtain ⟨hi, hkey, hfirst⟩ := List.findIdx?_eq_some_iff_getElem.mp h
  have hkey : t.entries[i].1 = key := beq_iff_eq.mp hkey
  have hentry : t.entries[i] = (key, t.entries[i].2) := Prod.ext hkey rfl
  refine ⟨t.entries[i].2, (List.getElem?_eq_getElem hi).trans (congrArg some hentry),
    List.lookup_eq_some_iff.mpr ⟨t.entries.take i, t.entries.drop (i + 1), ?_, fun e he => ?_⟩⟩
  · rw [← hentry, List.getElem_cons_drop, List.take_append_drop]
  · obtain ⟨j, hj, rfl⟩ := List.mem_take_iff_getElem.mp he
    exact bne_iff_ne.mpr fun heq => hfirst j (by omega) (beq_iff_eq.mpr heq.symm)

namespace Script

variable {script : Script} {name : String} {type : Nat} {p : Placement} {more : List Placement}

/-- The placements whose entity has a type. -/
def placeable (script : Script) (placements : List Placement) : List Placement :=
  placements.filter fun p => (script.typeId? p.entity).isSome

/-- The entity of a type number is the one that is found under its name. -/
theorem exists_entity_of_typeId? (h : script.typeId? name = some type) :
    ∃ entity, script.entities.get? name = some entity ∧
      script.freshHealth type = entity.initialHealth := by
  obtain ⟨i, hposition, -, rfl⟩ := typeId?_eq_some_iff.mp h
  obtain ⟨entity, hat, hget⟩ := Table.exists_at?_of_position? hposition
  refine ⟨entity, hget, ?_⟩
  rw [freshHealth, entityOfType?_eq_some_iff.mpr ⟨Nat.succ_ne_zero i, hat⟩]

theorem placeable_cons_of_none (h : script.typeId? p.entity = none) :
    script.placeable (p :: more) = script.placeable more :=
  List.filter_cons_of_neg (by simp [h])

theorem placeable_cons_of_some (h : script.typeId? p.entity = some type) :
    script.placeable (p :: more) = p :: script.placeable more :=
  List.filter_cons_of_pos (by simp [h])

end Script

namespace Simulation

/--
What placing some entities does to a world. The first of the free slots and the first of the
placements whose entity has a type belong together, and so on as long as there are both.
-/
structure Fills (script : Script) (placements : List Placement) (w : World) (count : Nat)
    (w' : World) : Prop where
  count_eq : count = min w.memory.freeSlots.length (script.placeable placements).length
  filled : ∀ slot p, (slot, p) ∈ w.memory.freeSlots.zip (script.placeable placements) →
    ∃ type entity, script.typeId? p.entity = some type ∧
      script.entities.get? p.entity = some entity ∧
      w'.memory.slotContent slot = freshContent type p.x p.y entity.initialHealth
  others : Within {i | ∃ slot ∈ w.memory.freeSlots.take count, i ∈ slotCells slot} w.memory w'.memory
  world : w' = { w with memory := w'.memory }

variable {s : Simulation} {script : Script} {p : Placement} {more : List Placement} {w w' : World}

theorem fills_nothing {placements : List Placement}
    (h : w.memory.freeSlots = [] ∨ script.placeable placements = []) :
    Fills script placements w 0 w where
  count_eq := by rcases h with h | h <;> simp [h]
  filled slot p hp := by rcases h with h | h <;> simp [h] at hp
  others := .refl _ _
  world := rfl

/-- A placement whose entity has no type is skipped. -/
theorem Fills.cons_of_none {count : Nat} (h : Fills script more w count w')
    (htype : script.typeId? p.entity = none) : Fills script (p :: more) w count w' := by
  obtain ⟨hcount, hfilled, hothers, hworld⟩ := h
  rw [← Script.placeable_cons_of_none htype] at hcount hfilled
  exact ⟨hcount, hfilled, hothers, hworld⟩

/-- A placement fills the first of the free slots, and those after it fill the others. -/
theorem Fills.cons {slot type count : Nat} {rest : List Nat}
    (hfree : w.memory.freeSlots = slot :: rest) (htype : script.typeId? p.entity = some type)
    (h : Fills script more
      { w with memory := Edit.fresh w.memory slot type p.x p.y (script.freshHealth type) } count w') :
    Fills script (p :: more) w (count + 1) w' := by
  obtain ⟨hpool, hfits, -⟩ := Memory.mem_freeSlots.mp
    (hfree ▸ List.mem_cons_self : slot ∈ w.memory.freeSlots)
  obtain ⟨entity, hentity, hhealth⟩ := Script.exists_entity_of_typeId? htype
  obtain ⟨hcount, hfilled, hothers, hworld⟩ := h
  have hrest := Memory.freeSlots_fresh hfree type p.x p.y (script.freshHealth type)
  have hactive : (Edit.fresh w.memory slot type p.x p.y (script.freshHealth type)).byte slot ≠ 0 := by
    rw [Edit.active_fresh (by omega)]
    decide
  have hcontent := Memory.slotContent_of_taken hothers hpool hactive
  rw [hrest] at hcount hfilled hothers
  constructor
  · rw [hcount, hfree, Script.placeable_cons_of_some htype, List.length_cons, List.length_cons,
      Nat.add_min_add_right]
  · intro q p' hmem
    rw [hfree, Script.placeable_cons_of_some htype, List.zip_cons_cons, List.mem_cons] at hmem
    rcases hmem with heq | hmem
    · obtain ⟨rfl, rfl⟩ := Prod.mk.inj heq
      have htypeId := (Script.typeId?_mem htype).2.trans script.typeCount_le
      refine ⟨type, entity, htype, hentity, ?_⟩
      rw [hcontent, Edit.slotContent_fresh hfits htypeId, hhealth]
    · exact hfilled q p' hmem
  · rw [hfree, List.take_succ_cons]
    refine ((Edit.within_fresh w.memory type p.x p.y _).mono fun i hi => ?_).trans
      (hothers.mono fun i hi => ?_)
    · exact ⟨slot, List.mem_cons_self, hi⟩
    · obtain ⟨other, hother, hcell⟩ := hi
      exact ⟨other, List.mem_cons_of_mem slot hother, hcell⟩
  · rw [hworld]

/-! ## Runs of placements -/

/-- An entity that has no type is not put anywhere. -/
theorem spawn_of_unknown (h : s.script.typeId? p.entity = none) :
    s.spawn p.entity p.x p.y w = (.error (.unknownEntity p.entity), w) := by
  rw [spawn, h]

theorem spawn_of_full {type : Nat} (h : s.script.typeId? p.entity = some type)
    (hfree : w.memory.freeSlots = []) : s.spawn p.entity p.x p.y w = (.ok none, w) := by
  have hnone : w.memory.freeSlot? = none := by rw [Memory.freeSlot?_eq_head?, hfree, List.head?_nil]
  rw [spawn, h]
  dsimp only
  rw [Edit.spawn_of_full hnone]

theorem spawn_of_free {type slot : Nat} {rest : List Nat}
    (h : s.script.typeId? p.entity = some type) (hfree : w.memory.freeSlots = slot :: rest) :
    s.spawn p.entity p.x p.y w = (.ok (some slot),
      { w with memory := Edit.fresh w.memory slot type p.x p.y (s.script.freshHealth type) }) := by
  have hfirst : w.memory.freeSlot? = some slot := by
    rw [Memory.freeSlot?_eq_head?, hfree, List.head?_cons]
  rw [spawn, h]
  dsimp only
  rw [Edit.spawn_of_free hfirst]

/-- No access of a spawn is refused. -/
theorem spawn_ne_access (s : Simulation) (p : Placement) (w : World) (e : AccessError) :
    (s.spawn p.entity p.x p.y w).1 ≠ .error (.access e) := by
  cases htype : s.script.typeId? p.entity with
  | none =>
    rw [spawn_of_unknown htype]
    exact nofun
  | some type =>
    cases hfree : w.memory.freeSlots with
    | nil =>
      rw [spawn_of_full htype hfree]
      exact nofun
    | cons slot rest =>
      rw [spawn_of_free htype hfree]
      exact nofun

theorem spawnAll_fills (placements : List Placement) (w : World) :
    Fills s.script placements w (s.spawnAll placements w).1 (s.spawnAll placements w).2.2 := by
  induction placements generalizing w with
  | nil => exact fills_nothing (.inr rfl)
  | cons p more ih =>
    rw [spawnAll]
    cases htype : s.script.typeId? p.entity with
    | none =>
      rw [spawn_of_unknown htype]
      exact (ih w).cons_of_none htype
    | some type =>
      cases hfree : w.memory.freeSlots with
      | nil =>
        rw [spawn_of_full htype hfree]
        exact fills_nothing (.inl hfree)
      | cons slot rest =>
        rw [spawn_of_free htype hfree]
        exact (ih _).cons hfree htype

/--
**Placements fill the free slots in order.** Whatever the script and the world are, as many entities
are placed as there are free slots and placements with a type, whichever are fewer. Each of these
free slots then holds exactly the fresh entity of its placement, and every other byte is as it was.
No access of a spawn is refused, whatever is spawned.
-/
theorem spawnPlacements_fills (s : Simulation) (w : World) :
    w.memory.freeSlots.Pairwise (· < ·) ∧
    Fills s.script s.script.placements w (s.spawnPlacements w).1 (s.spawnPlacements w).2.2 ∧
    ∀ entity x y w e, (s.spawn entity x y w).1 ≠ .error (.access e) :=
  ⟨w.memory.freeSlots_ascending, spawnAll_fills s.script.placements w,
    fun entity x y => s.spawn_ne_access ⟨entity, x, y⟩⟩

end Simulation

end PixelScene
