import PixelScene.Proofs.Simulation.WriteSet

/-!
# Who takes a turn

In a tick the slots are asked one after the other, and a slot whose entity is active and has a type
takes a turn. The turns of a tick are listed with the world and the report that each of them begins
with.

* `Simulation.Takes`: some turns lead from one world and report to others.
* `Simulation.takes_turns`: the turns of a tick lead from what its events leave to its end.
* `Simulation.ticked_tick`: the report of a tick counts its turns.
* `Simulation.turns_ascending`: no slot takes two turns in a tick.

The loop over the slots is one fold (`run_entities`), in which a slot that has no turn does nothing.
A list of turns makes the induction one over turns, and lets a statement speak of a turn with the
world in which it begins. The type of a turn is the one that the slot has when the loop comes to it.
-/

namespace PixelScene

/-- A turn of an entity: its slot, its type, and the world and the report that it begins with. -/
structure Turn where
  slot : Nat
  type : EntityType
  start : World × Report

namespace Turn

variable (turn : Turn) (s : Simulation)

/-- The state that the entity is in when its turn begins. -/
def state : Option StateRule := s.stateOf turn.type turn.start.1.memory turn.slot

/-- The components that run in the turn. -/
def components : Table Properties := turn.type.entity.componentsIn (turn.state s)

/-- The visual of the turn: that of the state, else that of the entity. -/
def visual : Option String := ((turn.state s).bind StateRule.visual).or turn.type.entity.visual

/-- What the turn leaves. -/
def finish (held : Held) (geometry : Geometry) : World × Report :=
  s.runEntity turn.type (held.consult turn.type.bindings) geometry turn.slot turn.start

end Turn

namespace Simulation

variable (s : Simulation) (held : Held) (geometry : Geometry)

/-- The turns of some slots, each of them asked in the world that those before it leave. -/
def turnsAlong : List Nat → World × Report → List Turn
  | [], _ => []
  | slot :: more, wr =>
    match s.typeAt? wr.1.memory slot with
    | some t => ⟨slot, t, wr⟩ :: turnsAlong more (s.runSlot held geometry wr slot)
    | none => turnsAlong more wr

/-- The turns of a tick. -/
def turns (w : World) : List Turn :=
  let wr := s.runEvents held w
  s.turnsAlong held geometry (slotAddresses wr.1.memory.size) wr

/-- Some turns lead from one world and report to others, each from what the one before it leaves. -/
inductive Takes : World × Report → List Turn → World × Report → Prop where
  | nil (wr : World × Report) : Takes wr [] wr
  | cons (turn : Turn) {more : List Turn} {wr : World × Report}
    (htype : s.typeAt? turn.start.1.memory turn.slot = some turn.type)
    (hmore : Takes (turn.finish s held geometry) more wr) : Takes turn.start (turn :: more) wr

variable {s held geometry}

theorem runSlot_of_typeAt? {t : EntityType} {slot : Nat} {wr : World × Report}
    (h : s.typeAt? wr.1.memory slot = some t) :
    s.runSlot held geometry wr slot = Turn.finish ⟨slot, t, wr⟩ s held geometry := by
  unfold runSlot
  rw [h]
  rfl

theorem runSlot_of_typeAt?_eq_none {slot : Nat} {wr : World × Report}
    (h : s.typeAt? wr.1.memory slot = none) : s.runSlot held geometry wr slot = wr := by
  unfold runSlot
  rw [h]

theorem takes_turnsAlong (slots : List Nat) (wr : World × Report) :
    s.Takes held geometry wr (s.turnsAlong held geometry slots wr)
      (slots.foldl (s.runSlot held geometry) wr) := by
  induction slots generalizing wr with
  | nil => exact .nil wr
  | cons slot slots ih =>
    rw [List.foldl_cons, turnsAlong]
    split
    · rename_i t ht
      rw [runSlot_of_typeAt? ht]
      exact .cons ⟨slot, t, wr⟩ ht (ih _)
    · rename_i hnone
      rw [runSlot_of_typeAt?_eq_none hnone]
      exact ih wr

/-- The turns of a tick lead from what its events leave to what its entities leave. -/
theorem takes_turns (w : World) : s.Takes held geometry (s.runEvents held w)
    (s.turns held geometry w) (s.runEntities held geometry (s.runEvents held w)) :=
  takes_turnsAlong _ _

theorem Takes.typeAt?_of_mem {wr wr' : World × Report} {turns : List Turn}
    (h : s.Takes held geometry wr turns wr') :
    ∀ turn ∈ turns, s.typeAt? turn.start.1.memory turn.slot = some turn.type := by
  induction h with
  | nil => exact nofun
  | cons turn htype _ ih =>
    intro other hother
    rcases List.mem_cons.mp hother with rfl | hmore
    · exact htype
    · exact ih other hmore

/-- The type of a turn is one of those that are ready. -/
theorem type_mem_of_mem_turns {w : World} {turn : Turn} (h : turn ∈ s.turns held geometry w) :
    turn.type ∈ s.types :=
  mem_types_of_typeAt? ((takes_turns w).typeAt?_of_mem turn h)

/-! ## Slots -/

theorem slots_turnsAlong (slots : List Nat) (wr : World × Report) :
    ((s.turnsAlong held geometry slots wr).map Turn.slot).Sublist slots := by
  induction slots generalizing wr with
  | nil => exact List.Sublist.refl []
  | cons slot slots ih =>
    rw [turnsAlong]
    split
    · exact (ih _).cons_cons slot
    · exact (ih _).cons slot

theorem slotAddresses_ascending (size : Nat) : (slotAddresses size).Pairwise (· < ·) := by
  refine List.pairwise_map.mpr (List.pairwise_lt_range.imp fun h => ?_)
  simp only [slotAddress, slotBytes]
  omega

/-- The turns go through the slots in ascending order. -/
theorem turns_ascending (w : World) :
    ((s.turns held geometry w).map Turn.slot).Pairwise (· < ·) :=
  (slotAddresses_ascending _).sublist (slots_turnsAlong _ _)

/-- A turn is taken by a slot that fits into the memory which the events leave. -/
theorem slot_mem_of_mem_turns {w : World} {turn : Turn} (h : turn ∈ s.turns held geometry w) :
    turn.slot ∈ slotAddresses (s.runEvents held w).1.memory.size :=
  (slots_turnsAlong _ _).subset (List.mem_map_of_mem h)

/-! ## Reports -/

section Reports

variable {α : Type} {f : Report → α} (hwarn : ∀ r warning, f (r.warn warning) = f r)

include hwarn

theorem showSprite_fixed (slot number : Nat) (wr : World × Report) :
    f (showSprite slot number wr).2 = f wr.2 := by
  unfold showSprite
  dsimp only
  split
  · rfl
  · exact hwarn _ _

theorem runAction_fixed (wr : World × Report) (a : Assignment) :
    f (s.runAction wr a).2 = f wr.2 := by
  unfold runAction
  dsimp only
  split
  · rfl
  · exact hwarn _ _

/-- Events count themselves and note warnings, and do nothing else to a report. -/
theorem runEvents_fixed (hfired : ∀ r n, f { r with fired := n } = f r) (w : World) :
    f (s.runEvents held w).2 = f Report.empty := by
  have hevent : ∀ (held : Held) (wr : World × Report) (e : Event),
      f wr.2 = f (s.runEvent held wr e).2 := by
    intro held wr e
    unfold runEvent
    dsimp only
    split
    · exact (hfired wr.2 _).symm.trans (foldl_keeps (R := (· = ·))
        (f := fun wr : World × Report => f wr.2) (fun wr a _ => (runAction_fixed hwarn wr a).symm)
        (wr.1, { wr.2 with fired := wr.2.fired + 1 }))
    · rfl
  exact (foldl_keeps (R := (· = ·)) (f := fun wr : World × Report => f wr.2)
    (fun wr e _ => hevent _ wr e) (w, Report.empty)).symm

end Reports

/-! ## Counting turns -/

theorem ticked_runComponent (t : EntityType) (slot : Nat) (wr : World × Report)
    (c : String × Properties) :
    (s.runComponent t held geometry slot wr c).2.ticked = wr.2.ticked := by
  unfold runComponent
  dsimp only
  split
  · rfl
  · split <;> rfl

theorem ticked_finish (turn : Turn) :
    (turn.finish s held geometry).2.ticked = turn.start.2.ticked + 1 := by
  have hcomponents : ∀ (held : Held) (l : List (String × Properties)) (wr : World × Report),
      (l.foldl (s.runComponent turn.type held geometry turn.slot) wr).2.ticked = wr.2.ticked :=
    fun held l wr => (foldl_keeps (R := (· = ·)) (f := fun wr : World × Report => wr.2.ticked)
      (fun wr c _ => (ticked_runComponent _ _ wr c).symm) wr).symm
  unfold Turn.finish runEntity
  dsimp only
  rw [showSprite_fixed (f := Report.ticked) fun _ _ => rfl, hcomponents]

theorem Takes.ticked {wr wr' : World × Report} {turns : List Turn}
    (h : s.Takes held geometry wr turns wr') : wr'.2.ticked = wr.2.ticked + turns.length := by
  induction h with
  | nil => rfl
  | cons turn _ _ ih => rw [ih, ticked_finish, List.length_cons, Nat.add_assoc, Nat.add_comm 1]

/-- The report of a tick counts its turns. -/
theorem ticked_tick (w : World) :
    (s.tick held geometry w).2.ticked = (s.turns held geometry w).length := by
  have hevents : (s.runEvents held w).2.ticked = 0 :=
    runEvents_fixed (f := Report.ticked) (fun _ _ => rfl) (fun _ _ => rfl) w
  have hturns : (s.tick held geometry w).2.ticked =
      (s.runEvents held w).2.ticked + (s.turns held geometry w).length := (takes_turns w).ticked
  rw [hturns, hevents, Nat.zero_add]

end Simulation

end PixelScene
