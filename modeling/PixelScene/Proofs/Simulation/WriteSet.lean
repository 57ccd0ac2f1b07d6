import PixelScene.Proofs.Simulation.Pass

/-!
# What a tick writes

The actions of the events that fire write to their variables, and the entities write to the slots;
the shake of the camera is written if a type attaches `ScreenShake`. Nothing else in the memory
changes.

* `Simulation.fired`: the events of a tick that fire, each asked in the world that the events before
  it leave.
* `Simulation.fired_foldl_runEvent`: the report of a tick counts them.
* `Simulation.tick_within`: every byte that a tick changes is one of these.

The bytes are a set that is known before the tick but for which events fire; `Simulation.fired` says
it of the tick itself, and the report counts the same events. The bytes of slots are those of the
whole pool, since components reach other slots. The registry is that of the engine; a component of a
host may write anywhere.
-/

namespace PixelScene

open Memory (Within)

/-! ## Actions -/

/-- The bytes of a variable. -/
def Variable.cells (v : Variable) : Set Nat := Set.Ico v.address (v.address + v.storage.width)

namespace Assignment

/-- The bytes of the variable that an action assigns, none when it is not declared. -/
def cells (a : Assignment) (globals : Table Variable) : Set Nat :=
  {i | ∃ v, globals.get? a.target = some v ∧ i ∈ v.cells}

theorem apply_within (a : Assignment) (globals : Table Variable) :
    Keeps (Within (a.cells globals)) (a.apply globals) := by
  unfold apply
  cases h : globals.get? a.target with
  | none => exact keeps_pure _
  | some v =>
    have hstore : ∀ x, Keeps (Within (a.cells globals))
        (Edit.storeNumber v.storage v.address x) := fun x =>
      (Edit.storeInt_within v.storage v.address _).mono fun _ _ =>
        Within.mono fun i hi => ⟨v, h, hi⟩
    have hwrite : ∀ old, Keeps (Within (a.cells globals))
        (do
          Edit.storeNumber v.storage v.address old
          return true : Edit Bool) :=
      fun old => keeps_bind (hstore old) fun _ => keeps_pure _
    refine keeps_get_bind fun m => ?_
    dsimp only
    split
    · exact keeps_bind (keeps_pure _) (fun _ => hwrite _) m
    · exact keeps_bind (Edit.keeps_read _) (fun _ => hwrite _) m

end Assignment

namespace Simulation

variable (s : Simulation) (held : Held)

theorem memory_runAction (wr : World × Report) (a : Assignment) :
    (s.runAction wr a).1.memory = leaves (a.apply s.script.globals) wr.1.memory := by
  unfold runAction leaves
  dsimp only
  cases a.apply s.script.globals wr.1.memory <;> rfl

theorem runAction_within (wr : World × Report) (a : Assignment) :
    Within (a.cells s.script.globals) wr.1.memory (s.runAction wr a).1.memory := by
  rw [memory_runAction]
  exact a.apply_within s.script.globals wr.1.memory

/-! ## Events -/

/-- Those of some events that fire, when each is asked in the world that those before it leave. -/
def firedAmong : List Event → World × Report → List Event
  | [], _ => []
  | e :: more, wr =>
    if e.trigger.fires wr.1.memory wr.1.width held s.script.globals then
      e :: firedAmong more (s.runEvent held wr e)
    else firedAmong more (s.runEvent held wr e)

/-- The events that fire in a tick. -/
def fired (w : World) : List Event :=
  s.firedAmong (held.consult s.bindings) s.events (w, Report.empty)

/-- The bytes of the variables that the actions of some events assign. -/
def assignedCells (events : List Event) : Set Nat :=
  {i | ∃ e ∈ events, ∃ a ∈ e.actions, i ∈ a.cells s.script.globals}

variable {s held}

theorem runEvent_of_fires {wr : World × Report} {e : Event}
    (h : e.trigger.fires wr.1.memory wr.1.width held s.script.globals = true) :
    s.runEvent held wr e =
      e.actions.foldl s.runAction (wr.1, { wr.2 with fired := wr.2.fired + 1 }) := if_pos h

theorem runEvent_of_not_fires {wr : World × Report} {e : Event}
    (h : ¬ e.trigger.fires wr.1.memory wr.1.width held s.script.globals = true) :
    s.runEvent held wr e = wr := if_neg h

theorem fired_runAction (wr : World × Report) (a : Assignment) :
    (s.runAction wr a).2.fired = wr.2.fired := by
  unfold runAction
  dsimp only
  split <;> rfl

/-- An event keeps what its actions keep. -/
theorem runEvent_keeps {R : Memory → Memory → Prop} [IsPreorder Memory R] {e : Event}
    (h : ∀ wr, ∀ a ∈ e.actions, R wr.1.memory (s.runAction wr a).1.memory) (wr : World × Report) :
    R wr.1.memory (s.runEvent held wr e).1.memory := by
  unfold runEvent
  dsimp only
  split
  · exact foldl_memory_keeps h (wr.1, { wr.2 with fired := wr.2.fired + 1 })
  · exact Std.Refl.refl wr.1.memory

/-- The report counts the events that fire. So `fired` is no notion of this file alone: a host that
reads the report of a tick reads its length there. -/
theorem fired_foldl_runEvent (events : List Event) (wr : World × Report) :
    (events.foldl (s.runEvent held) wr).2.fired =
      wr.2.fired + (s.firedAmong held events wr).length := by
  have hactions : ∀ (actions : List Assignment) (wr : World × Report),
      (actions.foldl s.runAction wr).2.fired = wr.2.fired := fun actions wr =>
    (foldl_keeps (R := (· = ·)) (fun wr a _ => (fired_runAction wr a).symm) wr).symm
  induction events generalizing wr with
  | nil => rfl
  | cons e events ih =>
    rw [List.foldl_cons, ih, firedAmong]
    split
    · rename_i h
      rw [runEvent_of_fires h, hactions, List.length_cons, Nat.add_right_comm, Nat.add_assoc]
    · rename_i h
      rw [runEvent_of_not_fires h]

/-- Events write to the variables that the actions of those that fire assign. -/
theorem foldl_runEvent_within (events : List Event) (wr : World × Report) :
    Within (s.assignedCells (s.firedAmong held events wr)) wr.1.memory
      (events.foldl (s.runEvent held) wr).1.memory := by
  induction events generalizing wr with
  | nil => exact .refl _ _
  | cons e events ih =>
    rw [List.foldl_cons, firedAmong]
    split
    · have hactions : Within (s.assignedCells [e]) wr.1.memory (s.runEvent held wr e).1.memory := by
        refine runEvent_keeps (fun wr a ha => (s.runAction_within wr a).mono fun i hi => ?_) wr
        exact ⟨e, List.mem_singleton.mpr rfl, a, ha, hi⟩
      -- the hypothesis is for the world that `e` leaves, in which the later events are asked
      refine (hactions.mono ?_).trans ((ih _).mono ?_)
      · rintro i ⟨e', he', hi⟩
        exact ⟨e', List.mem_cons.mpr (.inl (List.mem_singleton.mp he')), hi⟩
      · rintro i ⟨e', he', hi⟩
        exact ⟨e', List.mem_cons_of_mem _ he', hi⟩
    · rename_i h
      rw [runEvent_of_not_fires h]
      exact ih wr

/-! ## Ticks -/

/-- The bytes of the shake of the camera, if a type attaches `ScreenShake`. -/
def shakenCells (s : Simulation) : Set Nat :=
  {i | i ∈ Edit.shakeCells ∧ ∃ t ∈ s.types, "ScreenShake" ∈ t.entity.allComponents.keys}

/-- Entities write to the slots, and to the shake of the camera. -/
theorem runEntities_within (hregistry : s.registry = Registry.builtins) (geometry : Geometry)
    (wr : World × Report) : Within (poolCells ∪ s.shakenCells) wr.1.memory
      (s.runEntities held geometry wr).1.memory := by
  have hpool : ∀ {m m'}, Within poolCells m m' → Within (poolCells ∪ s.shakenCells) m m' :=
    Within.mono Set.subset_union_left
  refine foldl_memory_keeps (fun wr slot _ => ?_) wr
  refine runSlot_keeps hregistry wr fun t ht => ?_
  refine { data := ?_, shaking := ?_, ending := ?_, spawning := ?_ }
  · exact fun m m' h => hpool (h.mono poolData_subset_poolCells)
  · intro hshake m m' h
    exact h.mono fun i hi => .inr ⟨hi, t, mem_types_of_typeAt? ht, hshake⟩
  · intro _
    refine (Edit.setField_within slot .active _).mono fun m m' h => hpool (h.mono ?_)
    rintro i ⟨hslot, hi⟩
    exact hslot.slotCells_subset ⟨hi.1, hi.2.trans_le (Nat.add_le_add_left (by decide) slot)⟩
  · exact fun _ name type _ x y => (Edit.spawn_within _ _ _ _).mono fun _ _ => hpool

/--
Every byte that a tick changes belongs to a variable that an action of an event that fires assigns,
or to a slot, or to the shake of the camera, and to this only if a type attaches `ScreenShake`. The
turns of the entities change no variable, and nothing before the shake or behind the slots.
-/
theorem tick_within (script : Script) (hosts : List KeyBindings) (held : Held) (geometry : Geometry)
    (w : World) :
    let s := ofBuiltins script hosts
    Within (s.assignedCells (s.fired held w) ∪ poolCells ∪ s.shakenCells) w.memory
        (s.tick held geometry w).1.memory ∧
      ∀ wr : World × Report,
        Within (poolCells ∪ s.shakenCells) wr.1.memory
          (s.runEntities held geometry wr).1.memory ∧
        ∀ i, i < shakeX ∨ Region.entityPool.stop ≤ i →
          (s.runEntities held geometry wr).1.memory.byte i = wr.1.memory.byte i := by
  intro s
  have hentities : ∀ wr : World × Report, Within (poolCells ∪ s.shakenCells) wr.1.memory
      (s.runEntities held geometry wr).1.memory :=
    runEntities_within (ofBuiltins_registry script hosts) geometry
  have hevents : Within (s.assignedCells (s.fired held w)) w.memory (s.runEvents held w).1.memory :=
    foldl_runEvent_within s.events (w, Report.empty)
  refine ⟨?_, fun wr => ⟨hentities wr, fun i hi => (hentities wr).byte i ?_⟩⟩
  · rw [Set.union_assoc]
    exact (hevents.mono Set.subset_union_left).trans
      ((hentities _).mono Set.subset_union_right)
  · have hstart : Region.entityPool.start = 512 := rfl
    have hstop : Region.entityPool.stop = 12288 := rfl
    have hshake : shakeX = 508 := rfl
    rintro (⟨hlow, hhigh⟩ | ⟨⟨hlow, hhigh⟩, -⟩) <;> omega

end Simulation

end PixelScene
