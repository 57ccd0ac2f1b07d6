import PixelScene.Proofs.Memory.Cell
import PixelScene.Proofs.Scenario.Recording
import PixelScene.Proofs.Simulation.Turns
import PixelScene.Proofs.Simulation.WriteSet
import PixelScene.Scenario.Run

/-!
# What a run leaves behind

A run begins at tick zero and counts one tick for every step, since no component and no event sets
the clock. What is recorded of it has therefore numbers of steps below the number of steps of the
scenario; the other numbers come out of cells and slots, whose types bound them.

* `Memory.field_mem`, `Memory.scratch_mem`: the integers that are read from slots.
* `Simulation.ticks_tick`: a tick is counted once.
* `Scenario.recordResolved_fits`: the recording of a run can be kept.

A recording counts steps, events, entities and ticks in machine words. The number of steps is read
from the scenario within that bound, the number of entities is that of the slots, and only the
number of events has no bound in a script, so it is assumed to be one of a word where it matters.
The runs are those of any generator.
-/

namespace PixelScene

open Memory (Within)

/-! ## Fields -/

namespace Memory

variable {m : Memory}

theorem field_mem {slot : Nat} {f : SlotField} {n : Int} (h : m.field slot f = .ok n) :
    f.storage.least ≤ n ∧ n ≤ f.storage.greatest := by
  obtain ⟨_, _, hfetch⟩ := bind_eq_ok_iff.mp h
  exact fetchInt_mem hfetch

theorem scratch_mem {slot : Nat} {s : Scratch} {t : Storage} {index : Nat} {n : Int}
    (h : m.scratch slot s t index = .ok n) : t.least ≤ n ∧ n ≤ t.greatest := by
  obtain ⟨_, _, hcell⟩ := bind_eq_ok_iff.mp h
  obtain ⟨_, _, hfetch⟩ := bind_eq_ok_iff.mp hcell
  exact fetchInt_mem hfetch

theorem isFinite_valueOf (m : Memory) (globals : Table Variable) (name : String) :
    (Number.exact (m.valueOf globals name)).isFinite = true := by
  have hzero : (Number.exact 0).isFinite = true := by decide
  unfold valueOf
  split
  next v _ =>
    cases h : m.fetchNumber v.storage v.address with
    | error e => exact hzero
    | ok x =>
      obtain ⟨n, hfetch, hx⟩ := bind_eq_ok_iff.mp h
      have hmem := fetchInt_mem hfetch
      rw [← Except.ok.inj hx]
      refine Number.isFinite_ofInt (n := n) ?_
      have := v.storage.least_ge
      have := v.storage.greatest_le
      omega
  next => exact hzero

end Memory

/-! ## The clock -/

/-- A built-in component does not set the clock. -/
theorem Registry.ticks_builtins {id : String} {component : Component}
    (h : Registry.builtins.get? id = some component) (slot : Nat) (p : Properties)
    (env : Surroundings) (w : World) : (leaves (component.tick slot p env) w).ticks = w.ticks := by
  let _ : IsPreorder Memory fun _ _ => True :=
    { refl := fun _ => trivial, trans := fun _ _ _ _ _ => trivial }
  have hallows : Allows (fun _ _ => True) env.script slot [id] :=
    ⟨fun _ _ _ => trivial, fun _ _ _ _ => trivial, fun _ _ => trivial, fun _ _ _ _ _ _ _ => trivial⟩
  exact (builtins_keeps_withinTick h slot p env (List.mem_singleton.mpr rfl) hallows w).1

namespace Simulation

variable {s : Simulation} {held : Held} {geometry : Geometry}

/-- A loop leaves the clock as it is when each of its rounds does. -/
theorem ticks_foldl {α : Type} {step : World × Report → α → World × Report}
    (hstep : ∀ wr a, (step wr a).1.ticks = wr.1.ticks) (l : List α) (wr : World × Report) :
    (l.foldl step wr).1.ticks = wr.1.ticks :=
  (foldl_keeps (R := (· = ·)) (f := fun wr : World × Report => wr.1.ticks)
    (fun wr a _ => (hstep wr a).symm) wr).symm

theorem ticks_runEvents (w : World) : (s.runEvents held w).1.ticks = w.ticks := by
  refine ticks_foldl (fun wr e => ?_) s.events (w, Report.empty)
  have haction : ∀ (wr : World × Report) (a : Assignment),
      (s.runAction wr a).1.ticks = wr.1.ticks := by
    intro wr a
    unfold runAction
    dsimp only
    split <;> rfl
  unfold runEvent
  dsimp only
  split
  · exact ticks_foldl haction e.actions _
  · rfl

theorem ticks_runComponent (hregistry : s.registry = Registry.builtins) (t : EntityType)
    (slot : Nat) (wr : World × Report) (c : String × Properties) :
    (s.runComponent t held geometry slot wr c).1.ticks = wr.1.ticks := by
  unfold runComponent
  dsimp only
  cases hget : s.registry.get? c.1 with
  | none => rfl
  | some component =>
    have hticks := Registry.ticks_builtins (hregistry ▸ hget) slot c.2
      ⟨held, geometry, s.script, t.scratchOf c.1⟩ wr.1
    rw [← hticks, leaves]
    dsimp only
    cases component.tick slot c.2 ⟨held, geometry, s.script, t.scratchOf c.1⟩ wr.1 <;> rfl

theorem ticks_runEntities (hregistry : s.registry = Registry.builtins) (wr : World × Report) :
    (s.runEntities held geometry wr).1.ticks = wr.1.ticks := by
  refine ticks_foldl (fun wr slot => ?_) _ wr
  have hsprite : ∀ (number : Nat) (wr : World × Report),
      (showSprite slot number wr).1.ticks = wr.1.ticks := by
    intro number wr
    unfold showSprite
    dsimp only
    split <;> rfl
  unfold runSlot
  split
  · exact (hsprite _ _).trans (ticks_foldl (ticks_runComponent hregistry _ slot) _ wr)
  · rfl

/-- A tick is counted once. -/
theorem ticks_tick (hregistry : s.registry = Registry.builtins) (w : World) :
    (s.tick held geometry w).1.ticks = w.ticks + 1 :=
  congrArg (· + 1) ((ticks_runEntities hregistry _).trans (ticks_runEvents w))

theorem ticked_le (w : World) : (s.tick held geometry w).2.ticked ≤ slotCount := by
  have hslots : ((s.turns held geometry w).map Turn.slot).length ≤
      (slotAddresses (s.runEvents held w).1.memory.size).length :=
    (slots_turnsAlong _ _).length_le
  rw [List.length_map, slotAddresses, List.length_map, List.length_range] at hslots
  rw [ticked_tick]
  exact hslots.trans (Nat.min_le_left _ _)

theorem ticks_spawnAll (placements : List Placement) (w : World) :
    (s.spawnAll placements w).2.2.ticks = w.ticks := by
  have hspawn : ∀ (entity : String) (x y : Int) (w : World),
      (s.spawn entity x y w).2.ticks = w.ticks := by
    intro entity x y w
    unfold spawn
    split
    · rfl
    · split <;> rfl
  induction placements generalizing w with
  | nil => rfl
  | cons p placements ih =>
    have hfirst := hspawn p.entity p.x p.y w
    unfold spawnAll
    split
    next w' h => exact (ih w').trans (by rwa [h] at hfirst)
    next w' h => rwa [h] at hfirst
    next w' h => exact (ih w').trans (by rwa [h] at hfirst)

end Simulation

/-! ## Steps -/

namespace Dictionary

variable {α : Type}

theorem mem_place {key : String} {value : α} {es : List (String × α)} {e : String × α}
    (h : e ∈ place key value es) : e = (key, value) ∨ e ∈ es := by
  induction es with
  | nil => exact .inl (List.mem_singleton.mp h)
  | cons f es ih =>
    unfold place at h
    split at h
    · exact (List.mem_cons.mp h).imp_right (List.mem_cons_of_mem f)
    · split at h
      · exact List.mem_cons.mp h
      · rcases List.mem_cons.mp h with rfl | hmore
        · exact .inr List.mem_cons_self
        · exact (ih hmore).imp_right (List.mem_cons_of_mem f)

/-- The entries of a dictionary are pairs that it was made of. -/
theorem mem_ofList {pairs : List (String × α)} {e : String × α}
    (h : e ∈ (ofList pairs).entries) : e ∈ pairs := by
  suffices hfold : ∀ d : Dictionary α, e ∈ (pairs.foldl (fun d p => d.insert p.1 p.2) d).entries →
      e ∈ d.entries ∨ e ∈ pairs from (hfold empty h).resolve_left nofun
  clear h
  induction pairs with
  | nil => exact fun _ => .inl
  | cons p pairs ih =>
    intro d h
    rcases ih _ h with hplace | hmore
    · rcases mem_place hplace with rfl | hd
      · exact .inr List.mem_cons_self
      · exact .inl hd
    · exact .inr (List.mem_cons_of_mem p hmore)

end Dictionary

namespace Scenario

variable {s : Scenario} {sim : Simulation}

/-- Whether a run is at a tick, and has recorded nothing that cannot be kept. The number of events
that fire in a step has no bound of its own. -/
structure Progress.At (n : Nat) (p : Progress) : Prop where
  ticks_eq : p.world.ticks = n
  results_fit : ∀ r ∈ p.results, r.fired ≤ Json.word64 → r.Fits

/-- A step moves a run on by one tick. -/
theorem step_at (hregistry : sim.registry = Registry.builtins) {p : Progress} {n : Nat}
    (hn : n ≤ Json.word64) (h : p.At n) : (s.step sim p).At (n + 1) := by
  have hslots : slotCount ≤ Json.word64 := by decide
  refine ⟨?_, ?_⟩
  · show (sim.tick (s.heldAt p.world.ticks) s.geometry p.world).1.ticks = n + 1
    rw [Simulation.ticks_tick hregistry, h.ticks_eq]
  · intro r hr hfired
    rcases List.mem_cons.mp hr with rfl | hr
    · exact {
        step_le := h.ticks_eq.trans_le hn
        fired_le := hfired
        ticked_le := (Simulation.ticked_le p.world).trans hslots
        finite := by
          intro g hg
          obtain ⟨name, -, rfl⟩ := List.mem_map.mp (Dictionary.mem_ofList hg)
          exact Memory.isFinite_valueOf _ _ _ }
    · exact h.results_fit r hr hfired

/-- Steps move a run on by as many ticks. -/
theorem repeat_step_at (hregistry : sim.registry = Registry.builtins) {p : Progress} (h : p.At 0)
    {n : Nat} (hn : n ≤ Json.word64) : (Nat.repeat (s.step sim) n p).At n := by
  induction n with
  | zero => exact h
  | succ n ih => exact step_at hregistry (Nat.le_of_succ_le hn) (ih (Nat.le_of_succ_le hn))

theorem begin_at [Generator] (s : Scenario) (sim : Simulation) : (s.begin sim).At 0 := by
  unfold begin
  dsimp only
  split
  · exact ⟨Simulation.ticks_spawnAll _ _, nofun⟩
  · exact ⟨rfl, nofun⟩

end Scenario

/-! ## Entities -/

theorem slotIndex?_getD_le (address : Nat) : (slotIndex? address).getD 0 ≤ slotCount := by
  have hstart : Region.entityPool.start = 512 := rfl
  have hstop : Region.entityPool.stop = 12288 := rfl
  have hcount : slotCount = 736 := rfl
  unfold slotIndex?
  split
  · exact Nat.zero_le _
  · dsimp only
    split
    · simp only [Option.getD_some, slotBytes]
      omega
    · exact Nat.zero_le _

theorem EntityRecord.fits_ofSlot {script : Script} {m : Memory} {slot : Nat} {r : EntityRecord}
    (h : EntityRecord.ofSlot script m slot = .ok r) : r.Fits := by
  obtain ⟨type, -, h⟩ := bind_eq_ok_iff.mp h
  obtain ⟨⟨x, y⟩, hposition, h⟩ := bind_eq_ok_iff.mp h
  obtain ⟨⟨velocityX, velocityY⟩, hvelocity, h⟩ := bind_eq_ok_iff.mp h
  obtain ⟨health, hhealth, h⟩ := bind_eq_ok_iff.mp h
  obtain ⟨sprite, hsprite, h⟩ := bind_eq_ok_iff.mp h
  obtain ⟨x', hx, hposition⟩ := bind_eq_ok_iff.mp hposition
  obtain ⟨y', hy, hposition⟩ := bind_eq_ok_iff.mp hposition
  obtain ⟨velocityX', hvelocityX, hvelocity⟩ := bind_eq_ok_iff.mp hvelocity
  obtain ⟨velocityY', hvelocityY, hvelocity⟩ := bind_eq_ok_iff.mp hvelocity
  obtain ⟨rfl, rfl⟩ := Prod.mk.inj (Except.ok.inj hposition)
  obtain ⟨rfl, rfl⟩ := Prod.mk.inj (Except.ok.inj hvelocity)
  cases h
  exact {
    slot_le := (slotIndex?_getD_le slot).trans (by decide)
    x_mem := Memory.field_mem hx
    y_mem := Memory.field_mem hy
    velocityX_mem := Memory.field_mem hvelocityX
    velocityY_mem := Memory.field_mem hvelocityY
    health_mem := Memory.field_mem hhealth
    sprite_mem := Memory.field_mem hsprite }

/-! ## Recordings -/

namespace Scenario

/-- The number of steps that is read is a machine word. -/
theorem steps_le_of_ofJson? {v : Json} {s : Scenario} (h : ofJson? v = some s) :
    s.steps ≤ Json.word64 := by
  have hnat : ∀ {w : Json} {n : Nat}, Json.nat? Json.word64 w = some n → n ≤ Json.word64 := by
    intro w n hn
    unfold Json.nat? at hn
    split at hn
    · split at hn
      · have := Option.some.inj hn
        omega
      · cases hn
    · cases hn
  obtain ⟨fields, -, h⟩ := Option.bind_eq_some_iff.mp h
  split at h
  next _ _ _ steps _ _ _ _ _ _ _ =>
    simp only [Option.bind_eq_bind, Option.bind_eq_some_iff] at h
    obtain ⟨_, -, _, -, _, -, n, hsteps, _, -, _, -, _, -, _, -, _, -, _, -, _, -, h⟩ := h
    rw [← Option.some.inj h]
    show n ≤ Json.word64
    cases steps with
    | none => rw [← Option.some.inj hsteps]; decide
    | some w => exact hnat hsteps
  next => cases h

/-- The recording of a run can be kept, if its numbers of events are those of machine words. -/
theorem recordResolved_fits [Generator] {s : Scenario} (hsteps : s.steps ≤ Json.word64)
    (r : Resolution)
    (hfired : ∀ step ∈ (s.recordResolved r).1.results, step.fired ≤ Json.word64) :
    (s.recordResolved r).1.Fits where
  steps_le := hsteps
  results_fit := by
    intro step hstep
    let sim := Simulation.ofScript r.script Registry.builtins
    have hat : (Nat.repeat (s.step sim) s.steps (s.begin sim)).At s.steps :=
      repeat_step_at rfl (s.begin_at sim) hsteps
    exact hat.results_fit step (List.mem_reverse.mp hstep) (hfired step hstep)
  entities_fit := by
    intro e he
    obtain ⟨slot, -, hslot⟩ := List.mem_filterMap.mp he
    cases hread : EntityRecord.ofSlot r.script _ slot with
    | error fault => rw [hread] at hslot; cases hslot
    | ok found =>
      rw [hread] at hslot
      exact EntityRecord.fits_ofSlot (hread.trans (congrArg Except.ok (Option.some.inj hslot)))

end Scenario

end PixelScene
