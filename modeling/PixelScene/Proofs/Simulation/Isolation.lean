import PixelScene.Proofs.Simulation.Faults
import PixelScene.Proofs.Simulation.History

/-!
# Faults are isolated

A component that always fails is put in the place of one that does nothing. Nothing else comes of it
than the faults of this component: the worlds of the two runs are the same, and so are the reports
but for these faults.

* `Registry.FaultyAt`: two registries with a component that always fails and one that does nothing.
* `Simulation.prepared_eq`: both make a script ready in the same way.
* `Simulation.tick_alike`: a step lemma for each part of a tick, up to the tick.
* `Simulation.faults_isolated`: whole runs.

Two runs are followed side by side, and the invariant is that their worlds are the same and their
reports the same but for the faults of one component. What a component of a host does when it fails
could leave changes behind; the one here fails without any. Everything else of the two registries is
the same, and so are the scratch bytes, since they are shared out by what components ask for.
-/

namespace PixelScene

/-! ## Registries that differ in one component -/

/-- The registries differ in one component, which always fails in the first and does nothing in the
second. -/
structure Registry.FaultyAt (id : String) (r r' : Registry) : Prop where
  faulty : r.FailsAt id
  idle : ∃ c, r'.get? id = some c ∧ c.Idle
  scratch : (r.get? id).map Component.scratchBytes = (r'.get? id).map Component.scratchBytes
  others : ∀ other, other ≠ id → r'.get? other = r.get? other

namespace Registry

variable {id : String} {r r' : Registry}

theorem faultyAt_insert (r : Registry) (id : String) {faulty idle : Component}
    (hfaulty : faulty.Faulty) (hidle : idle.Idle)
    (hscratch : faulty.scratchBytes = idle.scratchBytes) :
    FaultyAt id (r.insert id faulty) (r.insert id idle) := by
  have hget : ∀ c other, (r.insert id c).get? other = if other = id then some c else r.get? other :=
    fun c other => Dictionary.get?_insert r id other c
  refine ⟨⟨faulty, ?_, hfaulty⟩, ⟨idle, ?_, hidle⟩, ?_, fun other hother => ?_⟩
  · rw [hget, if_pos rfl]
  · rw [hget, if_pos rfl]
  · rw [hget, hget, if_pos rfl, if_pos rfl, Option.map_some, Option.map_some, hscratch]
  · rw [hget, hget, if_neg hother, if_neg hother]

namespace FaultyAt

variable (h : FaultyAt id r r')

include h

theorem scratchBytes_eq (other : String) :
    (r'.get? other).map Component.scratchBytes = (r.get? other).map Component.scratchBytes := by
  by_cases hother : other = id
  · rw [hother]
    exact h.scratch.symm
  · rw [h.others other hother]

/-- Neither of the two components offers anything to conditions. -/
theorem context_eq (other : String) :
    (r'.get? other).bind Component.context = (r.get? other).bind Component.context := by
  by_cases hother : other = id
  · obtain ⟨c, hget, hfaulty⟩ := h.faulty
    obtain ⟨c', hget', hidle⟩ := h.idle
    rw [hother, hget, hget', Option.bind_some, Option.bind_some, hfaulty.context, hidle.context]
  · rw [h.others other hother]

end FaultyAt

end Registry

/-! ## Making a script ready -/

section Prepared

variable {r r' : Registry}
  (h : ∀ id, (r'.get? id).map Component.scratchBytes = (r.get? id).map Component.scratchBytes)

include h

/-- Scratch bytes are shared out by how many each component needs. -/
theorem allotScratch_congr (entity : String) (used : Nat) (ids : List String) :
    allotScratch r' entity used ids = allotScratch r entity used ids := by
  induction ids generalizing used with
  | nil => rfl
  | cons id ids ih =>
    have hid := h id
    unfold allotScratch
    cases hget : r.get? id with
    | none =>
      rw [hget, Option.map_none, Option.map_eq_none_iff] at hid
      simp only [hid, ih]
    | some c =>
      rw [hget, Option.map_some, Option.map_eq_some_iff] at hid
      obtain ⟨c', hget', hbytes⟩ := hid
      simp only [hget', hbytes, ih]

namespace Simulation

theorem ofScript_eq (script : Script) :
    ofScript script r' = { ofScript script r with registry := r' } := by
  have hentity : EntityType.ofEntity r' = EntityType.ofEntity r := by
    funext shared name entity
    unfold EntityType.ofEntity
    rw [allotScratch_congr h]
  unfold ofScript
  rw [hentity]

theorem prepared_eq (script : Script) (hosts : List KeyBindings) :
    prepared script r' hosts = { prepared script r hosts with registry := r' } := by
  unfold prepared
  rw [ofScript_eq h]
  generalize ofScript script r = s
  induction hosts generalizing s with
  | nil => rfl
  | cons host hosts ih => exact ih (s.withHost host)

end Simulation

end Prepared

/-! ## Two runs side by side -/

/-- Two runs stand alike: the worlds are the same, and so are the reports but for the faults of a
component in the first. -/
structure Alike (id : String) (wr wr' : World × Report) : Prop where
  world : wr'.1 = wr.1
  fired : wr'.2.fired = wr.2.fired
  ticked : wr'.2.ticked = wr.2.ticked
  warnings : wr'.2.warnings = wr.2.warnings
  faults : wr'.2.faults = wr.2.faults.filter (·.component != id)

namespace Alike

variable {id : String} {w w' : World} {r r' : Report}

/-- The first run notes a fault of the component. -/
theorem blame_first (h : Alike id (w, r) (w', r')) {f : Fault} (hf : f.component = id) :
    Alike id (w, r.blame f) (w', r') := by
  refine ⟨h.world, h.fired, h.ticked, h.warnings, h.faults.trans ?_⟩
  rw [Report.blame, List.filter_append, List.filter_cons_of_neg (by simpa using hf),
    List.filter_nil, List.append_nil]

/-- Both runs note a fault of another component. -/
theorem blame (h : Alike id (w, r) (w', r')) {f : Fault} (hf : f.component ≠ id) :
    Alike id (w, r.blame f) (w', r'.blame f) := by
  refine ⟨h.world, h.fired, h.ticked, h.warnings, ?_⟩
  have hfaults : r'.faults = r.faults.filter (·.component != id) := h.faults
  rw [Report.blame, Report.blame, List.filter_append, ← hfaults,
    List.filter_cons_of_pos (by simpa using hf), List.filter_nil]

theorem warn (h : Alike id (w, r) (w', r')) (warning : Warning) :
    Alike id (w, r.warn warning) (w', r'.warn warning) :=
  ⟨h.world, h.fired, h.ticked, congrArg (· ++ [warning]) h.warnings, h.faults⟩

theorem go (h : Alike id (w, r) (w', r')) (next : World) : Alike id (next, r) (next, r') :=
  ⟨rfl, h.fired, h.ticked, h.warnings, h.faults⟩

/-- Both runs count a turn. -/
theorem countTurn {wr wr' : World × Report} (h : Alike id wr wr') :
    Alike id (wr.1, { wr.2 with ticked := wr.2.ticked + 1 })
      (wr'.1, { wr'.2 with ticked := wr'.2.ticked + 1 }) :=
  ⟨h.world, h.fired, congrArg (· + 1) h.ticked, h.warnings, h.faults⟩

end Alike

namespace Simulation

variable {id : String} {s : Simulation} {r : Registry}

section Alike

variable (h : s.registry.FaultyAt id r) {held : Held} {geometry : Geometry}
  {wr wr' : World × Report}

theorem showSprite_alike (hwr : Alike id wr wr') (slot number : Nat) :
    Alike id (showSprite slot number wr) (showSprite slot number wr') := by
  obtain ⟨w, report⟩ := wr
  obtain ⟨w', report'⟩ := wr'
  obtain rfl : w' = w := hwr.world
  unfold showSprite
  dsimp only
  split
  · exact hwr.go _
  · exact (hwr.go _).warn _

include h

theorem stateOf_eq (t : EntityType) (m : Memory) (slot : Nat) :
    stateOf { s with registry := r } t m slot = s.stateOf t m slot := by
  have hcontext : context { s with registry := r } t m slot = s.context t m slot := by
    unfold context
    congr 1
    funext c
    unfold contextOf
    rw [h.context_eq]
  have hlookup : lookup { s with registry := r } t m slot = s.lookup t m slot := by
    funext name
    unfold lookup
    rw [hcontext]
  unfold stateOf
  rw [hlookup]

theorem runComponent_alike (hwr : Alike id wr wr') (t : EntityType) (slot : Nat)
    (c : String × Properties) : Alike id (s.runComponent t held geometry slot wr c)
      (runComponent { s with registry := r } t held geometry slot wr' c) := by
  obtain ⟨w, report⟩ := wr
  obtain ⟨w', report'⟩ := wr'
  obtain rfl : w' = w := hwr.world
  unfold runComponent
  dsimp only
  by_cases hc : c.1 = id
  · -- the one component fails, the other does nothing
    obtain ⟨faulty, hget, hfaulty⟩ := h.faulty
    obtain ⟨idle, hget', hidle⟩ := h.idle
    obtain ⟨cause, hcause⟩ := hfaulty.fails slot c.2 ⟨held, geometry, s.script, t.scratchOf id⟩ w'
    simp only [hc, hget, hget', hcause, hidle.succeeds]
    exact hwr.blame_first rfl
  · -- the components are the same
    rw [h.others c.1 hc]
    split
    · exact hwr
    · split
      · exact hwr.go _
      · exact (hwr.go _).blame hc

theorem runEntity_alike (hwr : Alike id wr wr') (t : EntityType) (slot : Nat) :
    Alike id (s.runEntity t held geometry slot wr)
      (runEntity { s with registry := r } t held geometry slot wr') := by
  unfold runEntity
  rw [stateOf_eq h, hwr.world]
  dsimp only
  have halike : Alike id
      ((t.entity.componentsIn (s.stateOf t wr.1.memory slot)).entries.foldl
        (s.runComponent t held geometry slot) wr)
      ((t.entity.componentsIn (s.stateOf t wr.1.memory slot)).entries.foldl
        (runComponent { s with registry := r } t held geometry slot) wr') :=
    List.foldl_rel hwr fun c _ _ _ hwr => runComponent_alike h hwr t slot c
  generalize List.foldl (s.runComponent t held geometry slot) wr _ = after at halike ⊢
  generalize List.foldl (runComponent _ t held geometry slot) wr' _ = after' at halike ⊢
  obtain ⟨w, report⟩ := after
  obtain ⟨w', report'⟩ := after'
  obtain rfl : w' = w := halike.world
  exact (showSprite_alike halike slot _).countTurn

theorem runSlot_alike (hwr : Alike id wr wr') (slot : Nat) :
    Alike id (s.runSlot held geometry wr slot)
      (runSlot { s with registry := r } held geometry wr' slot) := by
  have htype : typeAt? { s with registry := r } wr'.1.memory slot = s.typeAt? wr.1.memory slot := by
    rw [hwr.world]
    rfl
  cases ht : s.typeAt? wr.1.memory slot with
  | none =>
    rw [runSlot_of_typeAt?_eq_none ht, runSlot_of_typeAt?_eq_none (htype.trans ht)]
    exact hwr
  | some t =>
    rw [runSlot_of_typeAt? ht, runSlot_of_typeAt? (htype.trans ht)]
    exact runEntity_alike h hwr t slot

/-- A tick takes the same course in both runs. -/
theorem tick_alike (w : World) :
    Alike id (s.tick held geometry w) (tick { s with registry := r } held geometry w) := by
  have hevents : Alike id (s.runEvents held w) (runEvents { s with registry := r } held w) := by
    refine ⟨rfl, rfl, rfl, rfl, ?_⟩
    change (s.runEvents held w).2.faults = _
    rw [faults_runEvents, List.filter_nil]
  have hentities : Alike id (s.runEntities held geometry (s.runEvents held w))
      (runEntities { s with registry := r } held geometry
        (runEvents { s with registry := r } held w)) := by
    unfold runEntities
    rw [hevents.world]
    exact List.foldl_rel hevents fun slot _ _ _ hwr => runSlot_alike h hwr slot
  refine ⟨?_, hentities.fired, hentities.ticked, hentities.warnings, hentities.faults⟩
  exact congrArg (fun w : World => { w with ticks := w.ticks + 1 }) hentities.world

/-! ## Whole runs -/

omit h in
theorem spawnAll_eq (placements : List Placement) (w : World) :
    spawnAll { s with registry := r } placements w = s.spawnAll placements w := by
  induction placements generalizing w with
  | nil => rfl
  | cons p placements ih =>
    unfold spawnAll
    simp only [ih]
    rfl

theorem run_eq (operations : List Operation) (w : World) :
    run { s with registry := r } operations w = s.run operations w := by
  have hperform : perform { s with registry := r } = s.perform := by
    funext w operation
    cases operation with
    | spawn entity x y => rfl
    | placements => exact congrArg (fun result => result.2.2) (spawnAll_eq _ w)
    | tick held geometry => exact (tick_alike h w).world
  unfold run
  rw [hperform]

end Alike

/--
**A component that always fails does no more than report that it failed.** A run goes through the
same worlds as with one that does nothing in its place. A tick reports the same, and besides one
fault for each turn in which the component runs. All faults stand in the order of the turns, which
is that of the slots, and within a turn in the order of its components.
-/
theorem faults_isolated (script : Script) {id : String} {faulty idle : Registry}
    (h : faulty.FaultyAt id idle) (hosts : List KeyBindings) (operations : List Operation)
    (w : World) (held : Held) (geometry : Geometry) :
    let s := prepared script faulty hosts
    let s' := prepared script idle hosts
    let reached := s.run operations w
    let turns := s.turns held geometry reached
    let report := (s.tick held geometry reached).2
    let report' := (s'.tick held geometry reached).2
    s'.run operations w = reached ∧
      (report'.fired = report.fired ∧ report'.ticked = report.ticked ∧
        report'.warnings = report.warnings) ∧
      report'.faults = report.faults.filter (·.component != id) ∧
      (report.faults.map Fault.place).filter (·.component == id) =
        (turns.filter fun turn => id ∈ (turn.components s).keys).map (·.place id) ∧
      (report.faults.map Fault.place).Sublist (turns.flatMap (Turn.places s)) ∧
      report.ticked = turns.length ∧ (turns.map Turn.slot).Pairwise (· < ·) ∧
      ∀ turn ∈ turns, (turn.components s).keys.Nodup := by
  intro s s' reached turns report report'
  have hregistry : s.registry = faulty := prepared_registry script faulty hosts
  have hs' : s' = { s with registry := idle } := prepared_eq h.scratchBytes_eq script hosts
  have hfaulty : s.registry.FaultyAt id idle := hregistry.symm ▸ h
  have halike : Alike id (s.tick held geometry reached) (s'.tick held geometry reached) :=
    hs' ▸ tick_alike hfaulty reached
  obtain ⟨hplaces, hfilter⟩ := blames_tick hfaulty.faulty held geometry reached
  refine ⟨?_, ⟨halike.fired, halike.ticked, halike.warnings⟩, halike.faults, ?_, hplaces,
    ticked_tick reached, turns_ascending reached, fun _ _ => Table.nodup_keys _⟩
  · exact hs' ▸ run_eq hfaulty operations w
  · exact hfilter.trans (filter_flatMap_places turns)

/-- A mine that moves. -/
def minefield : Script :=
  { Script.empty with
    entities :=
      .ofList [("Mine", { Entity.empty with components := .ofList [("Bomb", ∅), ("Kinematic", ∅)] })] }

theorem faults_isolated_minefield :
    let faulty : Registry := Registry.builtins.insert "Bomb" (.custom 1 (some "boom"))
    let idle : Registry := Registry.builtins.insert "Bomb" (.custom 1 none)
    let s := prepared minefield faulty []
    let s' := prepared minefield idle []
    let operations := [.spawn "Mine" 3 4]
    let reached := s.run operations (World.start 12 11 0)
    faulty.FaultyAt "Bomb" idle ∧
      s'.run operations (World.start 12 11 0) = reached ∧
      (((s.tick Held.nothing Geometry.empty reached).2.faults.map Fault.place).filter fun place =>
        place.component == "Bomb") = [⟨512, "Mine", "Bomb"⟩] := by
  intro faulty idle s s' operations reached
  have hfaulty : faulty.FaultyAt "Bomb" idle :=
    Registry.faultyAt_insert Registry.builtins "Bomb" (Component.faulty_custom 1 "boom")
      (Component.idle_custom 1) rfl
  obtain ⟨hrun, -, -, hfaults, -⟩ := faults_isolated minefield hfaulty [] operations
    (World.start 12 11 0) Held.nothing Geometry.empty
  refine ⟨hfaulty, hrun, hfaults.trans ?_⟩
  decide +kernel

end Simulation

end PixelScene
