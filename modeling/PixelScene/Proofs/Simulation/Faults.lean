import PixelScene.Proofs.FirstWins
import PixelScene.Proofs.Simulation.Turns

/-!
# Which faults a tick reports

A fault has a place: the slot and the name of its entity, and the component. The faults of a tick
stand in the order of the turns, and those of one turn in the order of its components.

* `Report.Blames id places r r'`: from `r` to `r'` faults are added at some of the places, in order,
  and at all those of the component `id`.
* `Turn.blames_finish`: what a turn adds when the component `id` always fails.
* `Simulation.blames_tick`, `filter_flatMap_places`: the faults of a tick.

The place of a fault is what the engine reports of it besides its message: slot, name of the type,
and component. In an entity no component runs twice, as its table has no key twice, so a component
has one place in a turn.
-/

namespace PixelScene

/-! ## Components that always fail or do nothing -/

namespace Component

/-- The component always fails and changes nothing, and offers nothing to conditions. -/
structure Faulty (c : Component) : Prop where
  context : c.context = none
  fails : ∀ slot p env w, ∃ cause, c.tick slot p env w = .error cause w

/-- The component always succeeds and changes nothing, and offers nothing to conditions. -/
structure Idle (c : Component) : Prop where
  context : c.context = none
  succeeds : ∀ slot p env w, c.tick slot p env w = .ok () w

theorem faulty_custom (scratchBytes : Nat) (message : String) :
    (custom scratchBytes (some message)).Faulty :=
  ⟨rfl, fun _ _ _ _ => ⟨.custom message, rfl⟩⟩

theorem idle_custom (scratchBytes : Nat) : (custom scratchBytes none).Idle :=
  ⟨rfl, fun _ _ _ _ => rfl⟩

end Component

/-! ## Places -/

/-- Where a component may fail. -/
structure Place where
  slot : Nat
  entity : String
  component : String
deriving DecidableEq

/-- Where a fault happened. -/
def Fault.place (f : Fault) : Place := ⟨f.slot, f.entity, f.component⟩

/-- The place of a component of a turn. -/
def Turn.place (turn : Turn) (component : String) : Place := ⟨turn.slot, turn.type.name, component⟩

/-- The places of the components of a turn, in order. -/
def Turn.places (s : Simulation) (turn : Turn) : List Place :=
  (turn.components s).keys.map turn.place

namespace Report

/-- Faults are added at some of the places, in order, and at all those of the component `id`. -/
def Blames (id : String) (places : List Place) (r r' : Report) : Prop :=
  ∃ new : List Fault, r'.faults = r.faults ++ new ∧ (new.map Fault.place).Sublist places ∧
    (new.map Fault.place).filter (·.component == id) = places.filter (·.component == id)

variable {id : String} {places more : List Place} {r r' r'' : Report}

theorem Blames.nil (h : r'.faults = r.faults) : Blames id [] r r' :=
  ⟨[], by rw [h, List.append_nil], List.Sublist.refl [], rfl⟩

theorem Blames.append (h : Blames id places r r') (h' : Blames id more r' r'') :
    Blames id (places ++ more) r r'' := by
  obtain ⟨new, hfaults, hsub, hfilter⟩ := h
  obtain ⟨new', hfaults', hsub', hfilter'⟩ := h'
  refine ⟨new ++ new', by rw [hfaults', hfaults, List.append_assoc], ?_, ?_⟩
  · rw [List.map_append]
    exact hsub.append hsub'
  · rw [List.map_append, List.filter_append, List.filter_append, hfilter, hfilter']

/-- A fault is added at its place. -/
theorem blames_blame (f : Fault) : Blames id [f.place] r (r.blame f) :=
  ⟨[f], rfl, List.Sublist.refl _, rfl⟩

/-- Another component may as well not fail. -/
theorem Blames.of_ne {place : Place} (hne : place.component ≠ id) (h : r'.faults = r.faults) :
    Blames id [place] r r' := by
  refine ⟨[], by rw [h, List.append_nil], List.nil_sublist _, ?_⟩
  rw [List.filter_cons_of_neg (by simpa using hne)]
  rfl

end Report

/-! ## Faults of a turn -/

section Turns

variable {s : Simulation} {held : Held} {geometry : Geometry} {id : String}

/-- The registry has a component that always fails. -/
def Registry.FailsAt (r : Registry) (id : String) : Prop := ∃ c, r.get? id = some c ∧ c.Faulty

namespace Simulation

open Report (Blames)

theorem blames_runComponent (hid : s.registry.FailsAt id) (t : EntityType) (slot : Nat)
    (wr : World × Report) (c : String × Properties) :
    Blames id [⟨slot, t.name, c.1⟩] wr.2 (s.runComponent t held geometry slot wr c).2 := by
  obtain ⟨faulty, hget, hfaulty⟩ := hid
  unfold runComponent
  by_cases hc : c.1 = id
  · obtain ⟨cause, hcause⟩ :=
      hfaulty.fails slot c.2 ⟨held, geometry, s.script, t.scratchOf c.1⟩ wr.1
    rw [hc] at hcause ⊢
    simp only [hget, hcause]
    exact Report.blames_blame ⟨slot, t.name, id, cause⟩
  · dsimp only
    split
    · exact .of_ne hc rfl
    · split
      · exact .of_ne hc rfl
      · exact Report.blames_blame ⟨slot, t.name, c.1, _⟩

end Simulation

open Report (Blames)

/-- A turn adds faults at places of its components, and one where the component `id` runs. -/
theorem Turn.blames_finish (hid : s.registry.FailsAt id) (turn : Turn) :
    Blames id (turn.places s) turn.start.2 (turn.finish s held geometry).2 := by
  have hcomponents : ∀ (held : Held) (l : List (String × Properties)) (wr : World × Report),
      Blames id (l.map fun c => turn.place c.1) wr.2
        (l.foldl (s.runComponent turn.type held geometry turn.slot) wr).2 := by
    intro held l
    induction l with
    | nil => exact fun wr => .nil rfl
    | cons c l ih =>
      intro wr
      exact (Simulation.blames_runComponent hid turn.type turn.slot wr c).append (ih _)
  have hplaces : turn.places s = (turn.components s).entries.map fun c => turn.place c.1 :=
    List.map_map
  rw [hplaces, ← List.append_nil (List.map _ _)]
  exact (hcomponents _ _ _).append
    (.nil (Simulation.showSprite_fixed (f := Report.faults) (fun _ _ => rfl) _ _ _))

namespace Simulation

theorem Takes.blames (hid : s.registry.FailsAt id) {wr wr' : World × Report} {turns : List Turn}
    (h : s.Takes held geometry wr turns wr') :
    Blames id (turns.flatMap (Turn.places s)) wr.2 wr'.2 := by
  induction h with
  | nil => exact .nil rfl
  | cons turn _ _ ih =>
    rw [List.flatMap_cons]
    exact (turn.blames_finish hid).append ih

theorem faults_runEvents (w : World) : (s.runEvents held w).2.faults = [] :=
  runEvents_fixed (f := Report.faults) (fun _ _ => rfl) (fun _ _ => rfl) w

/-- The faults of a tick stand at places of its turns, and at all those of the component `id`. -/
theorem blames_tick (hid : s.registry.FailsAt id) (held : Held) (geometry : Geometry) (w : World) :
    let faults := (s.tick held geometry w).2.faults
    let places := (s.turns held geometry w).flatMap (Turn.places s)
    (faults.map Fault.place).Sublist places ∧
      (faults.map Fault.place).filter (·.component == id) =
        places.filter (·.component == id) := by
  obtain ⟨new, hfaults, hsub, hfilter⟩ := (takes_turns w).blames hid
  rw [faults_runEvents, List.nil_append] at hfaults
  have htick : (s.tick held geometry w).2.faults = new := hfaults
  rw [htick]
  exact ⟨hsub, hfilter⟩

end Simulation

/-- A turn has one place of a component if it runs. -/
theorem Turn.filter_places (turn : Turn) :
    (turn.places s).filter (·.component == id) =
      if id ∈ (turn.components s).keys then [turn.place id] else [] := by
  have hcount : (turn.components s).keys.filter (· == id) =
      if id ∈ (turn.components s).keys then [id] else [] := by
    rw [List.filter_beq, List.Nodup.count (Table.nodup_keys _)]
    split <;> rfl
  have hplaces : (turn.places s).filter (·.component == id) =
      ((turn.components s).keys.filter (· == id)).map turn.place := List.filter_map
  rw [hplaces, hcount]
  split <;> rfl

/-- There is one place of a component for each turn in which it runs. -/
theorem filter_flatMap_places (turns : List Turn) :
    (turns.flatMap (Turn.places s)).filter (·.component == id) =
      (turns.filter fun turn => id ∈ (turn.components s).keys).map (·.place id) := by
  induction turns with
  | nil => rfl
  | cons turn turns ih =>
    rw [List.flatMap_cons, List.filter_append, turn.filter_places, ih]
    split
    · rename_i hmem
      rw [List.filter_cons_of_pos (by simpa using hmem)]
      rfl
    · rename_i hmem
      rw [List.filter_cons_of_neg (by simpa using hmem)]
      rfl

end Turns

end PixelScene
