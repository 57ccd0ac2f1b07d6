import PixelScene.Simulation.Tick

/-!
# Histories

Four kinds of steps change the memory of a running script: the host puts an entity into the world,
an action sets a variable, a component runs, and an entity shows its sprite. The history of a run
lists these steps in order, each with the memory before it and the memory after it.

* `Simulation.history` follows the loops of a run.
* `Simulation.leads_history`: each step of a history starts from the memory that the one before it
  leaves, from the start of the run to its end, so a history leaves no change out.

The engine keeps no history; this one is written down beside the loops of a run, which are those of
the model. That the moments follow each other without a gap (`leads_history`) is what makes
statements about all moments statements about the run. Operations of a host are spawns and ticks; a
host that writes to the memory on its own is left out.
-/

namespace PixelScene

/-! ## Moments -/

/-- What changes the memory. A component runs in the turn of a slot; `start` is the memory when that
turn begins. -/
inductive Cause where
  | host
  | action
  | component (start : Memory) (slot : Nat) (id : String)
  | sprite (slot : Nat)

/-- A step of a run. -/
structure Moment where
  cause : Cause
  before : Memory
  after : Memory

/-- Some moments lead from one memory to another: each starts from what the one before it leaves. -/
inductive Leads : Memory → List Moment → Memory → Prop where
  | nil (m : Memory) : Leads m [] m
  | cons (moment : Moment) {moments : List Moment} {m : Memory}
    (h : Leads moment.after moments m) : Leads moment.before (moment :: moments) m

namespace Leads

theorem single (cause : Cause) (m m' : Memory) : Leads m [⟨cause, m, m'⟩] m' :=
  .cons ⟨cause, m, m'⟩ (.nil m')

theorem append {m m' m'' : Memory} {moments more : List Moment} (h : Leads m moments m')
    (h' : Leads m' more m'') : Leads m (moments ++ more) m'' := by
  induction h with
  | nil => exact h'
  | cons moment _ ih => exact .cons moment (ih h')

end Leads

/-! ## Loops -/

section Along

variable {α β : Type} {step : β → α → β} {moments : β → α → List Moment}

/-- The moments of a loop. -/
def along (step : β → α → β) (moments : β → α → List Moment) : List α → β → List Moment
  | [], _ => []
  | a :: more, b => moments b a ++ along step moments more (step b a)

/-- The moments of a loop lead to its end if those of each round do. -/
theorem leads_along {f : β → Memory} (h : ∀ b a, Leads (f b) (moments b a) (f (step b a)))
    (l : List α) (b : β) : Leads (f b) (along step moments l b) (f (l.foldl step b)) := by
  induction l generalizing b with
  | nil => exact .nil _
  | cons a l ih => exact (h b a).append (ih _)

theorem mem_along {l : List α} {b : β} {moment : Moment} (h : moment ∈ along step moments l b) :
    ∃ b', ∃ a ∈ l, moment ∈ moments b' a := by
  induction l generalizing b with
  | nil => exact absurd h List.not_mem_nil
  | cons a l ih =>
    rcases List.mem_append.mp h with h | h
    · exact ⟨b, a, List.mem_cons_self, h⟩
    · obtain ⟨b', a', ha', h⟩ := ih h
      exact ⟨b', a', List.mem_cons_of_mem _ ha', h⟩

end Along

namespace Simulation

variable (s : Simulation)

/-! ## Moments of a tick -/

/-- The moment of an action. -/
def actionMoments (wr : World × Report) (a : Assignment) : List Moment :=
  [⟨.action, wr.1.memory, (s.runAction wr a).1.memory⟩]

/-- The moments of an event. -/
def eventMoments (held : Held) (wr : World × Report) (e : Event) : List Moment :=
  if e.trigger.fires wr.1.memory wr.1.width held s.script.globals then
    along s.runAction s.actionMoments e.actions (wr.1, { wr.2 with fired := wr.2.fired + 1 })
  else []

/-- The moment of a component, in a turn that begins with some memory. -/
def componentMoments (t : EntityType) (held : Held) (geometry : Geometry) (slot : Nat)
    (start : Memory) (wr : World × Report) (c : String × Properties) : List Moment :=
  [⟨.component start slot c.1, wr.1.memory,
    (s.runComponent t held geometry slot wr c).1.memory⟩]

/-- The moments of the turn of an entity. -/
def entityMoments (t : EntityType) (held : Held) (geometry : Geometry) (slot : Nat)
    (wr : World × Report) : List Moment :=
  let components := t.entity.componentsIn (s.stateOf t wr.1.memory slot)
  let step := s.runComponent t held geometry slot
  along step (s.componentMoments t held geometry slot wr.1.memory) components.entries wr ++
    [⟨.sprite slot, (components.entries.foldl step wr).1.memory,
      (s.runEntity t held geometry slot wr).1.memory⟩]

/-- The moments of the turn of a slot. -/
def slotMoments (held : Held) (geometry : Geometry) (wr : World × Report) (slot : Nat) :
    List Moment :=
  match s.typeAt? wr.1.memory slot with
  | some t => s.entityMoments t (held.consult t.bindings) geometry slot wr
  | none => []

/-- The moments of a tick. -/
def tickMoments (held : Held) (geometry : Geometry) (w : World) : List Moment :=
  let consulted := held.consult s.bindings
  let wr := s.runEvents held w
  along (s.runEvent consulted) (s.eventMoments consulted) s.events (w, Report.empty) ++
    along (s.runSlot held geometry) (s.slotMoments held geometry) (slotAddresses wr.1.memory.size) wr

/-! ## Runs -/

/-- What a host does with a simulation. -/
inductive Operation where
  | spawn (entity : String) (x y : Int)
  | placements
  | tick (held : Held) (geometry : Geometry)

/-- The world after an operation. -/
def perform (w : World) : Operation → World
  | .spawn entity x y => (s.spawn entity x y w).2
  | .placements => (s.spawnPlacements w).2.2
  | .tick held geometry => (s.tick held geometry w).1

/-- The world after some operations. -/
def run (operations : List Operation) (w : World) : World := operations.foldl s.perform w

/-- The moment when the host puts an entity into the world. -/
def spawnMoments (entity : String) (x y : Int) (w : World) : List Moment :=
  [⟨.host, w.memory, (s.spawn entity x y w).2.memory⟩]

/-- The moments when entities are placed, until the pool is full. -/
def placementMoments : List Placement → World → List Moment
  | [], _ => []
  | p :: more, w =>
    s.spawnMoments p.entity p.x p.y w ++
      match s.spawn p.entity p.x p.y w with
      | (.ok none, _) => []
      | (_, w) => placementMoments more w

/-- The moments of an operation. -/
def moments (w : World) : Operation → List Moment
  | .spawn entity x y => s.spawnMoments entity x y w
  | .placements => s.placementMoments s.script.placements w
  | .tick held geometry => s.tickMoments held geometry w

/-- The moments of a run. -/
def history (operations : List Operation) (w : World) : List Moment :=
  along s.perform s.moments operations w

/-! ## Histories are complete -/

variable {s}

theorem leads_eventMoments (held : Held) (wr : World × Report) (e : Event) :
    Leads wr.1.memory (s.eventMoments held wr e) (s.runEvent held wr e).1.memory := by
  unfold eventMoments runEvent
  dsimp only
  split
  · exact leads_along (f := fun wr : World × Report => wr.1.memory)
      (fun _ _ => .single _ _ _) e.actions (wr.1, { wr.2 with fired := wr.2.fired + 1 })
  · exact .nil _

theorem leads_entityMoments (t : EntityType) (held : Held) (geometry : Geometry) (slot : Nat)
    (wr : World × Report) : Leads wr.1.memory (s.entityMoments t held geometry slot wr)
      (s.runEntity t held geometry slot wr).1.memory :=
  (leads_along (f := fun wr : World × Report => wr.1.memory) (fun _ _ => .single _ _ _) _ wr).append
    (.single _ _ _)

theorem leads_slotMoments (held : Held) (geometry : Geometry) (wr : World × Report) (slot : Nat) :
    Leads wr.1.memory (s.slotMoments held geometry wr slot)
      (s.runSlot held geometry wr slot).1.memory := by
  unfold slotMoments runSlot
  cases s.typeAt? wr.1.memory slot with
  | none => exact .nil _
  | some t => exact leads_entityMoments t _ geometry slot wr

theorem leads_tickMoments (held : Held) (geometry : Geometry) (w : World) :
    Leads w.memory (s.tickMoments held geometry w) (s.tick held geometry w).1.memory := by
  have hevents := leads_along (f := fun wr : World × Report => wr.1.memory)
    (leads_eventMoments (s := s) (held.consult s.bindings)) s.events (w, Report.empty)
  exact hevents.append (leads_along (f := fun wr : World × Report => wr.1.memory)
    (leads_slotMoments held geometry) _ _)

theorem leads_placementMoments (placements : List Placement) (w : World) :
    Leads w.memory (s.placementMoments placements w) (s.spawnAll placements w).2.2.memory := by
  induction placements generalizing w with
  | nil => exact .nil _
  | cons p more ih =>
    unfold placementMoments spawnAll spawnMoments
    rcases s.spawn p.entity p.x p.y w with ⟨(fault | (_ | slot)), w'⟩
    · exact (Leads.single .host w.memory w'.memory).append (ih w')
    · exact .single .host w.memory w'.memory
    · exact (Leads.single .host w.memory w'.memory).append (ih w')

theorem leads_moments (w : World) (operation : Operation) :
    Leads w.memory (s.moments w operation) (s.perform w operation).memory := by
  cases operation with
  | spawn entity x y => exact .single _ _ _
  | placements => exact leads_placementMoments s.script.placements w
  | tick held geometry => exact leads_tickMoments held geometry w

/-- The history of a run leads from its start to its end. -/
theorem leads_history (operations : List Operation) (w : World) :
    Leads w.memory (s.history operations w) (s.run operations w).memory :=
  leads_along leads_moments operations w

end Simulation

end PixelScene
