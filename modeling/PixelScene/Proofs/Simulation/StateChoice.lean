import PixelScene.Proofs.Expression.RoundTrip
import PixelScene.Proofs.Memory.Part
import PixelScene.Proofs.Simulation.Commuting

/-!
# What decides the state of an entity

An entity is in the first of its states whose condition holds. A condition is made of names, and a
name stands for what a component of the entity offers under it, or else for a variable of the
script. The built-in components offer what they find in the slot of the entity, so the state is
decided by the bytes of this slot and of the variables.

* `Component.LooksAtSlot`: what is offered is known from the slot of the entity.
* `Component.builtins_looksAtSlot`: this holds of every built-in component.
* `Simulation.reading`: what a name in a condition stands for.
* `Simulation.stateOf_eq_firstState`: the state is the first one whose condition holds.
* `Simulation.stateOf_known_from_slot`: it is known from the slot and the variables.

A name is looked up among what the components of the type offer, then among the variables, and
counts as zero otherwise. What components offer is a function of the memory, and for those of the
engine of the slot alone: position, velocity, health and scratch bytes. Doubles are compared as they
are, so the result holds whatever the conditions compute.
-/

namespace PixelScene

open Memory (Within)

/-- What is found in some lists of pairs, one after the other, is found in the first list that has
the key. -/
theorem lookup_flatMap {α β : Type} (l : List α) (f : α → List (String × β)) (key : String) :
    (l.flatMap f).lookup key = l.findSome? fun a => (f a).lookup key := by
  induction l with
  | nil => rfl
  | cons a l ih =>
    rw [List.flatMap_cons, List.lookup_append, ih, List.findSome?_cons]
    cases (f a).lookup key <;> rfl

/-! ## What the built-in components look at -/

section OwnSlot

variable {m m' : Memory} {slot : Nat}

/-- A part of a slot is known from the bytes of the slot. -/
theorem SlotPart.read_of_slot (h : Within (slotCells slot)ᶜ m m') (p : SlotPart) :
    p.read m' slot = p.read m slot :=
  read_of_within h (Set.disjoint_compl_right_iff_subset.mpr (p.cells_subset slot))

theorem Memory.scratch_of_slot (h : Within (slotCells slot)ᶜ m m') (s : Scratch) (t : Storage)
    (index : Nat) : m'.scratch slot s t index = m.scratch slot s t index := by
  rw [scratch, scratch]
  by_cases hslot : IsSlot slot
  · refine congrArg (checkSlot slot >>= ·) (funext fun _ => ?_)
    by_cases hrefused : s.Refused index t.width
    · obtain ⟨e, he⟩ := Scratch.exists_address_eq_error slot hrefused
      rw [he]
      rfl
    · rw [Scratch.address_eq_ok hslot t.width_le hrefused]
      exact h.fetchInt_eq fun i hlow hhigh => Set.notMem_compl_iff.mpr
        (Scratch.reach_subset_slotCells t.width_le hrefused ⟨hlow, hhigh⟩)
  · rw [checkSlot_eq_error hslot]
    rfl

end OwnSlot

namespace Component

/-- What is offered to conditions is known from the bytes of the slot of the entity. -/
def LooksAtSlot (accessor : Nat → Properties → Scratch → Memory → Except AccessError Context) :
    Prop :=
  ∀ slot p part m m', Within (slotCells slot)ᶜ m m' →
    accessor slot p part m' = accessor slot p part m

theorem kinematicContext_looksAtSlot : LooksAtSlot kinematicContext := by
  intro slot p part m m' h
  have hposition : m'.position slot = m.position slot := SlotPart.position.read_of_slot h
  have hvelocity : m'.velocity slot = m.velocity slot := SlotPart.velocity.read_of_slot h
  rw [kinematicContext, kinematicContext, hposition, hvelocity]

theorem healthContext_looksAtSlot : LooksAtSlot healthContext := by
  intro slot p part m m' h
  have hhealth : m'.field slot .health = m.field slot .health := SlotPart.health.read_of_slot h
  rw [healthContext, healthContext, hhealth]

theorem scratchContext_looksAtSlot (name : String) : LooksAtSlot (scratchContext name) := by
  intro slot p part m m' h
  rw [scratchContext, scratchContext, Memory.scratch_of_slot h]

theorem platformContext_looksAtSlot : LooksAtSlot platformContext := by
  intro slot p part m m' h
  have hvelocity : m'.velocity slot = m.velocity slot := SlotPart.velocity.read_of_slot h
  rw [platformContext, platformContext, hvelocity, Memory.scratch_of_slot h]

theorem pathContext_looksAtSlot : LooksAtSlot pathContext := by
  intro slot p part m m' h
  rw [pathContext, pathContext, Memory.scratch_of_slot h]

/-- The built-in components look at nothing but the slot of their entity. -/
theorem builtins_looksAtSlot {id : String} {component : Component}
    (h : Registry.builtins.get? id = some component) :
    ∀ accessor ∈ component.context, LooksAtSlot accessor := by
  suffices hall : ∀ e ∈ builtins, ∀ accessor ∈ e.2.context, LooksAtSlot accessor from
    hall (id, component) (Dictionary.mem_of_get?_ofList h)
  simp only [builtins, List.forall_mem_cons, Option.mem_some_iff, Option.not_mem_none, forall_eq',
    false_imp_iff, implies_true, true_and, and_true, List.not_mem_nil]
  exact ⟨kinematicContext_looksAtSlot, healthContext_looksAtSlot, scratchContext_looksAtSlot _,
    platformContext_looksAtSlot, scratchContext_looksAtSlot _, scratchContext_looksAtSlot _,
    pathContext_looksAtSlot⟩

end Component

/-! ## What names stand for -/

namespace StateRule

/-- The condition of a state, if it is well-formed. -/
def expr? (rule : StateRule) : Option Expr := (Expr.parse rule.condition.toList).toOption

/-- The condition of a state is well-formed and holds. -/
def holds (rule : StateRule) (read : String → Float) : Bool := rule.expr?.any (·.isTrue read)

end StateRule

namespace Simulation

variable (s : Simulation) (t : EntityType) (m : Memory) (slot : Nat)

/-- What a component offers under a name, nothing when its reading of the memory fails. -/
def offered (name : String) (c : String × Properties) : Option Float :=
  ((s.registry.get? c.1).bind Component.context).bind fun accessor =>
    (accessor slot c.2 (t.scratchOf c.1) m).toOption.bind fun values => values.lookup name

/-- The number in a variable of the script. -/
def global? (name : String) : Option Float :=
  (s.script.globals.get? name).bind fun v => (m.fetchNumber v.storage v.address).toOption

/-- What a name in a condition stands for: what the first component that offers the name has under
it, else the number in the variable, else zero. -/
def reading (name : String) : Float :=
  ((t.entity.allComponents.entries.findSome? (s.offered t m slot ("$" ++ name))).or
    (s.global? m name)).getD 0

/-- The first state of an entity whose condition is well-formed and holds. -/
def firstState : Option (String × StateRule) :=
  t.entity.states.entries.find? fun state => state.2.holds (s.reading t m slot)

variable {s t m slot}

theorem lookup_contextOf (name : String) (c : String × Properties) :
    (s.contextOf t m slot c).lookup name = s.offered t m slot name c := by
  unfold contextOf offered
  cases (s.registry.get? c.1).bind Component.context with
  | none => rfl
  | some accessor =>
    simp only [Option.bind_some]
    cases accessor slot c.2 (t.scratchOf c.1) m <;> rfl

theorem valueOf_eq_global? (name : String) :
    m.valueOf s.script.globals name = (s.global? m name).getD 0 := by
  unfold Memory.valueOf global?
  cases s.script.globals.get? name <;> rfl

theorem lookup_eq_reading : s.lookup t m slot = s.reading t m slot := by
  funext name
  unfold lookup reading context
  rw [lookup_flatMap]
  simp only [lookup_contextOf, valueOf_eq_global?]
  cases t.entity.allComponents.entries.findSome? (s.offered t m slot ("$" ++ name)) <;> rfl

/-! ## The first state whose condition holds -/

/-- The conditions of a type are those of its states, as far as they are well-formed. -/
theorem fst_readConditions (entity : String) (states : List (String × StateRule)) :
    (readConditions entity states).1 = states.map fun state => state.2.expr? := by
  induction states with
  | nil => rfl
  | cons state states ih =>
    rw [readConditions, List.map_cons, ← ih, StateRule.expr?]
    cases Expr.parse state.2.condition.toList <;> rfl

/-- The conditions of a type are read once, and hosts leave them as they are. -/
theorem conditions_of_mem_types {script : Script} {registry : Registry} {hosts : List KeyBindings}
    (ht : t ∈ (prepared script registry hosts).types) :
    t.conditions = t.entity.states.entries.map fun state => state.2.expr? := by
  have hmem := List.mem_map_of_mem (f := fun t => (t.entity, t.conditions)) ht
  rw [prepared_types_map script registry hosts _ fun _ _ => rfl] at hmem
  obtain ⟨e, -, heq⟩ := List.mem_map.mp hmem
  obtain ⟨hentity, hconditions⟩ := Prod.mk.inj heq
  rw [← hconditions, ← hentity]
  exact fst_readConditions e.1 e.2.states.entries

/-- An entity is in the first of its states whose condition holds. -/
theorem stateOf_eq_firstState
    (hconditions : t.conditions = t.entity.states.entries.map fun state => state.2.expr?) :
    s.stateOf t m slot = (s.firstState t m slot).map Prod.snd := by
  have hfind : t.conditions.findIdx? (conditionHolds (s.lookup t m slot)) =
      t.entity.states.entries.findIdx? fun state => state.2.holds (s.reading t m slot) := by
    rw [hconditions, List.findIdx?_map, lookup_eq_reading]
    rfl
  unfold stateOf
  split
  · -- without any well-formed condition there is nothing to look for
    rename_i hnone
    rw [hconditions, List.all_map, List.all_eq_true] at hnone
    have hfirst : s.firstState t m slot = none := by
      refine List.find?_eq_none.mpr fun state hstate => ?_
      have hbad : state.2.expr? = none := Option.isNone_iff_eq_none.mp (hnone state hstate)
      rw [StateRule.holds, hbad]
      exact Bool.false_ne_true
    rw [hfirst, Option.map_none]
  · rw [hfind, firstState, List.find?_eq_bind_findIdx?_getElem?]
    cases t.entity.states.entries.findIdx? fun state => state.2.holds (s.reading t m slot) <;> rfl

/-! ## What the state is known from -/

/-- What a built-in component offers is known from the slot of its entity. -/
theorem offered_of_slot (hregistry : s.registry = Registry.builtins)
    (h : Within (slotCells slot)ᶜ m m') (name : String) (c : String × Properties) :
    s.offered t m' slot name c = s.offered t m slot name c := by
  unfold offered
  rw [hregistry]
  refine Option.bind_congr fun accessor haccessor => ?_
  obtain ⟨component, hget, hcontext⟩ := Option.bind_eq_some_iff.mp haccessor
  rw [Component.builtins_looksAtSlot hget accessor hcontext slot c.2 _ m m' h]

/-- The number in a variable is known from the bytes of the variable. -/
theorem global?_of_cells (h : ∀ v ∈ s.script.globals.values, Within v.cellsᶜ m m') (name : String) :
    s.global? m' name = s.global? m name := by
  refine Option.bind_congr fun v hget => ?_
  have hv := h v (Table.mem_values_of_get? hget)
  rw [hv.fetchNumber_eq disjoint_compl_right]

/-- What a name stands for is known from the slot of the entity and from the variables. -/
theorem reading_of_cells (hregistry : s.registry = Registry.builtins)
    (hslot : Within (slotCells slot)ᶜ m m')
    (hglobals : ∀ v ∈ s.script.globals.values, Within v.cellsᶜ m m') :
    s.reading t m' slot = s.reading t m slot := by
  funext name
  unfold reading
  rw [global?_of_cells hglobals, funext (offered_of_slot hregistry hslot _)]

/--
**The state of an entity is decided by its own bytes and by the variables.** In a simulation of any
script with the built-in components, an entity is in the first of its states whose condition is
well-formed and holds, in none if there is no such state; a name in a condition stands for what the
first component that can offer it does, else for the variable, else for zero. In another memory of
the same size, with the same bytes in the slot of the entity and in the variables, it is the same
state.
-/
theorem stateOf_known_from_slot (script : Script) (hosts : List KeyBindings) :
    let s := ofBuiltins script hosts
    ∀ t ∈ s.types, ∀ m slot,
      s.stateOf t m slot = (s.firstState t m slot).map Prod.snd ∧
      ∀ m' : Memory, m'.size = m.size → (∀ i ∈ slotCells slot, m'.byte i = m.byte i) →
        (∀ v ∈ script.globals.values, ∀ i ∈ v.cells, m'.byte i = m.byte i) →
        s.firstState t m' slot = s.firstState t m slot ∧
          s.stateOf t m' slot = s.stateOf t m slot := by
  intro s t ht m slot
  have hconditions := @conditions_of_mem_types t script Registry.builtins hosts ht
  refine ⟨stateOf_eq_firstState hconditions, fun m' hsize hslot hglobals => ?_⟩
  have hslotWithin : Within (slotCells slot)ᶜ m m' :=
    ⟨hsize, fun i hi => hslot i (Set.notMem_compl_iff.mp hi)⟩
  have hreading : s.reading t m' slot = s.reading t m slot := by
    refine reading_of_cells (ofBuiltins_registry script hosts) hslotWithin fun v hv => ?_
    rw [ofBuiltins_script] at hv
    exact ⟨hsize, fun i hi => hglobals v hv i (Set.notMem_compl_iff.mp hi)⟩
  have hfirst : s.firstState t m' slot = s.firstState t m slot := by
    unfold firstState
    rw [hreading]
  refine ⟨hfirst, ?_⟩
  rw [stateOf_eq_firstState hconditions, stateOf_eq_firstState hconditions, hfirst]

/-- A guard walks when it has a velocity, and else it may be alarmed by a variable. -/
def guard : Entity :=
  { Entity.empty with
    components := .ofList [("Kinematic", ∅)]
    states := .ofList [("walking", ⟨"$vx", none, ∅⟩), ("alarmed", ⟨"$alarm", none, ∅⟩)] }

/-- A script with a guard and its variable. -/
def guardScript : Script :=
  { Script.empty with globals := .ofList [("alarm", ⟨20, .int8⟩)], entities := .ofList [("Guard", guard)] }

/-- A guard that stands still is alarmed, also when a byte elsewhere in the memory is changed. -/
theorem stateOf_known_from_slot_guard :
    let s := ofBuiltins guardScript []
    let t := (EntityType.ofEntity Registry.builtins .none "Guard" guard).1
    let m := (Memory.zeros 528).setByte 20 1
    t ∈ s.types ∧ (s.firstState t m 512).map Prod.fst = some "alarmed" ∧
      (∀ i ∈ slotCells 512, (m.setByte 40 7).byte i = m.byte i) ∧
      (s.firstState t (m.setByte 40 7) 512).map Prod.fst = some "alarmed" := by
  intro s t m
  have ht : t ∈ s.types := List.mem_cons_self
  have hstill : StateRule.holds ⟨"$vx", none, ∅⟩ (s.reading t m 512) = false := by
    have hparse : Expr.parse "$vx".toList = .ok (.var "vx") := Formula.parse_eq
      (f := .reference .dollar ⟨['v', 'x'], List.cons_ne_nil _ _, List.all_eq_true.mp rfl⟩)
      (.cons _ Text.blanks_nil (.nil Text.blanks_nil))
    rw [StateRule.holds, StateRule.expr?, hparse]
    decide +kernel
  have halarmed : StateRule.holds ⟨"$alarm", none, ∅⟩ (s.reading t m 512) = true := by
    have hparse : Expr.parse "$alarm".toList = .ok (.var "alarm") := Formula.parse_eq
      (f := .reference .dollar ⟨['a', 'l', 'a', 'r', 'm'], List.cons_ne_nil _ _,
        List.all_eq_true.mp rfl⟩)
      (.cons _ Text.blanks_nil (.nil Text.blanks_nil))
    rw [StateRule.holds, StateRule.expr?, hparse]
    decide +kernel
  have hfirst : s.firstState t m 512 = some ("alarmed", ⟨"$alarm", none, ∅⟩) := by
    refine (List.find?_cons_of_neg ?_).trans (List.find?_cons_of_pos halarmed)
    rw [hstill]
    exact Bool.false_ne_true
  have hbyte : ∀ i, i ≠ 40 → (m.setByte 40 7).byte i = m.byte i := fun i hi => by
    rw [Memory.byte_setByte, if_neg fun h => hi h.1]
  have hslot : ∀ i ∈ slotCells 512, (m.setByte 40 7).byte i = m.byte i := by
    rintro i ⟨hlow, -⟩
    exact hbyte i (by omega)
  have hglobals : ∀ v ∈ guardScript.globals.values, ∀ i ∈ v.cells,
      (m.setByte 40 7).byte i = m.byte i := by
    intro v hv i hi
    obtain rfl := List.mem_singleton.mp hv
    have hhigh : i < 21 := hi.2
    exact hbyte i (by omega)
  obtain ⟨-, hknown⟩ := stateOf_known_from_slot guardScript [] t ht m 512
  obtain ⟨hsame, -⟩ := hknown (m.setByte 40 7) (m.size_setByte 40 7) hslot hglobals
  rw [hsame, hfirst]
  exact ⟨ht, rfl, hslot, rfl⟩

end Simulation

end PixelScene
