import PixelScene.Proofs.Component.Frame
import PixelScene.Proofs.FirstWins
import PixelScene.Simulation.Tick

/-!
# The turns of entities

What an entity does in its turn is what its components do, and then it shows its sprite. Whatever
the state it is in, its components are among all the components of its type.

* `Simulation.mem_componentsIn`: the components of a state are components of the type.
* `Simulation.runEntity_keeps`: a turn keeps a relation that allows what these may do.
* `Simulation.prepared`: a script with the components of a registry and the key bindings of hosts;
  `Simulation.ofBuiltins` is the one with the built-in components.

A relation that the components of a type keep is kept by its turn, whatever its state and whichever
of the components fail. The simulations that statements are about are those made of a script, a
registry and the key bindings of hosts, in this order (`Simulation.prepared`); hosts change bindings
only (`Simulation.prepared_types_map`).
-/

namespace PixelScene

/-! ## Keys of tables -/

namespace Table

variable {α : Type}

theorem mem_keys_insert {t : Table α} {key other : String} {value : α} :
    other ∈ (t.insert key value).keys ↔ other = key ∨ other ∈ t.keys := by
  rw [← contains_iff_mem_keys, ← contains_iff_mem_keys, contains_eq_isSome, contains_eq_isSome,
    get?_insert]
  split
  · rename_i h
    exact ⟨fun _ => .inl h, fun _ => rfl⟩
  · rename_i h
    exact ⟨.inr, fun hmem => hmem.resolve_left h⟩

theorem mem_keys_union {t u : Table α} {key : String} :
    key ∈ (t.union u).keys ↔ key ∈ t.keys ∨ key ∈ u.keys := by
  simp only [← contains_iff_mem_keys, contains_eq_isSome, get?_union, Option.isSome_or,
    Bool.or_eq_true]

theorem mem_values_of_get? {t : Table α} {key : String} {value : α} (h : t.get? key = some value) :
    value ∈ t.values :=
  List.mem_map_of_mem (mem_of_lookup h)

end Table

namespace Entity

theorem mem_keys_allComponents {e : Entity} {key : String} : key ∈ e.allComponents.keys ↔
    key ∈ e.components.keys ∨ ∃ rule ∈ e.states.values, key ∈ rule.components.keys := by
  unfold allComponents
  generalize e.components = t
  induction e.states.values generalizing t with
  | nil => simp only [List.foldl_nil, List.not_mem_nil, false_and, exists_false, or_false]
  | cons rule rules ih =>
    rw [List.foldl_cons, ih, Table.mem_keys_union, or_assoc]
    simp only [List.mem_cons, exists_eq_or_imp]

/-- The components in a state are those of the entity and those of the state. -/
theorem mem_keys_componentsIn {e : Entity} {state : Option StateRule} {key : String} :
    key ∈ (e.componentsIn state).keys ↔
      key ∈ e.components.keys ∨ ∃ rule ∈ state, key ∈ rule.components.keys := by
  cases state with
  | none => simp only [componentsIn, Option.not_mem_none, false_and, exists_false, or_false]
  | some rule =>
    simp only [componentsIn, Option.mem_some_iff, exists_eq_left']
    unfold Table.keys
    generalize rule.components.entries = es
    generalize e.components = t
    induction es generalizing t with
    | nil => simp only [List.foldl_nil, List.map_nil, List.not_mem_nil, or_false]
    | cons c es ih =>
      rw [List.foldl_cons, ih]
      change _ ∈ (t.insert c.1 c.2).keys ∨ _ ↔ _ ∈ t.keys ∨ _
      rw [Table.mem_keys_insert, List.map_cons, List.mem_cons]
      tauto

end Entity

namespace Simulation

variable {s : Simulation} {t : EntityType} {held : Held} {geometry : Geometry} {slot : Nat}

/-! ## Components of a turn -/

/-- The state of an entity is one of those that its type declares. -/
theorem mem_values_of_stateOf {m : Memory} {rule : StateRule}
    (h : s.stateOf t m slot = some rule) : rule ∈ t.entity.states.values := by
  unfold stateOf at h
  split at h
  · exact absurd h nofun
  · split at h
    · obtain ⟨e, he, rfl⟩ := Option.map_eq_some_iff.mp h
      exact List.mem_map_of_mem (List.mem_of_getElem? he)
    · exact absurd h nofun

/-- The components that run in a turn are components of the type. -/
theorem mem_componentsIn {m : Memory} {c : String × Properties}
    (h : c ∈ (t.entity.componentsIn (s.stateOf t m slot)).entries) :
    c.1 ∈ t.entity.allComponents.keys := by
  have hkey : c.1 ∈ (t.entity.componentsIn (s.stateOf t m slot)).keys := List.mem_map_of_mem h
  rw [Entity.mem_keys_componentsIn] at hkey
  rw [Entity.mem_keys_allComponents]
  exact hkey.imp_right fun ⟨rule, hrule, hmem⟩ => ⟨rule, mem_values_of_stateOf hrule, hmem⟩

/-! ## What a turn keeps -/

/-- The type of the entity in a slot is one of those that are ready. -/
theorem mem_types_of_typeAt? {m : Memory} (h : s.typeAt? m slot = some t) : t ∈ s.types := by
  unfold typeAt? at h
  split at h
  · split at h
    · exact absurd h nofun
    · exact List.mem_of_getElem? h
  · exact absurd h nofun

theorem memory_runComponent {c : String × Properties} {component : Component}
    (h : s.registry.get? c.1 = some component) (wr : World × Report) :
    (s.runComponent t held geometry slot wr c).1.memory =
      (leaves (component.tick slot c.2 ⟨held, geometry, s.script, t.scratchOf c.1⟩) wr.1).memory := by
  unfold runComponent leaves
  dsimp only
  rw [h]
  dsimp only
  cases component.tick slot c.2 ⟨held, geometry, s.script, t.scratchOf c.1⟩ wr.1 <;> rfl

theorem memory_showSprite (number : Nat) (wr : World × Report) :
    (showSprite slot number wr).1.memory =
      leaves (Edit.setField slot .sprite number) wr.1.memory := by
  unfold showSprite leaves
  dsimp only
  cases Edit.setField slot .sprite number wr.1.memory <;> rfl

section Keeps

variable {R : Memory → Memory → Prop} [IsPreorder Memory R]

/-- A loop keeps between the memories what each of its rounds keeps. -/
theorem foldl_memory_keeps {α : Type} {step : World × Report → α → World × Report} {l : List α}
    (hstep : ∀ wr, ∀ a ∈ l, R wr.1.memory (step wr a).1.memory) (wr : World × Report) :
    R wr.1.memory (l.foldl step wr).1.memory :=
  foldl_keeps (f := fun wr : World × Report => wr.1.memory) hstep wr

theorem runComponent_keeps (hregistry : s.registry = Registry.builtins) {ids : List String}
    (hallows : Allows R s.script slot ids) {c : String × Properties} (hc : c.1 ∈ ids)
    (wr : World × Report) :
    R wr.1.memory (s.runComponent t held geometry slot wr c).1.memory := by
  cases hget : s.registry.get? c.1 with
  | none =>
    unfold runComponent
    rw [hget]
    exact Std.Refl.refl wr.1.memory
  | some component =>
    rw [memory_runComponent hget]
    exact Registry.builtins_keeps (hregistry ▸ hget) slot c.2 _ hc hallows wr.1

omit [IsPreorder Memory R] in
theorem showSprite_keeps (hdata : ∀ m m', Memory.Within poolData m m' → R m m') (number : Nat)
    (wr : World × Report) : R wr.1.memory (showSprite slot number wr).1.memory := by
  have hwithin := Edit.setField_slotData (f := .sprite) (by decide) (by decide) slot number
    wr.1.memory
  rw [memory_showSprite]
  exact hdata _ _ (hwithin.mono (slotData_subset_poolData slot))

/-- The turn of an entity keeps a relation that allows what the components of its type may do. -/
theorem runEntity_keeps (hregistry : s.registry = Registry.builtins)
    (hallows : Allows R s.script slot t.entity.allComponents.keys) (wr : World × Report) :
    R wr.1.memory (s.runEntity t held geometry slot wr).1.memory := by
  have hcomponents : R wr.1.memory ((t.entity.componentsIn (s.stateOf t wr.1.memory slot)).entries
      |>.foldl (s.runComponent t held geometry slot) wr).1.memory :=
    -- the state is that of the start of the turn, whatever the components do to it
    foldl_memory_keeps
      (fun wr c hc => runComponent_keeps hregistry hallows (mem_componentsIn hc) wr) wr
  exact IsTrans.trans _ _ _ hcomponents (showSprite_keeps hallows.data _ _)

theorem runSlot_keeps (hregistry : s.registry = Registry.builtins) (wr : World × Report)
    (hallows : ∀ t, s.typeAt? wr.1.memory slot = some t →
      Allows R s.script slot t.entity.allComponents.keys) :
    R wr.1.memory (s.runSlot held geometry wr slot).1.memory := by
  unfold runSlot
  split
  · rename_i t ht
    exact runEntity_keeps hregistry (hallows t ht) wr
  · exact Std.Refl.refl wr.1.memory

end Keeps

/-! ## Scripts with components and hosts -/

/-- A script made ready with the components of a registry and the key bindings of some hosts. -/
def prepared (script : Script) (registry : Registry) (hosts : List KeyBindings) : Simulation :=
  hosts.foldl withHost (ofScript script registry)

section Prepared

variable (script : Script) (registry : Registry) (hosts : List KeyBindings)

/-- The hosts change key bindings only. -/
theorem prepared_fixed {α : Type} (f : Simulation → α) (hf : ∀ s host, f s = f (s.withHost host)) :
    f (prepared script registry hosts) = f (ofScript script registry) :=
  (foldl_keeps (R := (· = ·)) (fun s host _ => hf s host) _).symm

@[simp] theorem prepared_script : (prepared script registry hosts).script = script :=
  prepared_fixed script registry hosts Simulation.script fun _ _ => rfl

@[simp] theorem prepared_registry : (prepared script registry hosts).registry = registry :=
  prepared_fixed script registry hosts Simulation.registry fun _ _ => rfl

@[simp] theorem prepared_atlas : (prepared script registry hosts).atlas = Atlas.ofScript script :=
  prepared_fixed script registry hosts Simulation.atlas fun _ _ => rfl

/-- What does not hang on its bindings, a type has from the entity that it is made of. -/
theorem prepared_types_map {α : Type} (f : EntityType → α)
    (hf : ∀ t bindings, f { t with bindings := bindings } = f t) :
    (prepared script registry hosts).types.map f =
      (script.entities.entries.take Script.maxTypes).map fun e =>
        f (EntityType.ofEntity registry (KeyBindings.ofPairs script.inputs.entries) e.1 e.2).1 := by
  have hhost : ∀ (s : Simulation) host, s.types.map f = (s.withHost host).types.map f := by
    intro s host
    rw [withHost, List.map_map]
    exact List.map_congr_left fun t _ => (hf t _).symm
  rw [prepared_fixed script registry hosts (fun s => s.types.map f) hhost, ofScript, List.map_map,
    List.map_map]
  rfl

/-- The types are those of the first entities of the script. -/
theorem prepared_entities : (prepared script registry hosts).types.map EntityType.entity =
    (script.entities.entries.take Script.maxTypes).map Prod.snd :=
  prepared_types_map script registry hosts EntityType.entity fun _ _ => rfl

end Prepared

/-! ## Scripts with the built-in components -/

/-- A script made ready with the built-in components, and with the key bindings of some hosts. -/
def ofBuiltins (script : Script) (hosts : List KeyBindings) : Simulation :=
  hosts.foldl withHost (ofScript script Registry.builtins)

section OfBuiltins

variable (script : Script) (hosts : List KeyBindings)

@[simp] theorem ofBuiltins_script : (ofBuiltins script hosts).script = script :=
  prepared_script script Registry.builtins hosts

@[simp] theorem ofBuiltins_registry : (ofBuiltins script hosts).registry = Registry.builtins :=
  prepared_registry script Registry.builtins hosts

/-- The simulation runs the types of its script with the built-in components. -/
structure Built (s : Simulation) : Prop where
  registry : s.registry = Registry.builtins
  entities : s.types.map EntityType.entity =
    (s.script.entities.entries.take Script.maxTypes).map Prod.snd

theorem built_ofBuiltins : (ofBuiltins script hosts).Built where
  registry := ofBuiltins_registry script hosts
  entities := by
    rw [ofBuiltins_script]
    exact prepared_entities script Registry.builtins hosts

end OfBuiltins

end Simulation

end PixelScene
