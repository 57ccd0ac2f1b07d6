import PixelScene.Proofs.Simulation.Faults
import PixelScene.Proofs.Simulation.ScratchParts

/-!
# Which components an entity has

Three walks go over the components of an entity and of its states. `Entity.componentIds` lists those
that are considered for scratch bytes, `Entity.componentsIn` those that run in a state, and
`Entity.allComponents` those whose values the conditions see. They agree, so a component that runs
or offers values has its entry among the scratch bytes of the type.

* `Entity.firstWins_allComponents`: of several declarations the first counts.
* `mem_keys_allotScratch`: who is considered for scratch bytes.
* `Entity.walks_agree`: what the three walks come to, and that they agree.

The three walks are separate loops in the engine (`all_component_ids`, `merge_components`,
`attachable_components`), and a component that ran without having been considered for scratch bytes
would fail in every tick. In a state its own properties of a component count, and among all
components those of the entity, or else of the first state that declares it.
-/

namespace PixelScene

/-! ## Entities -/

namespace Entity

/-- The components in a state are those of the entity, with those of the state laid over them. -/
theorem entries_componentsIn (e : Entity) (rule : StateRule) :
    (e.componentsIn (some rule)).entries =
      (e.components.entries.map fun c => (c.1, (rule.components.get? c.1).getD c.2)) ++
        rule.components.entries.filter fun c => c.1 ∉ e.components.keys :=
  e.components.entries_overlay rule.components.distinct

/-- Of several declarations of a component the first counts. -/
theorem firstWins_allComponents (e : Entity) :
    e.allComponents.FirstWins (e.components :: e.states.values.map StateRule.components) := by
  suffices hfold : ∀ (rules : List StateRule) (t : Table Properties) (parts : List (Table Properties)),
      t.FirstWins parts → (rules.foldl (fun t s => t.union s.components) t).FirstWins
        (parts ++ rules.map StateRule.components) from
    hfold _ _ [e.components] (.single e.components)
  intro rules
  induction rules with
  | nil =>
    intro t parts ht
    rwa [List.map_nil, List.append_nil]
  | cons rule rules ih =>
    intro t parts ht
    rw [List.map_cons, List.append_cons]
    exact ih _ _ (ht.union (.single rule.components))

/-- Every component runs in some state that the entity can be in, and no others do. -/
theorem mem_keys_allComponents_iff_exists_state {e : Entity} {id : String} :
    id ∈ e.allComponents.keys ↔
      ∃ state, (∀ rule ∈ state, rule ∈ e.states.values) ∧ id ∈ (e.componentsIn state).keys := by
  simp only [mem_keys_allComponents, mem_keys_componentsIn]
  constructor
  · rintro (hbase | ⟨rule, hrule, hid⟩)
    · exact ⟨none, nofun, .inl hbase⟩
    · exact ⟨some rule, fun other hother => Option.mem_some_iff.mp hother ▸ hrule,
        .inr ⟨rule, rfl, hid⟩⟩
  · rintro ⟨state, hstate, hbase | ⟨rule, hrule, hid⟩⟩
    · exact .inl hbase
    · exact .inr ⟨rule, hstate rule hrule, hid⟩

end Entity

/-! ## The walks agree -/

namespace Entity

/--
**The walks over the components of an entity agree.** In a state, each component comes once: those
of the entity in their order, then those that only the state has in its order, with the properties
that the state gives or else those of the entity. Those whose values the conditions see are the ones
that are considered for scratch bytes, in the same order, each with its first declaration. So every
known component that needs scratch bytes and that can run or offer values has an entry in the type.
-/
theorem walks_agree (e : Entity) :
    e.componentsIn none = e.components ∧
    (∀ rule ∈ e.states.values, (e.componentsIn (some rule)).keys.Nodup ∧
      (e.componentsIn (some rule)).entries =
        (e.components.entries.map fun c => (c.1, (rule.components.get? c.1).getD c.2)) ++
          rule.components.entries.filter fun c => c.1 ∉ e.components.keys) ∧
    e.allComponents.keys = e.componentIds ∧
    e.allComponents.FirstWins (e.components :: e.states.values.map StateRule.components) ∧
    ∀ registry shared name id, registry.NeedsScratch id →
      (id ∈ e.allComponents.keys ∨
        ∃ state, (∀ rule ∈ state, rule ∈ e.states.values) ∧ id ∈ (e.componentsIn state).keys) →
      ((EntityType.ofEntity registry shared name e).1.scratch.get? id).isSome = true := by
  refine ⟨rfl, fun rule _ => ⟨Table.nodup_keys _, e.entries_componentsIn rule⟩,
    e.keys_allComponents, e.firstWins_allComponents, fun registry shared name id hneeds hid => ?_⟩
  · refine EntityType.isSome_scratch_iff.mpr ⟨?_, hneeds⟩
    rcases hid with hall | hstate
    · exact hall
    · exact mem_keys_allComponents_iff_exists_state.mpr hstate

/-- A sentry lives for a while, longer when it is alarmed, and then it also calls for help. -/
def sentry : Entity :=
  { visual := none
    inputs := ∅
    components := .ofList [("Lifetime", .ofList [("frames", .text "60")]), ("Kinematic", ∅)]
    states := .ofList [("alarmed", ⟨"$triggered == 1", none,
      .ofList [("Spawner", ∅), ("Lifetime", .ofList [("frames", .text "90")])]⟩)] }

theorem walks_agree_sentry :
    (∀ rule ∈ sentry.states.values,
      (sentry.componentsIn (some rule)).keys = ["Lifetime", "Kinematic", "Spawner"]) ∧
    ((EntityType.ofEntity Registry.builtins .none "Sentry" sentry).1.scratch.get?
      "Spawner").isSome = true := by
  obtain ⟨-, hmerged, hkeys, -, hscratch⟩ := walks_agree sentry
  refine ⟨fun rule hrule => ?_, ?_⟩
  · rw [Table.keys, (hmerged rule hrule).2]
    obtain rfl := List.mem_singleton.mp hrule
    decide
  · refine hscratch Registry.builtins .none "Sentry" "Spawner" ⟨_, rfl, Nat.one_pos⟩ (.inl ?_)
    rw [hkeys]
    decide

end Entity

end PixelScene
