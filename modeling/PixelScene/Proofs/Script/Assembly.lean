import PixelScene.Proofs.Script.Merge

/-!
# Scripts put together from parts

An imported script may itself be merged from others, so merges nest in any way. That the order of
the files alone counts, and not how the merges nest, is what makes merging associative. The keys of
a table are in the order of their declaration, and associativity keeps this order, too.

* `Script.absorb_assoc`, `Script.empty_absorb`: the laws of a monoid action.
* `Script.absorb_action`: all the laws together, for any scripts.

Assembled scripts are those that come out of parsing and merging. The parts of a merge are listed
(`Script.MergedFrom`), and both sides of associativity have one list. Names, imports, backgrounds,
layers and placements are not merged at all: they are the outermost script's own, which is why the
law is that of an action and not of a monoid.
-/

namespace PixelScene

namespace Script

/-! ## The laws -/

/-- However the merges of three scripts nest, the parts are the same in the same order. -/
theorem absorb_assoc (a b c : Script) : a.absorb (b.absorb c) = (a.absorb b).absorb c := by
  have hright : (a.absorb (b.absorb c)).MergedFrom [a, b, c] :=
    (MergedFrom.single a).absorb ((MergedFrom.single b).absorb (.single c))
  have hleft : ((a.absorb b).absorb c).MergedFrom [a, b, c] :=
    ((MergedFrom.single a).absorb (.single b)).absorb (.single c)
  exact hright.eq hleft ⟨rfl, rfl, rfl, rfl, rfl⟩

/-- Two scripts agree on all that an import hands on. -/
structure SameDefinitions (s t : Script) : Prop where
  globals : s.globals = t.globals
  entities : s.entities = t.entities
  events : s.events = t.events
  sprites : s.sprites = t.sprites
  spriteGrid : s.spriteGrid = t.spriteGrid
  inputs : s.inputs = t.inputs

theorem empty_absorb (s : Script) : SameDefinitions (empty.absorb s) s where
  globals := Table.empty_union s.globals
  entities := Table.empty_union s.entities
  events := List.nil_append s.events
  sprites := Table.empty_union s.sprites
  spriteGrid := Option.none_or
  inputs := Dictionary.empty_union s.inputs

theorem sameOwn_absorb (s t : Script) : SameOwn (s.absorb t) s :=
  (SameOwn.refl (s.absorb t)).of_absorb

/-- **Merging is a monoid action.** Merging `c` into `b` and the outcome into `a` is merging `b`
into `a` and then `c` into the outcome, down to the order of all names and events. The empty script
adds nothing, and takes over all that an import hands on. What is a script's own stays as it was. -/
theorem absorb_action (a b c : Script) :
    a.absorb (b.absorb c) = (a.absorb b).absorb c ∧ a.absorb empty = a ∧
      SameDefinitions (empty.absorb a) a ∧ ∀ t, SameOwn (a.absorb t) a :=
  ⟨absorb_assoc a b c, absorb_empty a, empty_absorb a, sameOwn_absorb a⟩

/-- An entity with a sprite and nothing else. -/
def shows (visual : String) : Entity := { Entity.empty with visual := some visual }

/-- A script with two entities and a key binding. -/
def gardenScript : Script :=
  { empty with entities := .ofList [("Hero", shows "hero"), ("Coin", shows "gem")]
               inputs := .ofList [("Space", "Jump")] }

/-- A script that has one of these entities, too, and binds the same key. -/
def caveScript : Script :=
  { empty with entities := .ofList [("Slime", shows "slime"), ("Hero", shows "ghost")]
               inputs := .ofList [("Space", "Fire")] }

theorem absorb_action_garden :
    let imported := caveScript.absorb gardenScript
    gardenScript.absorb (caveScript.absorb imported) =
        (gardenScript.absorb caveScript).absorb imported ∧
      SameDefinitions (empty.absorb gardenScript) gardenScript ∧
      (gardenScript.absorb (caveScript.absorb imported)).entities.keys =
        ["Hero", "Coin", "Slime"] := by
  intro imported
  obtain ⟨hassoc, -, hempty, -⟩ := absorb_action gardenScript caveScript imported
  exact ⟨hassoc, hempty, by decide⟩

end Script

end PixelScene
