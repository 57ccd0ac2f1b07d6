import PixelScene.Json.Basic
import PixelScene.Memory.Storage

/-!
# Scripts

What a script declares: variables, entities with their components and states, events, sprites,
backgrounds and layers, key bindings, and the entities that are there from the start (`Document`).
Names are kept in the order of their declaration, since the number of an entity's type is its place
among the entities, counted from one.

* `Script.absorb` folds an imported script into the one that imports it, whose own definitions win
  (`merge_import`). Events come one after the other; imports, backgrounds, layers and placements are
  the importer's own.
* `Script.typeId?` and `Script.entityOfType?` go between names and type numbers, which have one
  byte.
* `Entity.componentIds`, `Entity.allComponents`, `Entity.componentsIn`: the three walks over the
  components of an entity and of its states, for scratch bytes, for the properties of all of them,
  and for those of one state.

Conditions, triggers and actions are texts here. They are read when the script is made ready to run,
so a script with a condition that makes no sense is still a script.
-/

namespace PixelScene

/-! ## Declarations -/

/-- A variable of the script: where it lives and how it is stored. -/
structure Variable where
  address : Nat
  storage : Storage
deriving DecidableEq, Repr

/-- What an entity shows and does while a condition holds. -/
structure StateRule where
  condition : String
  visual : Option String
  components : Table Properties

/-- A type of entity: its sprite, its own key bindings, its components and its states. -/
structure Entity where
  visual : Option String
  inputs : Dictionary String
  components : Table Properties
  states : Table StateRule

/-- What happens when a trigger fires. -/
structure EventRule where
  trigger : String
  actions : List String
deriving DecidableEq, Repr

/-- Where the pixels of a sprite are: cells of the grid, or a rectangle with an offset. -/
inductive Sprite where
  | grid (column row frames : Nat)
  | absolute (x y : Int) (width height : Nat) (offsetX offsetY : Int)
deriving DecidableEq, Repr

/-- A picture behind the scene, which may move more slowly than the camera. -/
structure Background where
  name : Option String
  source : String
  repeats : Bool
  parallaxX : Float32
  parallaxY : Float32

/-- A layer of the picture, from back to front. -/
inductive Layer where
  | entities
  | parallax (source : String) (repeats : Bool) (parallaxX parallaxY : Float32)
  | terrain (source : String) (repeats : Bool)
  | ui (source : String)

/-- An entity that is there from the start. -/
structure Placement where
  entity : String
  x : Int
  y : Int
deriving DecidableEq, Repr

/-- Everything that a script declares. -/
structure Script where
  source : Option String
  imports : List String
  globals : Table Variable
  entities : Table Entity
  events : List EventRule
  sprites : Table Sprite
  spriteGrid : Option Nat
  backgrounds : List Background
  layers : List Layer
  inputs : Dictionary String
  placements : List Placement

/-! ## Entities -/

namespace Entity

/-- The entity without anything. -/
def empty : Entity := ⟨none, ∅, ∅, ∅⟩

instance : Inhabited Entity := ⟨empty⟩

/-- The health of an entity that does not say how much it has. -/
def defaultHealth : Int := 100

/-- The health of a fresh entity: the `max` of its `Health` component. -/
def initialHealth (e : Entity) : Int :=
  match (e.components.get? "Health").bind (·.get? "max") with
  | some (.integer n) => Number.roundInt64 (Number.ofInt n)
  | some (.real x) => Number.roundInt64 x
  | _ => defaultHealth

/-- The names of the components of an entity and of all its states, each once, in the order of their
first declaration. -/
def componentIds (e : Entity) : List String :=
  e.states.values.foldl (fun ids s =>
    s.components.keys.foldl (fun ids id => if id ∈ ids then ids else ids ++ [id]) ids)
    e.components.keys

/-- The components of an entity and of all its states, each once, in the order of their first
declaration; a component that only states declare has the properties of the first of them. -/
def allComponents (e : Entity) : Table Properties :=
  e.states.values.foldl (fun t s => t.union s.components) e.components

/-- The components of an entity in a state: those of the state lie over those of the entity. -/
def componentsIn (e : Entity) (state : Option StateRule) : Table Properties :=
  match state with
  | none => e.components
  | some s => s.components.entries.foldl (fun t c => t.insert c.1 c.2) e.components

/-- The names of all components are those that they are found under, in the same order. -/
theorem keys_allComponents (e : Entity) : e.allComponents.keys = e.componentIds := by
  have hpush : ∀ (t : Table Properties) (c : String × Properties),
      (if c.1 ∈ t.keys then t.keys else t.keys ++ [c.1]) = (t.insertIfAbsent c.1 c.2).keys := by
    intro t c
    rw [Table.keys_insertIfAbsent]
    exact ite_congr (propext (t.contains_iff_mem_keys c.1).symm) (fun _ => rfl) fun _ => rfl
  have hunion : ∀ t u : Table Properties,
      u.keys.foldl (fun ids id => if id ∈ ids then ids else ids ++ [id]) t.keys =
        (t.union u).keys := by
    intro t u
    exact List.foldl_map.trans (List.foldl_hom Table.keys hpush)
  exact (List.foldl_hom Table.keys fun t s => hunion t s.components).symm

end Entity

/-! ## Scripts -/

namespace Script

/-- The script that declares nothing. -/
def empty : Script := ⟨none, [], ∅, ∅, [], ∅, none, [], [], ∅, []⟩

instance : Inhabited Script := ⟨empty⟩

/-- The side of a grid cell in a script that does not say. -/
def defaultGrid : Nat := 16

/-- The side of a cell of the sprite grid. -/
def gridSize (s : Script) : Nat := s.spriteGrid.getD defaultGrid

/-- Type numbers are one byte, and zero is no type. -/
def maxTypes : Nat := 255

/-- The type number of an entity. -/
def typeId? (s : Script) (entity : String) : Option Nat :=
  match s.entities.position? entity with
  | some i => if i < maxTypes then some (i + 1) else none
  | none => none

/-- The entity of a type number. -/
def entityOfType? (s : Script) (id : Nat) : Option (String × Entity) :=
  if id = 0 then none else s.entities.at? (id - 1)

/-- The health of a fresh entity of a type. -/
def freshHealth (s : Script) (id : Nat) : Int :=
  match s.entityOfType? id with
  | some (_, entity) => entity.initialHealth
  | none => Entity.defaultHealth

/--
A script with the definitions of an imported one. What both define stays as it was; the events of
the import come after those that are there.
-/
def absorb (s imported : Script) : Script :=
  { s with
    globals := s.globals.union imported.globals
    entities := s.entities.union imported.entities
    events := s.events ++ imported.events
    sprites := s.sprites.union imported.sprites
    spriteGrid := s.spriteGrid.or imported.spriteGrid
    inputs := s.inputs.union imported.inputs }

end Script

end PixelScene
