import PixelScene.Input
import PixelScene.Script.Basic
import PixelScene.World

/-!
# Components

A component is a piece of behaviour that a type of entity attaches, with properties. In every tick
it may change the world; it may need scratch bytes in the slot of its entity, and it may offer
values to the conditions of states (`RegisteredComponent`, `ComponentRegistry`).

* `Properties.number`, `Properties.text?`, `Properties.flag`: the readings of a property.
* A `Tick` is a sequence of changes that stops at the first fault and keeps what was done before.
* A `Registry` holds the components that scripts can name. A host may put in its own, with any
  number of scratch bytes that a 64-bit word holds.

A component is a function here: a host's component that keeps state of its own, outside the world,
or that never returns, is left out. Properties are JSON values, and a property of the wrong kind
reads as if it were not there.
-/

namespace PixelScene

/-! ## Properties -/

namespace Properties

/-- The number in a property: a number, a text that spells one, or a flag. -/
def number (p : Properties) (key : String) (default : Float) : Float :=
  match p.get? key with
  | some (.integer n) => Number.ofInt n
  | some (.real x) => x
  | some (.text s) => (Number.number? (Text.trim s.toList)).getD default
  | some (.bool b) => if b then 1 else 0
  | _ => default

/-- The text in a property, without blanks around it; blank texts do not count. -/
def text? (p : Properties) (key : String) : Option String :=
  match p.get? key with
  | some (.text s) => if Text.nonBlank s then some (Text.trimmed s) else none
  | _ => none

/-- The flag in a property: a flag, or a number that is zero or not. -/
def flag (p : Properties) (key : String) (default : Bool) : Bool :=
  match p.get? key with
  | some (.bool b) => b
  | some (.integer n) => n != 0
  | some (.real x) => x != 0
  | _ => default

/-- A property rounded to an integer, zero when it is not finite. -/
def rounded (p : Properties) (key : String) (default : Float) : Int :=
  Number.roundFinite (p.number key default)

theorem rounded_mem (p : Properties) (key : String) (default : Float) :
    Number.int64Min ≤ p.rounded key default ∧ p.rounded key default ≤ Number.int64Max :=
  Number.roundFinite_mem _

/-- A property in single precision. -/
def single (p : Properties) (key : String) (default : Float) : Float32 :=
  Number.narrow (p.number key default)

end Properties

/-! ## Ticks -/

/-- Why a component fails in a tick. -/
inductive ComponentFault where
  | access (e : AccessError)
  | missingEntity
  | unknownEntity (name : String)
  | custom (message : String)
deriving DecidableEq, Repr

/-- The wording of a fault. -/
def ComponentFault.message : ComponentFault → String
  | access e => e.message
  | missingEntity => "Spawner needs an `entity` prop"
  | unknownEntity name => s!"Spawner entity '{name}' is not defined"
  | custom message => message

/-- A sequence of changes to the world that may fail on the way. -/
abbrev Tick (α : Type) := EStateM ComponentFault World α

namespace Tick

/-- Changes to the memory of the world. -/
def edit {α : Type} (e : Edit α) : Tick α := fun w =>
  match e w.memory with
  | .ok a m => .ok a { w with memory := m }
  | .error fault m => .error (.access fault) { w with memory := m }

/-- A reading of the memory of the world. -/
def read {α : Type} (f : Memory → Except AccessError α) : Tick α := edit (Edit.read f)

end Tick

/-- What a component sees besides the world. -/
structure Surroundings where
  held : Held
  geometry : Geometry
  script : Script
  scratch : Scratch

namespace Surroundings

/-- The type number that the `target` property names: `none` when it names nothing, and
`some none` when it names no type. -/
def target? (env : Surroundings) (p : Properties) : Option (Option Nat) :=
  (p.text? "target").map env.script.typeId?

end Surroundings

/-! ## Components -/

/-- The values that a component offers to conditions, by name with the `$` in front. -/
abbrev Context := List (String × Float)

/-- A component. The number of scratch bytes that it needs is a 64-bit word. -/
structure Component where
  tick : (slot : Nat) → Properties → Surroundings → Tick Unit
  context : Option ((slot : Nat) → Properties → Scratch → Memory → Except AccessError Context)
  need : UInt64

/-- The number of scratch bytes that a component needs. -/
def Component.scratchBytes (c : Component) : Nat := c.need.toNat

theorem Component.scratchBytes_lt (c : Component) : c.scratchBytes < 18446744073709551616 :=
  c.need.toNat_lt

/-- The components that scripts can name. -/
abbrev Registry := Dictionary Component

namespace Registry

/-- The names of the components, ascending. -/
def ids (r : Registry) : List String := r.keys

/-- Removes a component. -/
def remove (r : Registry) (id : String) : Registry := r.erase id

end Registry

namespace Component

/-- A component of a host: it does nothing, or always fails with a message. -/
def custom (scratchBytes : Nat) (message : Option String) : Component :=
  { tick := fun _ _ _ =>
      match message with
      | some m => throw (.custom m)
      | none => return
    context := none
    need := UInt64.ofNat scratchBytes }

end Component

end PixelScene
