import PixelScene.Node.Block
import PixelScene.Script.Basic

/-!
# Statements

The statements of a script give its tree of nodes a meaning. Each top-level key is one statement,
and statements are read from top to bottom into one script; keys without a meaning are skipped
(`parse_document`).

* `ScriptFault` is what can be wrong with a statement, `ScriptError` adds the faults of layout.
* `Keyword` are the kinds of statements, `Script.apply` is what one statement does to a script.
* `Script.ofNode` reads a tree, `Script.parse` a source text.

The first fault ends the reading, with the wording of the engine, and nothing of the script remains.
A fault of a statement has no line: the tree does not remember the lines that it was read from. A
number that has to lie within bounds is compared as a double, and what is not a number is neither
below nor above a bound.
-/

namespace PixelScene

/-! ## Errors -/

/-- What can be wrong with the statements of a script. -/
inductive ScriptFault where
  | notStatements (kind : String)
  | unnamedEntity
  | notNumber (what : String)
  | notText (what : String)
  | wrongKind (what expected kind : String)
  | unnamedVariable
  | unknownStorage (name storage : String)
  | missingCondition (state entity : String)
  | actionsNotTexts (trigger : String)
  | actionsNotList (trigger : String)
  | badEvent
  | tooManyFrames (sprite : String) (frames : Float)
  | badCells (sprite : String)
  | gridTooSmall (size : Float)
  | badLayer
  | unknownLayer (kind : String)

/-- The most frames of a sprite: sprite numbers are one byte, and zero is no sprite. -/
def maxFrames : Nat := 255

namespace ScriptFault

/-- The wording of a fault. -/
def text : ScriptFault → String
  | notStatements kind => s!"expected top-level statements, found a {kind}"
  | unnamedEntity => "entity declaration is missing a name"
  | notNumber what => s!"{what} must be a number"
  | notText what => s!"{what} must be a non-empty string"
  | wrongKind what expected kind => s!"{what} must be {expected}, found a {kind}"
  | unnamedVariable => "schema entry is missing a name"
  | unknownStorage name storage => s!"schema '{name}' has unknown type '{storage}'"
  | missingCondition state entity => s!"state '{state}' of Entity.{entity} is missing a condition"
  | actionsNotTexts trigger => s!"actions of '{trigger}' must be strings"
  | actionsNotList trigger => s!"actions of '{trigger}' must be a string or list"
  | badEvent => "each event needs a `trigger` and `actions`"
  | tooManyFrames sprite frames =>
    let count := Number.scriptText frames
    s!"sprite '{sprite}' has {count} frames; a sprite id is one byte, so at most {maxFrames}"
  | badCells sprite => s!"sprite '{sprite}' must be [col,row] or [col,row,frames>=1]"
  | gridTooSmall size =>
    let side := Number.scriptText size
    s!"$Grid must be at least 1, got {side}"
  | badLayer => "layer must be \"Entities\" or a single-key object"
  | unknownLayer kind => s!"unknown layer kind '{kind}'"

end ScriptFault

/-- Why a text is no script. -/
inductive ScriptError where
  | layout (e : ReadError)
  | statement (fault : ScriptFault)

namespace ScriptError

/-- The line of an error, when it has one. -/
def line? : ScriptError → Option Nat
  | layout e => some e.line
  | statement _ => none

/-- The wording of an error without its line. -/
def text : ScriptError → String
  | layout e => e.fault.text
  | statement fault => fault.text

/-- The wording of an error. -/
def message : ScriptError → String
  | layout e => e.message
  | statement fault => fault.text

end ScriptError

namespace Statement

/-! ## Fields -/

/-- The first value under a key of a node. -/
def field (node : Node) (key : String) : Node := (node.get? key).getD .null

/-- A number that has to be there. -/
def number (node : Node) (what : String) : Except ScriptFault Float :=
  match node.asNumber? with
  | some x => .ok x
  | none => .error (.notNumber what)

/-- A number that may be missing. -/
def numberOr (node : Node) (default : Float) (what : String) : Except ScriptFault Float :=
  match node with
  | .null => .ok default
  | _ => number node what

/-- A text with more than blanks in it. -/
def solidText? (node : Node) : Option String := node.asText?.filter Text.nonBlank

/-- A text that has to be there. -/
def text (node : Node) (what : String) : Except ScriptFault String :=
  match solidText? node with
  | some s => .ok s
  | none => .error (.notText what)

/-- A flag that may be missing. -/
def flagOr (node : Node) (default : Bool) : Bool := node.asFlag?.getD default

/-- The entries of a mapping, none of a missing one. -/
def entries (node : Node) (what : String) : Except ScriptFault (List (String × Node)) :=
  match node with
  | .map entries => .ok entries
  | .null => .ok []
  | other => .error (.wrongKind what "an object" other.kind)

/-- The items of a list, none of a missing one. -/
def items (node : Node) (what : String) : Except ScriptFault (List Node) :=
  match node with
  | .list items => .ok items
  | .null => .ok []
  | other => .error (.wrongKind what "a list" other.kind)

/-! ## Properties -/

/-- Whole numbers below this bound are integers as properties. -/
def wholeProperty : Int := 9 * Number.tenTo 15

/-- A number as a property: an integer if it is whole and not too large. -/
def numberProperty (x : Float) : Json :=
  let n := Number.truncateInt64 x
  if Number.isIntegral x && -wholeProperty < n && n < wholeProperty then .integer n
  else if x.isFinite then .real x else .null

mutual

/-- A node as a property. -/
def property : Node → Json
  | .null => .null
  | .bool b => .bool b
  | .number x => numberProperty x
  | .text s => .text s
  | .list items => .list (propertyList items)
  | .map entries => .object (Dictionary.ofList (propertyFields entries)).entries

/-- Nodes as properties. -/
def propertyList : List Node → List Json
  | [] => []
  | n :: ns => property n :: propertyList ns

/-- Entries as properties. -/
def propertyFields : List (String × Node) → List (String × Json)
  | [] => []
  | (k, n) :: es => (k, property n) :: propertyFields es

end

/-- The properties that the entries of a mapping give. -/
def properties (entries : List (String × Node)) : Properties :=
  Dictionary.ofList (propertyFields entries)

/-! ## Imports -/

mutual

/-- The paths of an import statement: one, or any nesting of lists of them. -/
def imports : Node → List String
  | .list items => importsOfList items
  | node =>
    match solidText? node with
    | some s => [Text.trimmed s]
    | none => []

/-- The paths of several import statements. -/
def importsOfList : List Node → List String
  | [] => []
  | n :: ns => imports n ++ importsOfList ns

end

/-! ## Variables -/

/-- The name of a variable: without blanks around it, and without the `$` in front. -/
def variableName (name : String) : String :=
  String.ofList ((Text.trim name.toList).dropWhile (· == '$'))

/-- The storage type of a variable, one byte when none is given. -/
def storage (name : String) (node : Node) : Except ScriptFault Storage :=
  match node.asText? with
  | none => .ok .int8
  | some raw =>
    match Storage.ofName? raw.toList with
    | some t => .ok t
    | none => .error (.unknownStorage name raw)

/-- Declares a variable; one with a negative address is dropped. -/
def declare (table : Table Variable) (rawName : String) (body : Node) :
    Except ScriptFault (Table Variable) := do
  let name := variableName rawName
  if name.isEmpty then throw .unnamedVariable
  let address ← number (field body "addr") s!"schema '{name}' addr"
  if address < 0 then return table
  let t ← storage name (field body "type")
  return table.insert name ⟨Number.truncateWord64 address, t⟩

/-- Declares the variables of a statement. -/
def declareAll (table : Table Variable) : Node → Except ScriptFault (Table Variable)
  | .list items => items.foldlM (fun t item => do
      let name ← text (field item "name") "schema entry name"
      declare t name item) table
  | .map entries => entries.foldlM (fun t e => declare t e.1 e.2) table
  | .null => .ok table
  | other => .error (.wrongKind "Schema" "a list or object" other.kind)

/-! ## Key bindings -/

/-- The bindings of a statement, from keys to actions. -/
def bindings (owner : String) (node : Node) : Except ScriptFault (Dictionary String) := do
  (← entries node s!"{owner} bindings").foldlM (fun d e => do
    let action ← text e.2 s!"{owner} binding '{e.1}'"
    return d.insert e.1 action) ∅

/-! ## Entities -/

/-- Adds an entry of a state: its visual, or the properties of a component. -/
def stateEntry (s : StateRule) (key : String) (body : Node) : StateRule :=
  if key = "condition" then s
  else if key = "Visual" ∨ key = "visual" then { s with visual := body.asText? }
  else match body with
    | .map entries => { s with components := s.components.insert key (properties entries) }
    | _ => s

/-- A state of an entity. -/
def state (entity name : String) (body : Node) : Except ScriptFault StateRule :=
  match solidText? (field body "condition") with
  | none => .error (.missingCondition name entity)
  | some condition =>
    .ok ((body.entries?.getD []).foldl (fun s e => stateEntry s e.1 e.2) ⟨condition, none, ∅⟩)

/-- The states of an entity. -/
def states (entity : String) (node : Node) : Except ScriptFault (Table StateRule) := do
  (← entries node s!"Entity.{entity}.States").foldlM (fun t e => do
    return t.insert e.1 (← state entity e.1 e.2)) ∅

/-- Adds an entry of an entity: its visual, bindings or states, or the properties of a component. -/
def entityEntry (name : String) (e : Entity) (key : String) (body : Node) :
    Except ScriptFault Entity := do
  if key = "Visual" then return { e with visual := body.asText? }
  else if key = "Input" then return { e with inputs := ← bindings s!"Entity.{name}.Input" body }
  else if key = "States" then return { e with states := ← states name body }
  else match body with
    | .map entries => return { e with components := e.components.insert key (properties entries) }
    | _ => return e

/-- A type of entity. -/
def entity (name : String) (node : Node) : Except ScriptFault Entity := do
  (← entries node s!"Entity.{name}").foldlM (fun e p => entityEntry name e p.1 p.2) Entity.empty

/-! ## Events -/

/-- The actions of an event: a list of texts, or a single one. -/
def actions (trigger : String) : Node → Except ScriptFault (List String)
  | .list items => items.mapM fun item =>
    match item.asText? with
    | some s => .ok s
    | none => .error (.actionsNotTexts trigger)
  | .null => .ok []
  | other =>
    match other.asText? with
    | some s => .ok [s]
    | none => .error (.actionsNotList trigger)

/-- An event: a trigger and its actions under their names, or the trigger as the only key. -/
def event (node : Node) : Except ScriptFault EventRule := do
  match node.get? "trigger" with
  | some t =>
    let trigger ← text t "event trigger"
    return ⟨trigger, ← actions trigger (field node "actions")⟩
  | none =>
    match node with
    | .map [(trigger, body)] => return ⟨trigger, ← actions trigger body⟩
    | _ => throw .badEvent

/-! ## Sprites -/

/-- A sprite on the grid: column and row, and the number of frames when there are several. -/
def gridSprite (name : String) (cells : List Float) : Except ScriptFault Sprite :=
  match cells with
  | [column, row] => .ok (.grid (Number.truncateWord32 column) (Number.truncateWord32 row) 1)
  | [column, row, frames] =>
    if Number.ofInt maxFrames < frames then .error (.tooManyFrames name frames)
    else if 1 ≤ frames then
      .ok (.grid (Number.truncateWord32 column) (Number.truncateWord32 row)
        (Number.truncateWord32 frames))
    else .error (.badCells name)
  | _ => .error (.badCells name)

/-- A sprite, on the grid or anywhere. -/
def sprite (name : String) (node : Node) : Except ScriptFault Sprite :=
  match node with
  | .list cells => do
    gridSprite name (← cells.mapM fun cell => number cell s!"sprite '{name}' cell")
  | .map _ => do
    let part := fun key => number (field node key) s!"sprite '{name}' {key}"
    let x ← part "x"
    let y ← part "y"
    let width ← part "w"
    let height ← part "h"
    let offsetX ← numberOr (field node "ox") 0 "sprite ox"
    let offsetY ← numberOr (field node "oy") 0 "sprite oy"
    return .absolute (Number.truncateInt32 x) (Number.truncateInt32 y)
      (Number.truncateWord32 width) (Number.truncateWord32 height)
      (Number.truncateInt32 offsetX) (Number.truncateInt32 offsetY)
  | other => .error (.wrongKind s!"sprite '{name}'" "a list or object" other.kind)

/-- The key that sets the side of a grid cell. -/
def gridKey : String := "$Grid"

/-- Adds an entry of a sprite statement: the side of a grid cell, or a sprite. -/
def spriteEntry (s : Script) (name : String) (body : Node) : Except ScriptFault Script := do
  if name = gridKey then
    let size ← number body gridKey
    if size < 1 then throw (.gridTooSmall size)
    return { s with spriteGrid := some (Number.truncateWord32 size) }
  else return { s with sprites := s.sprites.insert name (← sprite name body) }

/-! ## Backgrounds and layers -/

/-- How far a picture moves with the camera. -/
def parallax (body : Node) (key : String) : Except ScriptFault Float32 := do
  return Number.narrow (← numberOr (field body key) 1 key)

/-- A background: the path of a picture, or a mapping. -/
def background (name : Option String) (body : Node) : Except ScriptFault Background := do
  match body with
  | .text source => return ⟨name, source, false, 1, 1⟩
  | _ =>
    let source ← text (field body "source") "background source"
    let parallaxX ← parallax body "parallaxX"
    let parallaxY ← parallax body "parallaxY"
    return ⟨name, source, flagOr (field body "repeat") false, parallaxX, parallaxY⟩

/-- The backgrounds of a statement. -/
def backgrounds : Node → Except ScriptFault (List Background)
  | .list items => items.mapM (background none)
  | .map entries => entries.mapM fun e => background (some e.1) e.2
  | .null => .ok []
  | other => .error (.wrongKind "Backgrounds" "a list" other.kind)

/-- A layer of a given kind. -/
def layerOfKind (kind : String) (body : Node) : Except ScriptFault Layer := do
  if kind = "Entities" then return .entities
  else if kind = "Parallax" then
    let source ← text (field body "source") "Parallax source"
    let parallaxX ← parallax body "parallaxX"
    let parallaxY ← parallax body "parallaxY"
    return .parallax source (flagOr (field body "repeat") false) parallaxX parallaxY
  else if kind = "Terrain" then
    let source ← text (field body "source") "Terrain source"
    return .terrain source (flagOr (field body "repeat") false)
  else if kind = "UI" then return .ui (← text (field body "source") "UI source")
  else throw (.unknownLayer kind)

/-- A layer: the entities, or a mapping with the kind as its only key. -/
def layer (node : Node) : Except ScriptFault Layer :=
  match node with
  | .text "Entities" => .ok .entities
  | .map [(kind, body)] => layerOfKind kind body
  | _ => .error .badLayer

/-! ## Placements -/

/-- A coordinate, zero when it is missing. -/
def coordinate (node : Node) (what : String) : Except ScriptFault Int := do
  return Number.roundInt64 (← numberOr node 0 what)

/-- An entity that is there from the start. -/
def placement (node : Node) : Except ScriptFault Placement := do
  let entity ← text (field node "entity") "instance entity"
  let x ← coordinate (field node "x") "instance x"
  let y ← coordinate (field node "y") "instance y"
  return ⟨entity, x, y⟩

/-! ## Statements -/

/-- What the key of a statement announces. -/
inductive Keyword where
  | entity (name : List Char)
  | source
  | imports
  | globals
  | events
  | sprites
  | backgrounds
  | layers
  | inputs
  | placements
  | unknown
deriving DecidableEq, Repr

/-- The keyword that a key spells. -/
def keyword (key : String) : Keyword :=
  match Text.dropFront? "Entity.".toList key.toList with
  | some name => .entity (Text.trim name)
  | none =>
    match key with
    | "Source" => .source
    | "Import" => .imports
    | "Schema" => .globals
    | "Events" => .events
    | "Sprites" => .sprites
    | "Backgrounds" => .backgrounds
    | "Layers" => .layers
    | "Input" => .inputs
    | "Instances" => .placements
    | _ => .unknown

/-- A script with one more statement. -/
def apply (s : Script) (word : Keyword) (body : Node) : Except ScriptFault Script := do
  match word with
  | .entity name =>
    if name.isEmpty then throw .unnamedEntity
    let name := String.ofList name
    return { s with entities := s.entities.insert name (← entity name body) }
  | .source => return { s with source := solidText? body }
  | .imports => return { s with imports := s.imports ++ imports body }
  | .globals => return { s with globals := ← declareAll s.globals body }
  | .events => return { s with events := s.events ++ (← (← items body "Events").mapM event) }
  | .sprites =>
    (← entries body "Sprites").foldlM (fun s e => spriteEntry s e.1 e.2) s
  | .backgrounds => return { s with backgrounds := s.backgrounds ++ (← backgrounds body) }
  | .layers => return { s with layers := s.layers ++ (← (← items body "Layers").mapM layer) }
  | .inputs => return { s with inputs := s.inputs.override (← bindings "Input" body) }
  | .placements =>
    return { s with placements := s.placements ++ (← (← items body "Instances").mapM placement) }
  | .unknown => return s

end Statement

/-! ## Whole scripts -/

namespace Script

/-- The script of a list of statements, read from the first to the last. -/
def ofStatements (statements : List (String × Node)) : Except ScriptFault Script :=
  statements.foldlM (fun s e => Statement.apply s (Statement.keyword e.1) e.2) empty

/-- The script of a tree. -/
def ofNode : Node → Except ScriptFault Script
  | .map statements => ofStatements statements
  | .null => .ok empty
  | other => .error (.notStatements other.kind)

/-- The script of a source text. -/
def parse (source : List Char) : Except ScriptError Script := do
  let root ← (Node.read source).mapError .layout
  (ofNode root).mapError .statement

end Script

end PixelScene
