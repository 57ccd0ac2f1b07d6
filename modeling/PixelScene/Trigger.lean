import PixelScene.Camera
import PixelScene.Expression.Parser
import PixelScene.Input
import PixelScene.Script.Basic

/-!
# Triggers and actions

An event of a script has a trigger and actions. A trigger fires in every frame, while an action is
held, while two colours touch on the canvas, or while a condition on the variables holds. An action
sets, raises or lowers a variable.

* `Trigger.parse`, `Trigger.fires`: reading a trigger and asking whether it fires.
* `touches`: some pixel of one colour has a neighbour of the other, above, below or beside it.
* `Assignment.parse`, `Assignment.apply`: reading an action and carrying it out.

These are `parse_trigger`, `colors_adjacent`, `parse_action` and `read_global` of the engine, with
the wording of their errors. A variable that cannot be read counts as zero; one that cannot be
written is a fault, which the tick reports. Touching looks at the bytes of the memory alone: what a
host draws over them does not count.
-/

namespace PixelScene

/-! ## Triggers -/

/-- When an event happens. -/
inductive Trigger where
  | frame
  | input (action : String)
  | collision (first second : Colour)
  | state (condition : Expr)

/-- What can be wrong with a trigger. -/
inductive TriggerFault where
  | missingAction
  | missingColours
  | badColour (text : String)
  | badCondition (e : ExprError)
  | unknown (text : String)
deriving DecidableEq, Repr

/-- The wording of a fault. -/
def TriggerFault.message : TriggerFault → String
  | missingAction => "Input trigger needs an action"
  | missingColours => "Collision trigger needs two colors"
  | badColour text => s!"invalid collision color '{text}'"
  | badCondition e => s!"invalid State condition: {e.message}"
  | unknown text => s!"unknown trigger '{text}'"

namespace Trigger

/-- What stands in the parentheses of a call such as `Input(Action.Jump)`. -/
def argument? (name : String) (cs : List Char) : Option (List Char) :=
  match (Text.dropFront? name.toList cs).map Text.trimStart with
  | some ('(' :: body) => if body.getLast? = some ')' then some body.dropLast else none
  | _ => none

/-- The colour of one side of a collision, which may have a label and a colon in front. -/
def colour (cs : List Char) : Except TriggerFault Colour :=
  let digits := match Text.cutLast? ':' cs with
    | some (_, after) => after
    | none => cs
  match Colour.parse? (Text.trim digits) with
  | some c => .ok c
  | none => .error (.badColour (String.ofList (Text.trim cs)))

/-- The trigger whose action stands in parentheses. -/
def ofInput (cs : List Char) : Except TriggerFault Trigger :=
  let action := normalAction cs
  if action.isEmpty then .error .missingAction else .ok (.input (String.ofList action))

/-- The trigger whose two colours stand in parentheses. -/
def ofCollision (cs : List Char) : Except TriggerFault Trigger :=
  match Text.cutFirst? ',' cs with
  | none => .error .missingColours
  | some (first, second) => do return .collision (← colour first) (← colour second)

/-- The trigger whose condition stands in parentheses. -/
def ofCondition (cs : List Char) : Except TriggerFault Trigger :=
  match Expr.parse cs with
  | .ok e => .ok (.state e)
  | .error e => .error (.badCondition e)

/-- The trigger that a text names. -/
def parse (raw : List Char) : Except TriggerFault Trigger :=
  let cs := Text.trim raw
  if cs = "OnFrame".toList then .ok .frame
  else match argument? "Input" cs with
  | some body => ofInput body
  | none =>
    match argument? "Collision" cs with
    | some body => ofCollision body
    | none =>
      match argument? "State" cs with
      | some body => ofCondition body
      | none => .error (.unknown (String.ofList cs))

end Trigger

/-! ## Touching colours -/

namespace Memory

/-- Whether a pixel has a colour, whatever its transparency. -/
def pixelIs (m : Memory) (index : Nat) (c : Colour) : Bool :=
  let start := index * pixelBytes
  m.byte start == c.red && m.byte (start + 1) == c.green && m.byte (start + 2) == c.blue

/-- Whether a neighbour of the pixel at column `x` and row `y` has a colour. -/
def neighbourIs (m : Memory) (width height x y : Nat) (c : Colour) : Bool :=
  let index := y * width + x
  (0 < x && m.pixelIs (index - 1) c) || (x + 1 < width && m.pixelIs (index + 1) c)
    || (0 < y && m.pixelIs (index - width) c) || (y + 1 < height && m.pixelIs (index + width) c)

/--
Whether some pixel of colour `a` has a neighbour of colour `b` above, below or beside it. Pixels of
a last row that is not complete do not count.
-/
def touches (m : Memory) (width : Nat) (a b : Colour) : Bool :=
  let height := m.pixelCount / width
  (List.range height).any fun y => (List.range width).any fun x =>
    m.pixelIs (y * width + x) a && m.neighbourIs width height x y b

/-- The value of a variable, zero when there is none or its bytes are not all in the memory. -/
def valueOf (m : Memory) (globals : Table Variable) (name : String) : Float :=
  match globals.get? name with
  | some v => ((m.fetchNumber v.storage v.address).toOption).getD 0
  | none => 0

end Memory

/-- Whether a trigger fires in a frame. -/
def Trigger.fires (t : Trigger) (m : Memory) (width : Nat) (held : Held)
    (globals : Table Variable) : Bool :=
  match t with
  | frame => true
  | input action => held.isActive action
  | collision first second => m.touches width first second
  | state condition => condition.isTrue (m.valueOf globals)

/-! ## Actions -/

/-- What an action does with the value of its expression. -/
inductive AssignOp where
  | set
  | add
  | sub
deriving DecidableEq, Repr

/-- An action: a variable, what to do with it, and an expression. -/
structure Assignment where
  target : String
  op : AssignOp
  value : Expr

/-- What can be wrong with an action. -/
inductive ActionFault where
  | noAssignment (text : String)
  | comparison (text : String)
  | notVariable (text : String)
  | badExpression (text : String) (e : ExprError)
deriving DecidableEq, Repr

/-- The wording of a fault. -/
def ActionFault.message : ActionFault → String
  | noAssignment text => s!"action '{text}' has no assignment"
  | comparison text => s!"action '{text}' compares instead of assigning"
  | notVariable text => s!"action '{text}' does not assign a variable"
  | badExpression text e => s!"action '{text}': {e.message}"

namespace Assignment

/-- The operator of an assignment, and the target in front of it. -/
def operator (before : List Char) : List Char × AssignOp :=
  match before.getLast? with
  | some '+' => (before.dropLast, .add)
  | some '-' => (before.dropLast, .sub)
  | _ => (before, .set)

/-- The action that a text spells. -/
def parse (raw : List Char) : Except ActionFault Assignment :=
  let cs := Text.trim raw
  let text := String.ofList cs
  match Text.cutFirst? '=' cs with
  | none => .error (.noAssignment text)
  | some (before, after) =>
    if after.head? = some '=' then .error (.comparison text)
    else
      let (target, op) := operator before
      match variableName? target with
      | none => .error (.notVariable text)
      | some name =>
        match Expr.parse after with
        | .error e => .error (.badExpression text e)
        | .ok value => .ok ⟨String.ofList name, op, value⟩

/-- The new value of the target, from its old one and the value of the expression. -/
def combine (op : AssignOp) (old value : Float) : Float :=
  match op with
  | .set => value
  | .add => old + value
  | .sub => old - value

/-- Carries an action out; tells whether its variable is declared. -/
def apply (a : Assignment) (globals : Table Variable) : Edit Bool := do
  match globals.get? a.target with
  | none => return false
  | some v =>
    let value := a.value.eval ((← get).valueOf globals)
    let old ← match a.op with
      | .set => pure 0
      | _ => Edit.read (·.fetchNumber v.storage v.address)
    Edit.storeNumber v.storage v.address (combine a.op old value)
    return true

end Assignment

end PixelScene
