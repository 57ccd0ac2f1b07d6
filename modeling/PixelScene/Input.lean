import PixelScene.Table
import PixelScene.Text.Blank
import PixelScene.Text.LowerCase

/-!
# Input

The host samples which actions and keys are held (`InputSnapshot`). Key bindings turn held keys into
actions; tables of bindings are laid over each other, and a key bound in an upper table hides the
same key below (`InputBindings`: `bind`, `merged_with`, `apply`).

* `normalAction`: an action may be written with `Action.` in front; `normalKey`: keys are told apart
  without regard to case.
* `Held.consult`: the actions held once a table of bindings has been consulted.
* `KeyBindings.bind`: a key or an action that is empty once it is normalized binds nothing.

The sets of actions and keys are ascending lists, so two hosts that hold the same give the same
value. How a host samples its keys is left out.
-/

namespace PixelScene

/-! ## Names -/

/-- The name of an action without `Action.` in front. -/
def normalAction (cs : List Char) : List Char :=
  Text.trim (Text.dropFront "Action.".toList (Text.trim cs))

/-- The name of a key in lower case. -/
def normalKey (cs : List Char) : List Char := Text.lowerCase (Text.trim cs)

/-- Puts a text where it belongs in an ascending list, unless it is there. -/
def insertSorted (s : String) : List String → List String
  | [] => [s]
  | t :: ts => if s = t then t :: ts else if s < t then s :: t :: ts else t :: insertSorted s ts

/-- The list holds one more text, whether it was there before or not. -/
@[simp] theorem mem_insertSorted {s x : String} {l : List String} :
    x ∈ insertSorted s l ↔ x = s ∨ x ∈ l := by
  induction l with
  | nil => simp [insertSorted]
  | cons t ts ih =>
    unfold insertSorted
    split
    · rename_i h
      subst h
      simp
    · split
      · simp
      · simp only [List.mem_cons, ih]
        exact or_left_comm

/-! ## What is held -/

/-- The actions and the keys held in a frame, each in ascending order. -/
structure Held where
  actions : List String
  keys : List String
deriving DecidableEq, Repr

namespace Held

/-- Nothing is held. -/
def nothing : Held := ⟨[], []⟩

instance : Inhabited Held := ⟨nothing⟩

/-- Whether nothing is held. -/
def isEmpty (h : Held) : Bool := h.actions.isEmpty && h.keys.isEmpty

/-- Presses an action; an empty name is ignored. -/
def press (h : Held) (action : String) : Held :=
  let name := normalAction action.toList
  if name.isEmpty then h else { h with actions := insertSorted (String.ofList name) h.actions }

/-- Lets an action go. -/
def release (h : Held) (action : String) : Held :=
  { h with actions := h.actions.filter (· != String.ofList (normalAction action.toList)) }

/-- Presses a key; an empty name is ignored. -/
def hold (h : Held) (key : String) : Held :=
  let name := normalKey key.toList
  if name.isEmpty then h else { h with keys := insertSorted (String.ofList name) h.keys }

/-- Whether an action is held. -/
def isActive (h : Held) (action : String) : Bool :=
  h.actions.contains (String.ofList (normalAction action.toList))

/-- The actions given, pressed one after the other, and no key. -/
def ofActions (actions : List String) : Held := actions.foldl press nothing

end Held

/-! ## Key bindings -/

/-- The actions that each key stands for. -/
structure KeyBindings where
  table : Dictionary (List String)

namespace KeyBindings

/-- No bindings. -/
def none : KeyBindings := ⟨∅⟩

instance : Inhabited KeyBindings := ⟨none⟩

/-- Whether no key is bound. -/
def isEmpty (b : KeyBindings) : Bool := b.table.isEmpty

/-- The actions of a key. -/
def actionsOf (b : KeyBindings) (key : String) : List String := (b.table.get? key).getD []

/-- Whether a binding names both a key and an action. -/
def isUsable (key action : String) : Bool :=
  !(normalKey key.toList).isEmpty && !(normalAction action.toList).isEmpty

/-- Adds an action to a key; a binding without a key or without an action is ignored. -/
def bind (b : KeyBindings) (key action : String) : KeyBindings :=
  if isUsable key action then
    let k := String.ofList (normalKey key.toList)
    let a := String.ofList (normalAction action.toList)
    let actions := b.actionsOf k
    if actions.contains a then b else ⟨b.table.insert k (actions ++ [a])⟩
  else b

/-- What is said about a binding that is ignored. -/
def notice? (key action : String) : Option String :=
  if isUsable key action then Option.none
  else
    let k := String.ofList (normalKey key.toList)
    let a := String.ofList (normalAction action.toList)
    some s!"[input] ignoring empty binding '{k}' -> '{a}'"

/-- The bindings of some pairs of key and action. -/
def ofPairs (pairs : List (String × String)) : KeyBindings :=
  pairs.foldl (fun b p => b.bind p.1 p.2) none

/-- What is said about the pairs that are ignored. -/
def notices (pairs : List (String × String)) : List String :=
  pairs.filterMap fun p => notice? p.1 p.2

/-- The pairs of key and action of a table that lists the keys of each action. -/
def pairsOfActions (d : Dictionary (List String)) : List (String × String) :=
  d.entries.flatMap fun e => e.2.map fun key => (key, e.1)

/-- What is said about a table that lists the keys of each action. -/
def actionNotices (d : Dictionary (List String)) : List String :=
  d.entries.flatMap fun e =>
    (if e.2.isEmpty then [s!"[input] action '{e.1}' has no keys, ignoring."] else [])
      ++ notices (e.2.map fun key => (key, e.1))

/-- The bindings of `b`, and those of `c` for the keys that `b` does not bind. -/
def atop (b c : KeyBindings) : KeyBindings := ⟨b.table.union c.table⟩

end KeyBindings

namespace Held

/-- What is held once every held key also stands for its actions. -/
def consult (h : Held) (b : KeyBindings) : Held :=
  { h with actions := (h.keys.flatMap b.actionsOf).foldl (fun as a => insertSorted a as) h.actions }

end Held

end PixelScene
