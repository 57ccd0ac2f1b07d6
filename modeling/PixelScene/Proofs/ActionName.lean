import PixelScene.Proofs.Expression.RoundTrip

/-!
# Names of actions

Actions may be written with `Action.` in front. Pressing an action and letting it go drop this front
once, while an `Input` trigger drops it when it is read and again when it is asked. So the trigger
and a query for the same text agree exactly if there is nothing left to drop the second time.

* `normalAction_normalAction_iff`: when dropping the front twice is the same as dropping it once.
* `Trigger.parse_input`: how an `Input` trigger is read.
* `Trigger.asks_iff`: when a trigger asks for the action that its text names.

The names go through `normalize_action`: `press`, `release` and the bindings use it once, the reader
of triggers once, and `is_active` once more on what the trigger kept. Nothing is assumed of the
host: the actions that are held are those of any presses and releases. Where the two sides disagree
is a text with the front written twice, and there the trigger asks for another action than was
pressed.
-/

namespace PixelScene

/-! ## Dropping the front twice -/

theorem trim_normalAction (cs : List Char) : Text.trim (normalAction cs) = normalAction cs :=
  Text.trim_trim _

/-- Dropping `Action.` from a name that is normal leaves it alone unless it starts with `Action.`
once more. -/
theorem normalAction_normalAction_iff (cs : List Char) :
    normalAction (normalAction cs) = normalAction cs ↔
      ¬ "Action.".toList <+: normalAction cs := by
  have hagain : normalAction (normalAction cs) =
      Text.trim (Text.dropFront "Action.".toList (normalAction cs)) :=
    congrArg (fun ds => Text.trim (Text.dropFront "Action.".toList ds)) (trim_normalAction cs)
  rw [hagain]
  cases hdrop : Text.dropFront? "Action.".toList (normalAction cs) with
  | none =>
    have hother : ¬ "Action.".toList <+: normalAction cs := by
      rintro ⟨rest, hrest⟩
      rw [Text.dropFront?_eq_some_iff.mpr hrest.symm] at hdrop
      exact nomatch hdrop
    rw [Text.dropFront, hdrop, Option.getD_none, trim_normalAction]
    exact iff_of_true rfl hother
  | some rest =>
    have hfront : normalAction cs = "Action.".toList ++ rest := Text.dropFront?_eq_some_iff.mp hdrop
    rw [Text.dropFront, hdrop, Option.getD_some]
    refine iff_of_false (fun heq => ?_) (not_not_intro ⟨rest, hfront.symm⟩)
    have hshorter : (Text.trim rest).length ≤ rest.length := Text.length_trim_le rest
    rw [heq, hfront, List.length_append] at hshorter
    exact absurd hshorter (by simp)

/-! ## Reading an input trigger -/

namespace Trigger

theorem parse_input (cs : List Char) :
    Trigger.parse ("Input(".toList ++ cs ++ [')']) = ofInput cs := by
  have htrim : Text.trim ("Input(".toList ++ cs ++ [')']) = "Input(".toList ++ cs ++ [')'] :=
    Text.trim_eq_self ⟨'I', _, rfl, rfl⟩ ⟨_, ')', rfl, rfl⟩
  have hargument : argument? "Input" ("Input(".toList ++ cs ++ [')']) = some cs :=
    argument?_call "Input" cs
  have hframe : "Input(".toList ++ cs ++ [')'] ≠ "OnFrame".toList :=
    fun heq => absurd (List.cons.inj heq).1 (by decide)
  rw [Trigger.parse, htrim, if_neg hframe, hargument]

theorem parse_input_eq_ok {cs : List Char} {t : Trigger}
    (h : Trigger.parse ("Input(".toList ++ cs ++ [')']) = .ok t) :
    normalAction cs ≠ [] ∧ t = .input (String.ofList (normalAction cs)) := by
  rw [parse_input, ofInput] at h
  simp only [List.isEmpty_iff] at h
  split at h
  · exact nomatch h
  · rename_i hne
    exact ⟨hne, (Except.ok.inj h).symm⟩

end Trigger

/-! ## Pressing and letting go -/

namespace Held

/-- An action is pressed or let go. -/
inductive Call where
  | press (action : String)
  | release (action : String)

/-- What is held after a call. -/
def call (h : Held) : Call → Held
  | .press action => h.press action
  | .release action => h.release action

/-- What is held after some calls, when nothing was held before. -/
def after (calls : List Call) : Held := calls.foldl call nothing

theorem isActive_iff (h : Held) (action : String) :
    h.isActive action = true ↔ String.ofList (normalAction action.toList) ∈ h.actions :=
  List.contains_iff_mem

theorem isActive_press (h : Held) {action : String} (hne : normalAction action.toList ≠ []) :
    (h.press action).isActive action = true := by
  rw [isActive_iff, press, if_neg (by simpa using hne)]
  exact mem_insertSorted.mpr (.inl rfl)

theorem isActive_release (h : Held) (action : String) :
    (h.release action).isActive action = false := by
  rw [Bool.eq_false_iff]
  intro hactive
  have hmem := (List.mem_filter.mp ((isActive_iff _ action).mp hactive)).2
  simp at hmem

end Held

/-! ## Asking for an action -/

namespace Trigger

/-- The trigger asks for an action: it fires while the action is held, right after the action is
pressed, and never right after it is let go. -/
structure Asks (t : Trigger) (action : String) (m : Memory) (width : Nat)
    (globals : Table Variable) : Prop where
  active : ∀ calls, t.fires m width (Held.after calls) globals = (Held.after calls).isActive action
  pressed : ∀ calls, t.fires m width ((Held.after calls).press action) globals = true
  released : ∀ calls, t.fires m width ((Held.after calls).release action) globals = false

/--
**A trigger asks for the action that its text names, unless the name starts with `Action.` twice.**
It always asks for the name that is left when the front is dropped once.
-/
theorem asks_iff {action : String} {t : Trigger}
    (h : Trigger.parse ("Input(".toList ++ action.toList ++ [')']) = .ok t) (m : Memory)
    (width : Nat) (globals : Table Variable) :
    (∀ held : Held, t.fires m width held globals =
      held.isActive (String.ofList (normalAction action.toList))) ∧
    (t.Asks action m width globals ↔ ¬ "Action.".toList <+: normalAction action.toList) := by
  obtain ⟨hne, rfl⟩ := parse_input_eq_ok h
  refine ⟨fun held => rfl, ?_⟩
  rw [← normalAction_normalAction_iff]
  constructor
  · intro hasks
    -- pressing the action alone holds its name and nothing else
    have hfires : (Held.nothing.press action).isActive
        (String.ofList (normalAction action.toList)) = true := hasks.pressed []
    rw [Held.isActive_iff, Held.press, if_neg (by simpa using hne), String.toList_ofList] at hfires
    exact String.ofList_inj.mp (List.mem_singleton.mp hfires)
  · intro hnormal
    have hsame : ∀ held : Held, held.isActive (String.ofList (normalAction action.toList)) =
        held.isActive action := by
      intro held
      rw [Held.isActive, Held.isActive, String.toList_ofList, hnormal]
    exact {
      active := fun calls => hsame _
      pressed := fun calls => (hsame _).trans (Held.isActive_press _ hne)
      released := fun calls => (hsame _).trans (Held.isActive_release _ action) }

/-- A trigger with `Action.` in front of a name, and with blanks around it, asks for the name. -/
theorem asks_iff_jump :
    Trigger.parse ("Input(".toList ++ " Action. Jump ".toList ++ [')']) = .ok (.input "Jump") ∧
      (Trigger.input "Jump").Asks " Action. Jump " (Memory.zeros 0) 1 ∅ := by
  have hparse : Trigger.parse ("Input(".toList ++ " Action. Jump ".toList ++ [')']) =
      .ok (.input "Jump") := rfl
  exact ⟨hparse, (asks_iff hparse (Memory.zeros 0) 1 ∅).2.mpr (by decide)⟩

/-- A trigger with `Action.` twice in front of a name does not fire when this text is pressed. -/
theorem doubled_action_misses :
    Trigger.parse ("Input(".toList ++ "Action.Action.Jump".toList ++ [')']) =
        .ok (.input "Action.Jump") ∧
      let held := Held.nothing.press "Action.Action.Jump"
      held.isActive "Action.Action.Jump" = true ∧
        (Trigger.input "Action.Jump").fires (Memory.zeros 0) 1 held ∅ = false :=
  ⟨rfl, by decide, rfl⟩

end Trigger

end PixelScene
