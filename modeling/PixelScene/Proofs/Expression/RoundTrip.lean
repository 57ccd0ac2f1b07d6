import PixelScene.Proofs.Expression.Printing

/-!
# Printed expressions are read back

A formula that is written with its lexemes spaced in any way is read as its expression. The same
text may stand as the condition of a trigger and on the right of an action, where the sign of the
assignment has to be told from the comparisons inside the expression: it is the first `=` of the
action, as none stands in the target in front of it.

* `Formula.parse_eq`, `Formula.parse_trigger`, `Formula.parse_assignment`: one for each of the three
  readings.
* `Formula.parse_spaced`: all of them.

Conditions of triggers and actions come out of other texts: what stands between the parentheses of
`State(...)`, and what stands behind `=`, `+=` or `-=`. The three readings are those of
`parse_expr`, `parse_trigger` and `parse_action`. An action that raises its variable is found by
looking at the character in front of the sign.
-/

namespace PixelScene

open Text (Blanks EndsSolid isBlank blanks_nil blanks_space)

/-! ## Trimming -/

/-- A text without blanks ends with a character that is not blank. -/
theorem Text.endsSolid_of_forall {cs : List Char} (hne : cs ≠ [])
    (h : ∀ c ∈ cs, isBlank c = false) : EndsSolid cs :=
  ⟨cs.dropLast, cs.getLast hne, (List.dropLast_concat_getLast hne).symm,
    h _ (List.getLast_mem hne)⟩

theorem Name.isBlank_of_mem (n : Name) : ∀ c ∈ n.chars, isBlank c = false :=
  fun c hc => Node.isBlank_of_isPlain (isPlain_of_isNameChar (n.chars_isNameChar c hc))

theorem Lexeme.endsSolid_text (l : Lexeme) : EndsSolid l.text := by
  cases l with
  | literal l =>
    refine Text.endsSolid_of_forall (text_ne_nil (.literal l)) fun c hc => ?_
    exact Node.isBlank_of_isPlain (isPlain_of_isNumberChar (l.text_isNumberChar c hc))
  | reference r name =>
    exact (Text.endsSolid_of_forall name.chars_ne_nil name.isBlank_of_mem).append r.text
  | sign s =>
    have hsolid : (Lexeme.sign s).text.all (!isBlank ·) = true := by cases s <;> decide
    refine Text.endsSolid_of_forall (text_ne_nil (.sign s)) fun c hc => ?_
    simpa using List.all_eq_true.mp hsolid c hc
  | openParen => exact ⟨[], '(', rfl, rfl⟩
  | closeParen => exact ⟨[], ')', rfl, rfl⟩

/-- The blanks behind the last lexeme. -/
theorem Spaced.exists_endsSolid {ls : List Lexeme} {cs : List Char} (h : Spaced ls cs)
    (hls : ls ≠ []) : ∃ solid b, cs = solid ++ b ∧ Blanks b ∧ EndsSolid solid ∧ Spaced ls solid := by
  induction h with
  | nil blanks => exact absurd rfl hls
  | @cons b cs ls l blanks more ih =>
    cases more with
    | nil blanks' =>
      refine ⟨b ++ l.text, cs, rfl, blanks', l.endsSolid_text.append b, ?_⟩
      have hspaced := Spaced.cons l blanks (.nil blanks_nil)
      rwa [List.append_nil] at hspaced
    | cons l' blanks' more' =>
      obtain ⟨solid, b', heq, hb', hsolid, hspaced⟩ := ih (List.cons_ne_nil _ _)
      refine ⟨b ++ l.text ++ solid, b', ?_, hb', hsolid.append _, .cons l blanks hspaced⟩
      rw [heq, List.append_assoc _ solid]

/-! ## Expressions -/

namespace Formula

variable {f : Formula} {cs : List Char}

theorem parse_eq (h : Spaced f.lexemes cs) : Expr.parse cs = .ok f.expr := by
  obtain ⟨ls, hscan, hls⟩ := h.scans f.isOperand_lexemes.apart cs.length
  refine (parse_eq_ok_iff_derives hscan f.expr).mpr ?_
  rw [hls]
  exact derives_of_le f.level_le f.derives_lexemes

end Formula

/-! ## Triggers -/

/-- What stands in the parentheses of a call. -/
theorem Trigger.argument?_call (name : String) (cs : List Char) :
    Trigger.argument? name (name.toList ++ '(' :: (cs ++ [')'])) = some cs := by
  have hdrop : Text.dropFront? name.toList (name.toList ++ '(' :: (cs ++ [')'])) =
      some ('(' :: (cs ++ [')'])) := Text.dropFront?_eq_some_iff.mpr rfl
  have hstart : Text.trimStart ('(' :: (cs ++ [')'])) = '(' :: (cs ++ [')']) :=
    Text.trimStart_eq_self rfl
  have hlast : (cs ++ [')']).getLast? = some ')' := List.getLast?_concat
  have hinit : (cs ++ [')']).dropLast = cs := List.dropLast_concat
  rw [Trigger.argument?, hdrop, Option.map_some, hstart]
  change (if (cs ++ [')']).getLast? = some ')' then some (cs ++ [')']).dropLast else none) = _
  rw [if_pos hlast, hinit]

namespace Formula

variable {f : Formula} {cs : List Char}

theorem parse_trigger (h : Spaced f.lexemes cs) :
    Trigger.parse ("State(".toList ++ cs ++ [')']) = .ok (.state f.expr) := by
  have htrim : Text.trim ("State(".toList ++ cs ++ [')']) = "State(".toList ++ cs ++ [')'] :=
    Text.trim_eq_self ⟨'S', _, rfl, rfl⟩ ⟨_, ')', rfl, rfl⟩
  have hargument : Trigger.argument? "State" ("State(".toList ++ cs ++ [')']) = some cs :=
    Trigger.argument?_call "State" cs
  have hframe : "State(".toList ++ cs ++ [')'] ≠ "OnFrame".toList :=
    fun heq => absurd (List.cons.inj heq).1 (by decide)
  have hinput : Trigger.argument? "Input" ("State(".toList ++ cs ++ [')']) = none := rfl
  have hcollision : Trigger.argument? "Collision" ("State(".toList ++ cs ++ [')']) = none := rfl
  rw [Trigger.parse, htrim, if_neg hframe, hinput, hcollision, hargument]
  change Trigger.ofCondition cs = _
  rw [Trigger.ofCondition, parse_eq h]

end Formula

/-! ## Actions -/

namespace AssignOp

/-- What stands in front of the `=`. -/
def mark : AssignOp → List Char
  | set => []
  | add => ['+']
  | sub => ['-']

/-- The sign of an assignment. -/
def text (op : AssignOp) : List Char := op.mark ++ ['=']

end AssignOp

/-- The target of an assignment is what stands in front of its sign. -/
theorem Assignment.operator_append (target : List Char) (op : AssignOp) :
    Assignment.operator (target ++ ' ' :: op.mark) = (target ++ [' '], op) := by
  have happend : ∀ c, target ++ [' ', c] = target ++ [' '] ++ [c] :=
    fun c => (List.append_assoc target [' '] [c]).symm
  cases op with
  | set =>
    rw [AssignOp.mark, Assignment.operator, List.getLast?_concat]
    rfl
  | add =>
    rw [AssignOp.mark, happend, Assignment.operator, List.getLast?_concat, List.dropLast_concat]
    rfl
  | sub =>
    rw [AssignOp.mark, happend, Assignment.operator, List.getLast?_concat, List.dropLast_concat]
    rfl

/-- A reference with a blank behind it names its variable. -/
theorem Name.variableName?_append (n : Name) :
    variableName? (Reference.state.text ++ n.chars ++ [' ']) = some n.chars := by
  have hends := Text.endsSolid_of_forall n.chars_ne_nil n.isBlank_of_mem
  have htrim : Text.trim (Reference.state.text ++ n.chars ++ [' ']) =
      Reference.state.text ++ n.chars :=
    Text.trim_append blanks_nil ⟨'S', _, rfl, rfl⟩ (hends.append Reference.state.text)
      blanks_space
  have hname : (n.chars.isEmpty || !n.chars.all isNameChar) = false := by
    rw [List.isEmpty_eq_false_iff.mpr n.chars_ne_nil, List.all_eq_true.mpr n.chars_isNameChar]
    rfl
  rw [variableName?, htrim]
  change (if (n.chars.isEmpty || !n.chars.all isNameChar) = true then none else some n.chars) = _
  rw [hname]
  rfl

theorem Formula.parse_assignment {f : Formula} {cs : List Char} (h : Spaced f.lexemes cs)
    (n : Name) (op : AssignOp) :
    Assignment.parse (Reference.state.text ++ n.chars ++ ' ' :: op.text ++ ' ' :: cs) =
      .ok ⟨n.text, op, f.expr⟩ := by
  -- the blanks behind the expression are cut off with those behind the action
  obtain ⟨solid, b, rfl, hb, hsolid, hspaced⟩ := h.exists_endsSolid f.isOperand_lexemes.ne_nil
  let before := Reference.state.text ++ n.chars ++ ' ' :: op.mark
  let after := ' ' :: solid
  have htrim : Text.trim (Reference.state.text ++ n.chars ++ ' ' :: op.text ++ ' ' :: (solid ++ b)) =
      before ++ '=' :: after := by
    have hraw : Reference.state.text ++ n.chars ++ ' ' :: op.text ++ ' ' :: (solid ++ b) =
        [] ++ (before ++ '=' :: after) ++ b := by
      simp [before, after, AssignOp.text, Reference.text]
    rw [hraw]
    exact Text.trim_append blanks_nil ⟨'S', _, rfl, rfl⟩
      (((hsolid.cons ' ').cons '=').append before) hb
  have hmark : '=' ∉ before := by
    have hname : '=' ∉ n.chars := fun hmem => absurd (n.chars_isNameChar _ hmem) (by decide)
    have hstate : '=' ∉ Reference.state.text := by decide
    have hop : '=' ∉ ' ' :: op.mark := by cases op <;> decide
    exact List.not_mem_append (List.not_mem_append hstate hname) hop
  have hparse : Expr.parse after = .ok f.expr :=
    f.parse_eq (hspaced.blanks_append blanks_space)
  have hhead : after.head? ≠ some '=' := fun heq => absurd (Option.some.inj heq) (by decide)
  rw [Assignment.parse, htrim, Text.cutFirst?_eq_some_iff.mpr ⟨rfl, hmark⟩]
  simp only [if_neg hhead]
  rw [Assignment.operator_append, n.variableName?_append, hparse]
  rfl

/-! ## All readings -/

/-- **Printed expressions are read back.** A text that spells a formula, with any blanks around its
lexemes, is read as the formula's expression; in the parentheses of `State` it is read as the
condition of a trigger, and behind a variable and the sign of an assignment as the value of an
action. -/
theorem Formula.parse_spaced (f : Formula) {cs : List Char} (h : Spaced f.lexemes cs) :
    Expr.parse cs = .ok f.expr ∧
      Trigger.parse ("State(".toList ++ cs ++ [')']) = .ok (.state f.expr) ∧
      ∀ (n : Name) (op : AssignOp),
        Assignment.parse ("State.$".toList ++ n.chars ++ ' ' :: op.text ++ ' ' :: cs) =
          .ok ⟨n.text, op, f.expr⟩ :=
  ⟨parse_eq h, parse_trigger h, parse_assignment h⟩

/-- The formula `$a - (State.$b1 - 2.50) <= !($c_ && 7)`. -/
def Formula.nested : Formula :=
  .binary .le
    (.binary .sub (.reference .dollar ⟨['a'], List.cons_ne_nil _ _, List.all_eq_true.mp rfl⟩)
      (.binary .sub
        (.reference .state ⟨['b', '1'], List.cons_ne_nil _ _, List.all_eq_true.mp rfl⟩)
        (.number ⟨['2'], some ['5', '0'], List.cons_ne_nil _ _, List.all_eq_true.mp rfl,
          List.all_eq_true.mp rfl⟩)))
    (.not (.binary .and
      (.reference .dollar ⟨['c', '_'], List.cons_ne_nil _ _, List.all_eq_true.mp rfl⟩)
      (.number ⟨['7'], none, List.cons_ne_nil _ _, List.all_eq_true.mp rfl,
        List.all_eq_true.mp rfl⟩)))

theorem Formula.parse_spaced_nested :
    Spaced nested.lexemes "$a-(\tState.$b1-2.50) <=!( $c_&&7)".toList ∧
      Expr.parse "$a-(\tState.$b1-2.50) <=!( $c_&&7)".toList = .ok nested.expr ∧
      Trigger.parse ("State(".toList ++ "$a-(\tState.$b1-2.50) <=!( $c_&&7)".toList ++ [')']) =
        .ok (.state nested.expr) ∧
      Assignment.parse ("State.$".toList ++ ['x'] ++ ' ' :: AssignOp.sub.text ++
        ' ' :: "$a-(\tState.$b1-2.50) <=!( $c_&&7)".toList) = .ok ⟨"x", .sub, nested.expr⟩ := by
  have hspaced : Spaced nested.lexemes "$a-(\tState.$b1-2.50) <=!( $c_&&7)".toList :=
    .cons _ blanks_nil <| .cons _ blanks_nil <| .cons _ blanks_nil <|
    .cons (b := ['\t']) _ (List.forall_mem_singleton.mpr rfl) <| .cons _ blanks_nil <|
    .cons _ blanks_nil <| .cons _ blanks_nil <| .cons _ blanks_space <| .cons _ blanks_nil <|
    .cons _ blanks_nil <| .cons _ blanks_space <| .cons _ blanks_nil <| .cons _ blanks_nil <|
    .cons _ blanks_nil <| .nil blanks_nil
  have hread := Formula.parse_spaced nested hspaced
  exact ⟨hspaced, hread.1, hread.2.1, hread.2.2 ⟨['x'], List.cons_ne_nil _ _, List.all_eq_true.mp rfl⟩ .sub⟩

end PixelScene
