import PixelScene.Number.Decimal
import PixelScene.Text.Blank

/-!
# Tokens of expressions

An expression text is cut into tokens, each with the place of its first character (`tokenize`).
Blanks separate tokens and are otherwise skipped. Places are counted in characters, as the faults of
expressions report them.

* `Token.read_shorter`: reading a token consumes at least one character, so scanning ends.
* `variableName?`: the name that a text on its own stands for (`variable_name`), with or without `$`
  or `State.` in front.
-/

namespace PixelScene

/-! ## Errors -/

/-- The operator signs. -/
inductive Symbol where
  | plus
  | minus
  | equal
  | unequal
  | less
  | lessEqual
  | greater
  | greaterEqual
  | both
  | either
  | bang
deriving DecidableEq, Repr

namespace Symbol

/-- How an operator sign is written. -/
def text : Symbol → String
  | plus => "+"
  | minus => "-"
  | equal => "=="
  | unequal => "!="
  | less => "<"
  | lessEqual => "<="
  | greater => ">"
  | greaterEqual => ">="
  | both => "&&"
  | either => "||"
  | bang => "!"

end Symbol

/-- What can be wrong with an expression text. -/
inductive ExprFault where
  | invalidNumber
  | missingName
  | missingStateName
  | unexpectedCharacter (c : Char)
  | empty
  | unexpectedEnd
  | missingClose
  | unexpectedClose
  | unexpectedOperator (symbol : Symbol)
  | trailingInput
deriving DecidableEq, Repr

namespace ExprFault

/-- The wording of a fault. -/
def text : ExprFault → String
  | invalidNumber => "invalid number"
  | missingName => "expected a variable name after '$'"
  | missingStateName => "expected a variable name after 'State.'"
  | unexpectedCharacter c => s!"unexpected character '{c}'"
  | empty => "empty expression"
  | unexpectedEnd => "unexpected end of expression"
  | missingClose => "expected ')'"
  | unexpectedClose => "unexpected ')'"
  | unexpectedOperator symbol => s!"unexpected operator '{symbol.text}'"
  | trailingInput => "unexpected trailing input"

end ExprFault

/-- A fault and the place where it was met, counted in characters from zero. -/
structure ExprError where
  position : Nat
  fault : ExprFault
deriving DecidableEq, Repr

namespace ExprError

/-- The wording of an error, which counts columns from one. -/
def message (e : ExprError) : String := s!"{e.fault.text} at column {e.position + 1}"

end ExprError

/-! ## Tokens -/

/-- A token of an expression. A `variable` was written with `$` or `State.` in front. -/
inductive Token where
  | number (value : Float)
  | word (name : String)
  | variable (name : String)
  | symbol (symbol : Symbol)
  | openParen
  | closeParen

/-- A token and the place of its first character. -/
structure Located where
  start : Nat
  token : Token

/-- Whether a character may stand in a name: an ASCII letter or digit, or an underscore. -/
def isNameChar (c : Char) : Bool := c.isAlphanum || c == '_'

namespace Token

/-- Whether a character may stand in a run that is read as a number. -/
def isNumberChar (c : Char) : Bool := Number.isDigit c || c == '.'

/-- A number starts with a digit, or with a point before a digit. -/
def startsNumber (c : Char) (rest : List Char) : Bool :=
  Number.isDigit c || (c == '.' && rest.head?.any Number.isDigit)

/-- The longest name in front of a text, and what follows it. -/
def spanName (cs : List Char) : List Char × List Char :=
  (cs.takeWhile isNameChar, cs.dropWhile isNameChar)

/-- A variable token whose name stands in front of a text. -/
def readVariable (missing : ExprFault) (cs : List Char) : Except ExprFault (Token × List Char) :=
  match spanName cs with
  | ([], _) => .error missing
  | (name, rest) => .ok (.variable (String.ofList name), rest)

/-- What follows the `.` of `State.`, less the `$` that may come next. -/
def afterState : List Char → List Char
  | '$' :: rest => rest
  | rest => rest

/-- A word, or a variable when the word is `State` and a point follows. -/
def readWord (cs : List Char) : Except ExprFault (Token × List Char) :=
  match spanName cs with
  | (name, '.' :: more) =>
    if name = "State".toList then readVariable .missingStateName (afterState more)
    else .ok (.word (String.ofList name), '.' :: more)
  | (name, rest) => .ok (.word (String.ofList name), rest)

/-- A sign in front of a text: two characters are preferred to one. -/
def readSign (c : Char) (rest : List Char) : Except ExprFault (Token × List Char) :=
  match c, rest with
  | '=', '=' :: more => .ok (.symbol .equal, more)
  | '!', '=' :: more => .ok (.symbol .unequal, more)
  | '<', '=' :: more => .ok (.symbol .lessEqual, more)
  | '>', '=' :: more => .ok (.symbol .greaterEqual, more)
  | '&', '&' :: more => .ok (.symbol .both, more)
  | '|', '|' :: more => .ok (.symbol .either, more)
  | '<', more => .ok (.symbol .less, more)
  | '>', more => .ok (.symbol .greater, more)
  | '+', more => .ok (.symbol .plus, more)
  | '-', more => .ok (.symbol .minus, more)
  | '!', more => .ok (.symbol .bang, more)
  | '(', more => .ok (.openParen, more)
  | ')', more => .ok (.closeParen, more)
  | _, _ => .error (.unexpectedCharacter c)

/-- The token that starts with the character `c`, which is not blank, and what follows it. -/
def read (c : Char) (rest : List Char) : Except ExprFault (Token × List Char) :=
  if startsNumber c rest then
    match Number.plainNumber? ((c :: rest).takeWhile isNumberChar) with
    | some value => .ok (.number value, (c :: rest).dropWhile isNumberChar)
    | none => .error .invalidNumber
  else if c = '$' then readVariable .missingName rest
  else if isNameChar c then readWord (c :: rest)
  else readSign c rest

/-! ## Progress -/

theorem dropWhile_shorter (p : Char → Bool) (cs : List Char) :
    (cs.dropWhile p).length ≤ cs.length :=
  (List.dropWhile_sublist p).length_le

theorem dropWhile_cons_shorter {p : Char → Bool} {c : Char} (rest : List Char) (h : p c = true) :
    ((c :: rest).dropWhile p).length < (c :: rest).length := by
  have := dropWhile_shorter p rest
  simp [h]
  omega

theorem readVariable_shorter {missing : ExprFault} {cs rest : List Char} {t : Token}
    (h : readVariable missing cs = .ok (t, rest)) : rest.length ≤ cs.length := by
  have hd := dropWhile_shorter isNameChar cs
  unfold readVariable spanName at h
  split at h
  · cases h
  · rename_i heq
    simp only [Prod.mk.injEq] at heq
    simp only [Except.ok.injEq, Prod.mk.injEq] at h
    rw [← h.2, ← heq.2]
    exact hd

theorem afterState_shorter (cs : List Char) : (afterState cs).length ≤ cs.length := by
  unfold afterState
  split <;> simp

theorem readWord_shorter {c : Char} {cs rest : List Char} {t : Token} (hc : isNameChar c = true)
    (h : readWord (c :: cs) = .ok (t, rest)) : rest.length < (c :: cs).length := by
  have hd := dropWhile_cons_shorter cs hc
  unfold readWord spanName at h
  split at h
  · rename_i name more heq
    simp only [Prod.mk.injEq] at heq
    rw [heq.2] at hd
    split at h
    · have h1 := readVariable_shorter h
      have h2 := afterState_shorter more
      simp only [List.length_cons] at hd ⊢
      omega
    · simp only [Except.ok.injEq, Prod.mk.injEq] at h
      rw [← h.2]
      exact hd
  · rename_i heq
    simp only [Prod.mk.injEq] at heq
    simp only [Except.ok.injEq, Prod.mk.injEq] at h
    rw [← h.2, ← heq.2]
    exact hd

theorem readSign_shorter {c : Char} {cs rest : List Char} {t : Token}
    (h : readSign c cs = .ok (t, rest)) : rest.length < (c :: cs).length := by
  unfold readSign at h
  split at h <;> simp at h <;> obtain ⟨-, rfl⟩ := h <;> simp only [List.length_cons] <;> omega

/-- Reading a token consumes at least one character. -/
theorem read_shorter {c : Char} {cs rest : List Char} {t : Token}
    (h : read c cs = .ok (t, rest)) : rest.length < (c :: cs).length := by
  unfold read at h
  split at h
  · rename_i hs
    have hc : isNumberChar c = true := by
      simp only [startsNumber, Bool.or_eq_true, Bool.and_eq_true] at hs
      simp only [isNumberChar, Bool.or_eq_true]
      exact hs.imp id And.left
    split at h
    · simp only [Except.ok.injEq, Prod.mk.injEq] at h
      rw [← h.2]
      exact dropWhile_cons_shorter _ hc
    · cases h
  · split at h
    · have := readVariable_shorter h
      simp
      omega
    · split at h
      · rename_i hc
        exact readWord_shorter hc h
      · exact readSign_shorter h

/-! ## Scanning -/

/-- The tokens of what is left of a text of `total` characters, each with its place. -/
def scan (total : Nat) (cs : List Char) : Except ExprError (List Located) :=
  match cs with
  | [] => .ok []
  | c :: rest =>
    if Text.isBlank c then scan total rest
    else
      let start := total - (c :: rest).length
      match _h : read c rest with
      | .error fault => .error ⟨start, fault⟩
      | .ok (token, more) => (scan total more).map (⟨start, token⟩ :: ·)
termination_by cs.length
decreasing_by
  · simp
  · exact read_shorter _h

end Token

/-- The tokens of an expression text. -/
def tokens (cs : List Char) : Except ExprError (List Located) := Token.scan cs.length cs

/-! ## Variable references -/

/-- The variable that a reference such as `State.$score`, `$score` or `score` names. -/
def variableName? (cs : List Char) : Option (List Char) :=
  let name := Text.dropFront ['$'] (Text.dropFront "State.".toList (Text.trim cs))
  if name.isEmpty || !(name.all isNameChar) then none else some name

end PixelScene
