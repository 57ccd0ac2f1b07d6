import PixelScene.Expression.Basic
import PixelScene.Expression.Token

/-!
# Reading expressions

Expressions bind, from loosest to tightest: `||`, `&&`, the comparisons, `+` and `-`, and then the
prefix signs `!` and `-`. Operators of one level associate to the left. The parser climbs these
levels: `chain n` reads operands of the level below, joined by the operators of level `n`. The
engine has one function for each level (`or`, `and`, `comparison`, `additive`, then `unary` and
`primary`); they differ in nothing but their operators.

Each reader returns what is left of the tokens together with the proof that it is shorter, which is
why the climb ends. A fault has the place of the token where reading stopped, or of the end of the
text, and the words of the engine (`ExprError`). How deep an expression may be nested before the
stack of the engine is exhausted is left out.
-/

namespace PixelScene

/-! ## Levels -/

/-- The loosest level. -/
def topLevel : Nat := 4

/-- The operator that a sign stands for between two operands of a level, counted from tightest. -/
def operatorAt : (level : Nat) → Symbol → Option BinaryOp
  | 1, .plus => some .add
  | 1, .minus => some .sub
  | 2, .equal => some .eq
  | 2, .unequal => some .ne
  | 2, .less => some .lt
  | 2, .lessEqual => some .le
  | 2, .greater => some .gt
  | 2, .greaterEqual => some .ge
  | 3, .both => some .and
  | 4, .either => some .or
  | _, _ => none

/-- What a word stands for: the words for true and false are numbers, any other is a variable. -/
def wordExpr (name : String) : Expr :=
  if name = "true" then .number 1 else if name = "false" then .number 0 else .var name

/-! ## The climb -/

/-- An expression read off the front of some tokens, and the tokens left, fewer than before. -/
abbrev Front (ts : List Located) := { r : Expr × List Located // r.2.length < ts.length }

/-- An expression continued over some tokens, and the tokens left. -/
abbrev Continued (ts : List Located) := { r : Expr × List Located // r.2.length ≤ ts.length }

/-- The place of the next token, or the end of the text when none is left. -/
def place (stop : Nat) : List Located → Nat
  | [] => stop
  | t :: _ => t.start

mutual

/-- Operands of the level below, joined by operators of this level; below the levels, a factor. -/
def chain (stop : Nat) (level : Nat) (ts : List Located) : Except ExprError (Front ts) :=
  match level with
  | 0 => factor stop ts
  | n + 1 => do
    let ⟨(lhs, rest), h⟩ ← chain stop n ts
    let ⟨r, hr⟩ ← chainRest stop n lhs rest
    return ⟨r, by simp only at h; omega⟩
termination_by (ts.length, level + 1)

/-- Goes on after the left operand `lhs` as long as operators of level `n + 1` follow. -/
def chainRest (stop : Nat) (n : Nat) (lhs : Expr) (ts : List Located) :
    Except ExprError (Continued ts) :=
  match ts with
  | ⟨start, .symbol s⟩ :: more =>
    match operatorAt (n + 1) s with
    | some op => do
      let ⟨(rhs, rest), h⟩ ← chain stop n more
      have h : rest.length < more.length := h
      let ⟨r, hr⟩ ← chainRest stop n (.binary op lhs rhs) rest
      return ⟨r, by simp only [List.length_cons]; omega⟩
    | none => return ⟨(lhs, ⟨start, .symbol s⟩ :: more), Nat.le_refl _⟩
  | rest => return ⟨(lhs, rest), Nat.le_refl _⟩
termination_by (ts.length, 0)

/-- A prefix sign and a factor, a number, a variable, or an expression in parentheses. -/
def factor (stop : Nat) (ts : List Located) : Except ExprError (Front ts) :=
  match ts with
  | [] => throw ⟨stop, .unexpectedEnd⟩
  | ⟨start, token⟩ :: more =>
    match token with
    | .number value => return ⟨(.number value, more), by simp⟩
    | .variable name => return ⟨(.var name, more), by simp⟩
    | .word name => return ⟨(wordExpr name, more), by simp⟩
    | .symbol .bang => do
      let ⟨(inner, rest), h⟩ ← factor stop more
      return ⟨(.not inner, rest), by simp only [List.length_cons] at h ⊢; omega⟩
    | .symbol .minus => do
      let ⟨(inner, rest), h⟩ ← factor stop more
      return ⟨(.neg inner, rest), by simp only [List.length_cons] at h ⊢; omega⟩
    | .openParen => do
      let ⟨(inner, rest), h⟩ ← chain stop topLevel more
      match rest, h with
      | ⟨_, .closeParen⟩ :: after, h =>
        return ⟨(inner, after), by simp only [List.length_cons] at h ⊢; omega⟩
      | rest, _ => throw ⟨place stop rest, .missingClose⟩
    | .closeParen => throw ⟨start, .unexpectedClose⟩
    | .symbol s => throw ⟨start, .unexpectedOperator s⟩
termination_by (ts.length, 0)

end

/-- An expression read off the front of some tokens. -/
def Expr.read (stop : Nat) (ts : List Located) : Except ExprError (Expr × List Located) :=
  (chain stop topLevel ts).map Subtype.val

/-- The expression that a list of tokens of a text of `stop` characters spells. -/
def Expr.ofTokens (stop : Nat) (ts : List Located) : Except ExprError Expr :=
  if ts.isEmpty then throw ⟨0, .empty⟩
  else do
    let (e, rest) ← Expr.read stop ts
    if rest.isEmpty then return e else throw ⟨place stop rest, .trailingInput⟩

/-- The expression that a text spells. -/
def Expr.parse (cs : List Char) : Except ExprError Expr := do
  let ts ← tokens cs
  Expr.ofTokens cs.length ts

end PixelScene
