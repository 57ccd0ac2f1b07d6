import PixelScene.Number.Binary

/-!
# Expressions

State conditions, `State(...)` triggers and the right-hand sides of actions share one expression
language over doubles. Comparisons and logical operators give one or zero, and every value other
than zero counts as true.

* `Expr.eval` evaluates against a reading of the variables, `Expr.names` lists the names that occur,
  each once, in the order of their first occurrence (`eval`, `is_true`, `variables`).

There is no type and no error at this stage: a name without a variable reads as zero, which is what
the reading says, and numbers follow the arithmetic of doubles, so that what is not a number
compares as unequal to everything. Logical operators evaluate both operands here, and the engine
stops at the first that decides; as evaluation has no effect, the value is the same.
-/

namespace PixelScene

/-- The operators with two operands. -/
inductive BinaryOp where
  | add
  | sub
  | eq
  | ne
  | lt
  | le
  | gt
  | ge
  | and
  | or
deriving DecidableEq, Repr

/-- An expression; a variable is held without the `$` or `State.` in front of its name. -/
inductive Expr where
  | number (value : Float)
  | var (name : String)
  | neg (inner : Expr)
  | not (inner : Expr)
  | binary (op : BinaryOp) (lhs rhs : Expr)

namespace Expr

/-! ## Evaluation -/

/-- One for true and zero for false. -/
def truth (b : Bool) : Float := if b then 1 else 0

/-- Every value but zero counts as true, what is not a number included. -/
def holds (x : Float) : Bool := x != 0

/-- The value of an operator on two operands. -/
def applyOp (op : BinaryOp) (a b : Float) : Float :=
  match op with
  | .add => a + b
  | .sub => a - b
  | .eq => truth (a == b)
  | .ne => truth (a != b)
  | .lt => truth (a < b)
  | .le => truth (a ≤ b)
  | .gt => truth (b < a)
  | .ge => truth (b ≤ a)
  | .and => truth (holds a && holds b)
  | .or => truth (holds a || holds b)

/-- The value of an expression under a reading of its variables. -/
def eval (read : String → Float) : Expr → Float
  | number value => value
  | var name => read name
  | neg inner => -(eval read inner)
  | not inner => truth (eval read inner == 0)
  | binary op lhs rhs => applyOp op (eval read lhs) (eval read rhs)

/-- Whether an expression counts as true under a reading of its variables. -/
def isTrue (read : String → Float) (e : Expr) : Bool := holds (e.eval read)

/-! ## Variables -/

/-- Adds to `seen` the names of an expression that are not in it yet, from left to right. -/
def collect (seen : List String) : Expr → List String
  | number _ => seen
  | var name => if name ∈ seen then seen else seen ++ [name]
  | neg inner | not inner => collect seen inner
  | binary _ lhs rhs => collect (collect seen lhs) rhs

/-- The variable names of an expression, each once, in the order of first occurrence. -/
def names (e : Expr) : List String := collect [] e

end Expr

end PixelScene
