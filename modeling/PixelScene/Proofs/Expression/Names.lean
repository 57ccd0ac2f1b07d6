import PixelScene.Expression.Basic
import PixelScene.Proofs.FirstOccurrence

/-!
# The variables of expressions

The names of an expression are its variables, each where it occurs first when the expression is read
from left to right. An evaluation asks for nothing else.

* `Expr.occurrences`: the variables as often as they occur.
* `Expr.names_eq_eraseDups`: the names are the first occurrences.
* `Expr.eval_congr`: readings that agree on the names give the same value.
* `Expr.names_determine`: what the names are, and that an expression depends on them alone.

The engine collects names in a list while it walks over the tree and adds one only if it is not in
the list yet (`collect_vars`). An evaluation reads a name through a function of the host, which
stands for the variables of a memory and for what components offer; what it gives for other names
cannot show.
-/

namespace PixelScene.Expr

/-- The variables of an expression from left to right, as often as they occur. -/
def occurrences : Expr → List String
  | number _ => []
  | var name => [name]
  | neg inner | not inner => occurrences inner
  | binary _ lhs rhs => occurrences lhs ++ occurrences rhs

/-! ## The names -/

/-- What has been seen are the first occurrences of all that was read so far. -/
theorem collect_eraseDups (e : Expr) (before : List String) :
    e.collect before.eraseDups = (before ++ e.occurrences).eraseDups := by
  induction e generalizing before with
  | number value => rw [collect, occurrences, List.append_nil]
  | var name =>
    rw [collect, occurrences, eraseDups_concat]
    simp only [List.mem_eraseDups]
  | neg inner ih | not inner ih => exact ih before
  | binary op lhs rhs ihl ihr => rw [collect, occurrences, ihl, ihr, List.append_assoc]

theorem names_eq_eraseDups (e : Expr) : e.names = e.occurrences.eraseDups :=
  e.collect_eraseDups []

theorem mem_names {e : Expr} {name : String} : name ∈ e.names ↔ name ∈ e.occurrences := by
  rw [names_eq_eraseDups, List.mem_eraseDups]

/-! ## Evaluation -/

/-- The value of an expression depends on the variables that occur in it. -/
theorem eval_congr {read read' : String → Float} {e : Expr}
    (h : ∀ name ∈ e.names, read' name = read name) : e.eval read' = e.eval read := by
  simp only [mem_names] at h
  induction e with
  | number value => rfl
  | var name => exact h name (List.mem_singleton_self name)
  | neg inner ih | not inner ih => rw [eval, eval, ih h]
  | binary op lhs rhs ihl ihr =>
    obtain ⟨hl, hr⟩ := List.forall_mem_append.mp h
    rw [eval, eval, ihl hl, ihr hr]

/--
**An expression depends on the names that it lists, and on nothing else.** They are the variables that
occur in it, each once, in the order in which they occur first from left to right. Under two readings
that agree on them the expression has the same value, and it counts as true under both or under
neither.
-/
theorem names_determine (e : Expr) :
    (∀ name, name ∈ e.names ↔ name ∈ e.occurrences) ∧ e.names.Nodup ∧
      e.names.Pairwise (fun a b => e.occurrences.idxOf a < e.occurrences.idxOf b) ∧
      ∀ read read' : String → Float, (∀ name ∈ e.names, read name = read' name) →
        e.eval read = e.eval read' ∧ e.isTrue read = e.isTrue read' := by
  refine ⟨fun _ => mem_names, ?_, ?_, fun read read' h => ?_⟩
  · rw [names_eq_eraseDups]
    exact nodup_eraseDups _
  · rw [names_eq_eraseDups]
    exact pairwise_idxOf_eraseDups _
  · have heval : e.eval read = e.eval read' := eval_congr h
    exact ⟨heval, congrArg holds heval⟩

/-- An expression with two variables, one of which occurs twice. What a third one reads as makes no
difference to it. -/
theorem names_determine_two :
    let e := binary .and (binary .lt (var "b") (var "a")) (not (var "b"))
    let read name : Float := if name = "a" then 1 else 0
    let read' name : Float := if name = "b" then 0 else 1
    e.names = ["b", "a"] ∧ read "c" ≠ read' "c" ∧ (∀ name ∈ e.names, read name = read' name) ∧
      e.eval read' = 1 ∧ e.isTrue read' = true := by
  intro e read read'
  have hagree : ∀ name ∈ e.names, read name = read' name := by decide +kernel
  obtain ⟨heval, htrue⟩ := (names_determine e).2.2.2 read read' hagree
  exact ⟨rfl, by decide +kernel, hagree, heval.symm.trans (by decide +kernel),
    htrue.symm.trans (by decide +kernel)⟩

end PixelScene.Expr
