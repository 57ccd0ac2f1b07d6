import PixelScene.Node.Block
import PixelScene.Proofs.Outcome

/-!
# Moving a script

The readers of blocks compare indentations with each other and put line numbers into their errors.
So it makes no difference where a script stands: when all lines move to the right by the same
distance, and each of them to some new number, the readers return what they returned before, or the
same fault at the new number of its line.

* `Move` is such a movement, and `Move.Carries` the law that a reader keeps.
* `Move.Carries.bind`, `Move.Carries.bind_ok`: sequences of steps keep it.
* `Move.carries_readMap` and the others: every reader keeps it, by induction along the readers.
* `ofLines_move`: so does reading the lines of a whole script.

Two things of a line reach what is read: its indentation, in comparisons with others, and its
number, in errors. Columns that come out of an item (`- key: value`) move along, since they are
counted from the dash. The result is used for comments and blank lines, which move numbers, and for
scripts that are indented as a whole.
-/

namespace PixelScene.Node

/-- Where the lines of a script go: each to a new number, all of them to the right by the same
number of columns. -/
structure Move where
  place : Nat → Nat
  columns : Nat

namespace Move

variable (m : Move)

/-- The line where it has gone. -/
def line (l : LogicalLine) : LogicalLine := ⟨m.place l.number, l.indent + m.columns, l.text⟩

/-- The lines where they have gone. -/
def lines (ls : List LogicalLine) : List LogicalLine := ls.map m.line

theorem lines_nil : m.lines [] = [] := rfl

theorem lines_cons (l : LogicalLine) (ls : List LogicalLine) :
    m.lines (l :: ls) = m.line l :: m.lines ls := rfl

/-- The error, at the new number of its line. -/
def error (e : ReadError) : ReadError := ⟨m.place e.line, e.fault⟩

/-- What is read off moved lines is what was read off the lines before, and the moved lines are
left; where that failed, it fails in the same way. -/
def Carries {α : Type} {p q : α × List LogicalLine → Prop} (x : Except ReadError { r // p r })
    (moved : Except ReadError { r // q r }) : Prop :=
  moved.map Subtype.val =
    ((x.map Subtype.val).map fun r => (r.1, m.lines r.2)).mapError m.error

/-! ## Steps -/

section Steps

variable {m} {α β : Type} {p q : α × List LogicalLine → Prop} {p' q' : β × List LogicalLine → Prop}

theorem carries_pure {a : α} {rest : List LogicalLine} (h : p (a, rest))
    (h' : q (a, m.lines rest)) :
    m.Carries (pure ⟨(a, rest), h⟩ : Except ReadError { r // p r })
      (pure ⟨(a, m.lines rest), h'⟩ : Except ReadError { r // q r }) := rfl

theorem carries_throw (number : Nat) (fault : ReadFault) :
    m.Carries (throw ⟨number, fault⟩ : Except ReadError { r // p r })
      (throw ⟨m.place number, fault⟩ : Except ReadError { r // q r }) := rfl

/-- Both readers fail, or both return, and in the same way. -/
theorem Carries.outcomes {x : Except ReadError { r // p r }} {moved : Except ReadError { r // q r }}
    (h : m.Carries x moved) :
    (∃ e, x = .error e ∧ moved = .error (m.error e)) ∨
      ∃ a rest hx hmoved, x = .ok ⟨(a, rest), hx⟩ ∧ moved = .ok ⟨(a, m.lines rest), hmoved⟩ := by
  cases x with
  | error e =>
    cases moved with
    | error e' => exact .inl ⟨e, rfl, congrArg Except.error (Except.error.inj h)⟩
    | ok r => exact absurd h nofun
  | ok r =>
    obtain ⟨⟨a, rest⟩, hx⟩ := r
    cases moved with
    | error e => exact absurd h nofun
    | ok r =>
      obtain ⟨r, hmoved⟩ := r
      obtain rfl : r = (a, m.lines rest) := Except.ok.inj h
      exact .inr ⟨a, rest, hx, hmoved, rfl, rfl⟩

/-- What is read off the lines is read off the moved lines. -/
theorem Carries.yields {x : Except ReadError { r // p r }} {moved : Except ReadError { r // q r }}
    (h : m.Carries x moved) {a : α} {rest : List LogicalLine} (hx : Yields x (a, rest)) :
    Yields moved (a, m.lines rest) := by
  obtain ⟨hle, hx⟩ := hx
  rcases h.outcomes with ⟨e, heq, -⟩ | ⟨a', rest', _, hmoved, heq, hreads⟩
  · exact absurd (hx.symm.trans heq) nofun
  · obtain ⟨rfl, rfl⟩ := Prod.mk.inj (congrArg Subtype.val (Except.ok.inj (hx.symm.trans heq)))
    exact ⟨hmoved, hreads⟩

theorem Carries.bind {x : Except ReadError { r // p r }} {moved : Except ReadError { r // q r }}
    {f : { r // p r } → Except ReadError { r // p' r }}
    {g : { r // q r } → Except ReadError { r // q' r }} (h : m.Carries x moved)
    (hnext : ∀ a rest hx hmoved, m.Carries (f ⟨(a, rest), hx⟩) (g ⟨(a, m.lines rest), hmoved⟩)) :
    m.Carries (x >>= f) (moved >>= g) := by
  rcases h.outcomes with ⟨e, rfl, rfl⟩ | ⟨a, rest, hx, hmoved, rfl, rfl⟩
  · rfl
  · exact hnext a rest hx hmoved

/-- A step that takes no lines makes no difference if its faults go with their line. -/
theorem Carries.bind_ok {γ : Type} {x moved : Except ReadError γ}
    {f : γ → Except ReadError { r // p r }} {g : γ → Except ReadError { r // q r }}
    (h : moved = x.mapError m.error) (hnext : ∀ c, m.Carries (f c) (g c)) :
    m.Carries (x >>= f) (moved >>= g) := by
  subst h
  cases x with
  | error e => rfl
  | ok c => exact hnext c

theorem parseInline_place (cs : List Char) (number : Nat) :
    parseInline cs (m.place number) = (parseInline cs number).mapError m.error := by
  unfold parseInline
  cases parseText cs <;> rfl

theorem checkDedent_lines (indent : Nat) (ls : List LogicalLine) :
    checkDedent (indent + m.columns) (m.lines ls) = (checkDedent indent ls).mapError m.error := by
  cases ls with
  | nil => rfl
  | cons l ls =>
    simp only [checkDedent, lines_cons, line, Nat.add_lt_add_iff_right]
    split <;> rfl

end Steps

/-! ## Readers -/

mutual

theorem carries_readBlock (ls : List LogicalLine) :
    m.Carries (readBlock ls) (readBlock (m.lines ls)) := by
  match ls with
  | [] =>
    rw [readBlock, lines_nil, readBlock]
    exact carries_pure _ _
  | l :: more =>
    have hmap := carries_readMap l.indent (l :: more)
    have hlist := carries_readList l.indent (l :: more)
    rw [lines_cons] at hmap hlist ⊢
    rw [readBlock, readBlock]
    have htext : (m.line l).text = l.text := rfl
    rw [htext]
    by_cases hitem : isItem l.text
    · rw [if_pos hitem, if_pos hitem]
      exact hlist.bind fun items rest _ _ => carries_pure _ _
    · rw [if_neg hitem, if_neg hitem]
      exact hmap.bind fun entries rest _ _ => carries_pure _ _
termination_by 4 * ls.length + 1
decreasing_by all_goals simp only [List.length_cons]; omega

theorem carries_readNested (parent : Nat) (ls : List LogicalLine) :
    m.Carries (readNested parent ls) (readNested (parent + m.columns) (m.lines ls)) := by
  match ls with
  | [] =>
    rw [readNested, lines_nil, readNested]
    exact carries_pure _ _
  | l :: more =>
    have hblock := carries_readBlock (l :: more)
    rw [lines_cons] at hblock ⊢
    rw [readNested, readNested]
    have hiff : parent + m.columns < (m.line l).indent ↔ parent < l.indent :=
      Nat.add_lt_add_iff_right
    by_cases hdeeper : parent < l.indent
    · rw [if_pos hdeeper, if_pos (hiff.mpr hdeeper)]
      exact hblock
    · rw [if_neg hdeeper, if_neg fun h => hdeeper (hiff.mp h)]
      exact carries_pure _ _
termination_by 4 * ls.length + 2
decreasing_by simp only [List.length_cons]; omega

theorem carries_readMap (indent : Nat) (ls : List LogicalLine) :
    m.Carries (readMap indent ls) (readMap (indent + m.columns) (m.lines ls)) := by
  match ls with
  | [] =>
    rw [readMap, lines_nil, readMap]
    exact carries_pure _ _
  | l :: more =>
    have hdedent := checkDedent_lines (m := m) indent (l :: more)
    rw [lines_cons] at hdedent ⊢
    rw [readMap, readMap]
    have hiff : (m.line l).indent ≠ indent + m.columns ↔ l.indent ≠ indent :=
      not_congr Nat.add_right_cancel_iff
    by_cases hend : l.indent ≠ indent
    · rw [if_pos hend, if_pos (hiff.mpr hend)]
      exact Carries.bind_ok hdedent fun _ => carries_pure _ _
    rw [if_neg hend, if_neg fun h => hend (hiff.mp h)]
    have htext : (m.line l).text = l.text := rfl
    rw [htext]
    by_cases hitem : isItem l.text
    · rw [if_pos hitem, if_pos hitem]
      exact carries_throw _ _
    rw [if_neg hitem, if_neg hitem]
    cases hsplit : splitKey? l.text with
    | none => exact carries_throw _ _
    | some kv =>
      obtain ⟨key, value⟩ := kv
      simp only
      by_cases hvalue : value.isEmpty
      · rw [if_pos hvalue, if_pos hvalue]
        refine (carries_readNested indent more).bind fun node rest hle _ => ?_
        have hle : rest.length ≤ more.length := hle
        exact (carries_readMap indent rest).bind fun entries left _ _ => carries_pure _ _
      · rw [if_neg hvalue, if_neg hvalue]
        refine Carries.bind_ok (parseInline_place value l.number) fun node => ?_
        exact (carries_readMap indent more).bind fun entries left _ _ => carries_pure _ _
termination_by 4 * ls.length + 0
decreasing_by all_goals simp only [List.length_cons]; omega

theorem carries_readItemMap (indent : Nat) (first : String × Node) (ls : List LogicalLine) :
    m.Carries (readItemMap indent first ls)
      (readItemMap (indent + m.columns) first (m.lines ls)) := by
  match ls with
  | [] =>
    rw [readItemMap, lines_nil, readItemMap]
    exact carries_pure _ _
  | l :: more =>
    have hmap := carries_readMap l.indent (l :: more)
    rw [lines_cons] at hmap ⊢
    rw [readItemMap, readItemMap]
    have hiff : indent + m.columns < (m.line l).indent ↔ indent < l.indent :=
      Nat.add_lt_add_iff_right
    by_cases hdeeper : indent < l.indent
    · rw [if_pos hdeeper, if_pos (hiff.mpr hdeeper)]
      exact hmap.bind fun entries rest _ _ => carries_pure _ _
    · rw [if_neg hdeeper, if_neg fun h => hdeeper (hiff.mp h)]
      exact carries_pure _ _
termination_by 4 * ls.length + 1
decreasing_by simp only [List.length_cons]; omega

theorem carries_readItem (indent number : Nat) (text : List Char) (ls : List LogicalLine) :
    m.Carries (readItem indent number text ls)
      (readItem (indent + m.columns) (m.place number) text (m.lines ls)) := by
  rw [readItem, readItem]
  cases hform : itemForm (itemText text).1 with
  | nothing => exact carries_readNested indent ls
  | value =>
    exact Carries.bind_ok (parseInline_place _ number) fun node => carries_pure _ _
  | entry key value =>
    simp only
    by_cases hvalue : value.isEmpty
    · rw [if_pos hvalue, if_pos hvalue, Nat.add_right_comm]
      refine (carries_readNested (indent + (itemText text).2) ls).bind fun node rest hle _ => ?_
      have hle : rest.length ≤ ls.length := hle
      exact (carries_readItemMap indent _ rest).bind fun item left _ _ => carries_pure _ _
    · rw [if_neg hvalue, if_neg hvalue]
      refine Carries.bind_ok (parseInline_place value number) fun node => ?_
      exact carries_readItemMap indent _ ls
termination_by 4 * ls.length + 3
decreasing_by all_goals omega

theorem carries_readList (indent : Nat) (ls : List LogicalLine) :
    m.Carries (readList indent ls) (readList (indent + m.columns) (m.lines ls)) := by
  match ls with
  | [] =>
    rw [readList, lines_nil, readList]
    exact carries_pure _ _
  | l :: more =>
    have hdedent := checkDedent_lines (m := m) indent (l :: more)
    rw [lines_cons] at hdedent ⊢
    rw [readList, readList]
    have hiff : (m.line l).indent ≠ indent + m.columns ↔ l.indent ≠ indent :=
      not_congr Nat.add_right_cancel_iff
    by_cases hend : l.indent ≠ indent
    · rw [if_pos hend, if_pos (hiff.mpr hend)]
      exact Carries.bind_ok hdedent fun _ => carries_pure _ _
    rw [if_neg hend, if_neg fun h => hend (hiff.mp h)]
    have htext : (m.line l).text = l.text := rfl
    rw [htext]
    by_cases hitem : !isItem l.text
    · rw [if_pos hitem, if_pos hitem]
      exact carries_throw _ _
    rw [if_neg hitem, if_neg hitem]
    refine (carries_readItem indent l.number l.text more).bind fun item rest hle _ => ?_
    have hle : rest.length ≤ more.length := hle
    exact (carries_readList indent rest).bind fun items left _ _ => carries_pure _ _
termination_by 4 * ls.length + 0
decreasing_by all_goals simp only [List.length_cons]; omega

end

end Move

/-- **It makes no difference where a script stands**, but for the line numbers of its errors. -/
theorem ofLines_move (m : Move) (ls : List LogicalLine) :
    ofLines (m.lines ls) = (ofLines ls).mapError m.error := by
  cases ls with
  | nil => rfl
  | cons l more =>
    rw [Move.lines_cons, ofLines, ofLines, if_neg (by simp), if_neg (by simp), ← Move.lines_cons]
    rcases (m.carries_readBlock (l :: more)).outcomes with
      ⟨e, hread, hmoved⟩ | ⟨node, rest, hle, hle', hread, hmoved⟩
    · rw [hread, hmoved]
      rfl
    · rw [hread, hmoved]
      cases rest <;> rfl

end PixelScene.Node
