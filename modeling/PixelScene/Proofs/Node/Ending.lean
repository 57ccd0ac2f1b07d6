import Mathlib
import PixelScene.Proofs.Node.BlockRounds
import PixelScene.Proofs.Node.Line

/-!
# Reading ends

A script needs no more rounds than it has characters, and two: its logical lines are no more and no
longer than that.

* `weight_logicalLines_le`: a logical line weighs what it is long, and one, and together the logical
  lines of a source weigh no more than the source.
* `reading_ends`: read in rounds, a value on one line and a script come to what the readers return,
  and each pass of a loop and each value or block inside moves on.

What the engine reads is any text, well-formed or not. Its loops are unbounded, and its readers call
each other; here both have a number of rounds, and a bound beyond the length of the text never is
the reason to stop. The second half of the statement is why: no pass and no call leaves its input
where it was, unless it was the last.
-/

namespace PixelScene

/-! ## How long logical lines are -/

namespace Text

/-- The parts of a text, each with a mark behind it, are as long as the text with a mark
behind it. -/
theorem sum_length_splitAt (mark : Char) (cs : List Char) :
    ((splitAt mark cs).map fun part => part.length + 1).sum = cs.length + 1 := by
  induction cs with
  | nil => rfl
  | cons c cs ih =>
    by_cases hc : c = mark
    · rw [hc, splitAt_mark_cons, List.map_cons, List.sum_cons, ih, List.length_cons, List.length_nil,
        Nat.zero_add, Nat.add_comm]
    · obtain ⟨part, parts, hparts⟩ := exists_splitAt_eq_cons mark cs
      rw [hparts, List.map_cons, List.sum_cons] at ih
      rw [splitAt_cons_of_ne hc hparts, List.map_cons, List.sum_cons, List.length_cons,
        List.length_cons, ← ih, Nat.add_right_comm _ 1, Nat.add_right_comm _ 1]

end Text

namespace LogicalLine

/-- How long lines are, with one more character for each. -/
def weight (ls : List LogicalLine) : Nat := (ls.map fun line => line.text.length + 1).sum

/-- How long a line is that others may continue. -/
def pendingWeight (pending : Option (LogicalLine × Int)) : Nat :=
  (pending.map fun p => p.1.text.length + 1).getD 0

theorem weight_cons (line : LogicalLine) (ls : List LogicalLine) :
    weight (line :: ls) = line.text.length + 1 + weight ls := by
  rw [weight, List.map_cons, List.sum_cons, ← weight]

theorem pendingWeight_none : pendingWeight none = 0 := rfl

theorem pendingWeight_some (line : LogicalLine) (depth : Int) :
    pendingWeight (some (line, depth)) = line.text.length + 1 := rfl

theorem length_extend (line : LogicalLine) (cs : List Char) :
    (line.extend cs).text.length = line.text.length + (cs.length + 1) := by
  rw [extend, List.length_append, List.length_cons]

/-- A physical line adds no more than its own length to the pending line. -/
theorem length_joined_le (pending : Option (LogicalLine × Int)) (number : Nat) (raw : List Char) :
    (joined pending number raw).text.length ≤ pendingWeight pending + raw.length := by
  have htrim := Text.length_trim_le raw
  cases pending with
  | none => exact htrim.trans (Nat.le_add_left _ _)
  | some p =>
    have hlength : (joined (some p) number raw).text.length =
        p.1.text.length + ((Text.trim raw).length + 1) := length_extend p.1 (Text.trim raw)
    rw [hlength, pendingWeight_some]
    omega

/-- Logical lines are no longer than the lines they are made of. -/
theorem weight_gather_le (pending : Option (LogicalLine × Int)) (lines : List (Nat × List Char)) :
    weight (gather pending lines) ≤
      pendingWeight pending + (lines.map fun line => line.2.length + 1).sum := by
  induction lines generalizing pending with
  | nil =>
    cases pending with
    | none => exact Nat.le_refl _
    | some p => exact Nat.le_refl _
  | cons first more ih =>
    obtain ⟨number, raw⟩ := first
    have hline := length_joined_le pending number raw
    have hsame := ih pending
    have hclosed := ih none
    have hopen := ih (some (joined pending number raw,
      pendingDepth pending + balance none (Text.trim raw)))
    rw [pendingWeight_none] at hclosed
    rw [pendingWeight_some] at hopen
    simp only [List.map_cons, List.sum_cons]
    rw [gather_cons]
    split
    · omega
    · split
      · omega
      · rw [weight_cons]
        omega

/-- Logical lines weigh no more than their source. -/
theorem weight_logicalLines_le (source : List Char) :
    weight (logicalLines source) ≤ source.length + 1 := by
  have hlines : ((numbered (Text.lines source)).map fun line => line.2.length + 1) =
      (Text.lines source).map fun line => line.length + 1 := by
    refine List.ext_getElem? fun i => ?_
    simp only [numbered, List.getElem?_map, List.getElem?_mapIdx, Option.map_map, Function.comp_def]
  have hgather := weight_gather_le none (numbered (Text.lines source))
  rw [hlines, Text.lines, Text.sum_length_splitAt] at hgather
  exact hgather.trans (Nat.zero_add _).le

theorem length_le_weight (ls : List LogicalLine) : ls.length ≤ weight ls := by
  have hone : ∀ n ∈ ls.map fun line => line.text.length + 1, 1 ≤ n := by
    intro n hn
    obtain ⟨line, -, rfl⟩ := List.mem_map.mp hn
    exact Nat.le_add_left 1 _
  have hlength := List.length_le_sum_of_one_le _ hone
  rwa [List.length_map] at hlength

theorem text_length_lt_weight {line : LogicalLine} {ls : List LogicalLine} (h : line ∈ ls) :
    line.text.length < weight ls := by
  have hmem : line.text.length + 1 ∈ ls.map fun line => line.text.length + 1 :=
    List.mem_map.mpr ⟨line, h, rfl⟩
  exact List.le_sum_of_mem hmem

end LogicalLine

namespace Node

namespace InRounds

variable {inline : List Char → Nat → Run ReadError Node} {rounds : Nat} {ls : List LogicalLine}

/-! ## A whole script -/

theorem ofLines_agrees
    (hinline : ∀ text number, (inline text number).Agrees (wholeInline text number)) (rounds : Nat)
    (ls : List LogicalLine) : (ofLines inline rounds ls).Agrees (Run.of (Node.ofLines ls)) := by
  unfold ofLines Node.ofLines
  split
  · exact .refl _
  · rw [of_bind (g := atEnd)]
    · exact (block_agrees hinline rounds ls).bind fun _ => .refl _
    · intro ⟨node, rest⟩ _
      cases rest with
      | nil => rfl
      | cons line more => rfl

theorem ofLines_ends (hinline : ValuesEnd inline ls) (h : ls.length < rounds) :
    (ofLines inline rounds ls).Ends := by
  unfold ofLines
  split
  · exact Run.ends_pure _
  · refine (block_ends hinline h).bind fun ⟨node, rest⟩ _ => ?_
    cases rest with
    | nil => exact Run.ends_pure _
    | cons line more => exact Run.ends_throw _

theorem read_agrees (rounds : Nat) (source : List Char) :
    (read rounds source).Agrees (Run.of (Node.read source)) :=
  ofLines_agrees (fun text number => inline_agrees rounds text number) rounds (logicalLines source)

theorem read_ends {source : List Char} (h : source.length + 1 < rounds) : (read rounds source).Ends := by
  have hweight := LogicalLine.weight_logicalLines_le source
  refine ofLines_ends (fun line hline text number htext => inline_ends number ?_) ?_
  · have htext' := LogicalLine.text_length_lt_weight hline
    omega
  · have hlength := LogicalLine.length_le_weight (logicalLines source)
    omega

end InRounds

open InRounds in
/-- **Reading ends.** A value on one line and a script, read in rounds that are more than the
characters allow for, come to what the readers return. The reason is that nothing stands still: a
pass over entries or items on one line, and a value inside that goes on, leave less of the text, and
so do a pass over the entries or items of a block, and a block inside it, with the lines. Entries
that begin behind a dash are read by a loop of their own, which may have any number of rounds. -/
theorem reading_ends :
    (∀ text number rounds, text.length < rounds →
      InRounds.inline rounds text number = Run.of (parseInline text number)) ∧
    (∀ source rounds, source.length + 1 < rounds →
      InRounds.read rounds source = Run.of (Node.read source)) ∧
    (∀ rounds, Progresses (entryPass (value rounds)) ∧ Progresses (itemPass (value rounds))) ∧
    (∀ separators cs nest rest, (opening separators cs).Returns (.again nest, rest) →
      Further cs rest) ∧
    (∀ inline rounds mapRounds indent, Progresses (mapPass inline (block inline rounds) indent) ∧
      Progresses (listPass inline (block inline rounds)
        (mapLoop inline (block inline rounds) mapRounds) indent)) ∧
    ∀ inline rounds line more node rest,
      (block inline rounds (line :: more)).Returns (node, rest) → Further (line :: more) rest := by
  refine ⟨fun text number rounds h => ?_, fun source rounds h => ?_, fun rounds => ⟨?_, ?_⟩,
    fun separators cs nest rest h => ?_, fun inline rounds mapRounds indent => ⟨?_, ?_⟩,
    fun inline rounds line more node rest h => ?_⟩
  · exact (inline_agrees rounds text number).eq (inline_ends number h)
  · exact (read_agrees rounds source).eq (read_ends h)
  · exact progresses_entryPass (takes_value rounds)
  · exact progresses_itemPass (takes_value rounds)
  · exact (opening_returns h).2 nest rfl
  · exact progresses_mapPass (takes_block rounds)
  · exact progresses_listPass (takes_block rounds) (takes_mapLoop (takes_block rounds) mapRounds)
  · exact further_of_block h

/-- A list that ends at a comma, and one on a line of its own. -/
theorem reading_ends_list :
    InRounds.inline 4 "[1,".toList 7 = Run.of (parseInline "[1,".toList 7) ∧
      InRounds.read 3 "-".toList = Run.of (Node.read "-".toList) ∧
      (∃ rest, (InRounds.opening [] "[1".toList).Returns (.again .items, rest) ∧
        Further "[1".toList rest) ∧
      ∃ node rest, (InRounds.block (InRounds.inline 3) 3 [⟨1, 0, ['-']⟩]).Returns (node, rest) ∧
        Further [⟨1, 0, ['-']⟩] rest :=
  ⟨reading_ends.1 _ 7 4 (by decide), reading_ends.2.1 _ 3 (by decide),
    ⟨['1'], rfl, reading_ends.2.2.2.1 [] _ .items _ rfl⟩,
    ⟨.list [.null], [], rfl, reading_ends.2.2.2.2.2 (InRounds.inline 3) 3 _ [] _ _ rfl⟩⟩

end Node

end PixelScene
