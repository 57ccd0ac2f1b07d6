import Mathlib
import PixelScene.Proofs.Node.Line
import PixelScene.Proofs.Node.Move

/-!
# Layout that makes no difference

Blank lines and comments can stand anywhere, also inside a value over several lines. Blanks at the
end of a line, a carriage return among them, are nothing, a tab in front of a line is as good as two
spaces, and a script can be moved to the right as a whole.

* `LineEdit` is what happens to a line: a skipped line is added, or a line is kept and laid out
  anew. `LineEdit.Harmless` says which of these edits are meant.
* `LaidOut.trim_eq`, `LaidOut.indentOf_eq`: a line that is laid out anew has the same text, and its
  indentation moves with the script.
* `LogicalLine.gather_edits`: so the logical lines move as `Move` says.
* `read_edits`: what is read stays the same, and errors go with their line.

The edits are on physical lines, as an editor makes them. A comment is a line whose first sign is a
`#`; one behind a value is part of the value. A tab counts as two blanks in front of a line and as
one anywhere else. Errors report the number of a line, so an edit has to say where its lines go.
-/

namespace PixelScene

open Text (Blanks)

/-! ## Lines laid out anew -/

namespace Text

/-- Blanks at the end of a text make no difference to trimming, whatever the text is. -/
theorem trim_append_blanks (cs : List Char) {b : List Char} (hb : Blanks b) :
    trim (cs ++ b) = trim cs := by
  unfold trim
  cases hstart : trimStart cs with
  | nil =>
    have hcs : Blanks cs := by
      obtain ⟨front, hfront, hsplit⟩ := exists_blanks_trimStart cs
      rw [hstart, List.append_nil] at hsplit
      exact hsplit ▸ hfront
    rw [trimStart_append hcs]
    have hnil : trimStart b = [] := List.dropWhile_eq_nil_iff.mpr hb
    rw [hnil]
  | cons c more =>
    have happend : trimStart (cs ++ b) = trimStart cs ++ b := by
      unfold trimStart at hstart ⊢
      rw [List.dropWhile_append, hstart]
      rfl
    rw [happend, hstart, trimEnd_append _ hb]

end Text

namespace LogicalLine

theorem indentOf_replicate_append (columns : Nat) (cs : List Char) :
    indentOf (List.replicate columns ' ' ++ cs) = indentOf cs + columns := by
  induction columns with
  | zero => rfl
  | succ columns ih =>
    have hblank : Text.isBlank ' ' = true := rfl
    have hwidth : blankWidth ' ' = 1 := rfl
    rw [List.replicate_succ, List.cons_append, indentOf, if_pos hblank, ih, hwidth]
    omega

/-- The indentation of a line ends with its first sign. -/
theorem indentOf_append {cs : List Char} (h : ¬ Blanks cs) (ds : List Char) :
    indentOf (cs ++ ds) = indentOf cs := by
  induction cs with
  | nil => exact absurd Text.blanks_nil h
  | cons c cs ih =>
    rw [List.cons_append, indentOf, indentOf]
    cases hc : Text.isBlank c with
    | false => rfl
    | true =>
      have hcs : ¬ Blanks cs := fun hcs => h (List.forall_mem_cons.mpr ⟨hc, hcs⟩)
      rw [if_pos rfl, if_pos rfl, ih hcs]

end LogicalLine

/-- Some of the tabs in front of a text are turned into two spaces each. -/
inductive Untabs : List Char → List Char → Prop where
  | same (cs : List Char) : Untabs cs cs
  | tab {cs ds : List Char} (more : Untabs cs ds) : Untabs ('\t' :: cs) (' ' :: ' ' :: ds)
  | blank {c : Char} {cs ds : List Char} (isBlank : Text.isBlank c = true) (more : Untabs cs ds) :
      Untabs (c :: cs) (c :: ds)

namespace Untabs

variable {cs ds : List Char}

theorem trimStart_eq (h : Untabs cs ds) : Text.trimStart ds = Text.trimStart cs := by
  induction h with
  | same => rfl
  | tab _ ih => exact ih
  | @blank c cs ds hc _ ih =>
    unfold Text.trimStart at ih ⊢
    rw [List.dropWhile_cons_of_pos hc, List.dropWhile_cons_of_pos hc, ih]

/-- A tab is as wide as two spaces. -/
theorem indentOf_eq (h : Untabs cs ds) : LogicalLine.indentOf ds = LogicalLine.indentOf cs := by
  induction h with
  | same => rfl
  | @tab cs ds _ ih =>
    have htab : LogicalLine.indentOf ('\t' :: cs) = 2 + LogicalLine.indentOf cs := rfl
    have hspaces : LogicalLine.indentOf (' ' :: ' ' :: ds) = 1 + (1 + LogicalLine.indentOf ds) := rfl
    omega
  | @blank c cs ds hc _ ih =>
    rw [LogicalLine.indentOf, LogicalLine.indentOf, if_pos hc, if_pos hc, ih]

end Untabs

/-- A line laid out anew: moved to the right, some tabs in front of it turned into spaces, and
blanks put behind it. -/
def LaidOut (columns : Nat) (line laid : List Char) : Prop :=
  ∃ untabbed behind, Untabs line untabbed ∧ Blanks behind ∧
    laid = List.replicate columns ' ' ++ untabbed ++ behind

namespace LaidOut

variable {columns : Nat} {line laid : List Char}

/-- Layout does not change the text of a line. -/
theorem trim_eq (h : LaidOut columns line laid) : Text.trim laid = Text.trim line := by
  obtain ⟨untabbed, behind, htabs, hbehind, rfl⟩ := h
  rw [Text.trim_append_blanks _ hbehind, Text.trim, Text.trimStart_append (Text.blanks_replicate _),
    htabs.trimStart_eq, Text.trim]

/-- Layout moves a line to the right by as much as the script is moved. -/
theorem indentOf_eq (h : LaidOut columns line laid) (hline : ¬ Blanks line) :
    LogicalLine.indentOf laid = LogicalLine.indentOf line + columns := by
  obtain ⟨untabbed, behind, htabs, -, rfl⟩ := h
  have huntabbed : ¬ Blanks untabbed := by
    intro hblanks
    have hnil : Text.trimStart untabbed = [] := List.dropWhile_eq_nil_iff.mpr hblanks
    rw [htabs.trimStart_eq] at hnil
    exact hline (List.dropWhile_eq_nil_iff.mp hnil)
  rw [List.append_assoc, LogicalLine.indentOf_replicate_append,
    LogicalLine.indentOf_append huntabbed, htabs.indentOf_eq]

/-- A line that is not skipped is the first part of the same logical line, moved. -/
theorem start_eq (h : LaidOut columns line laid)
    (hkept : LogicalLine.isSkipped (Text.trim line) = false) (number : Nat) :
    LogicalLine.start number laid =
      ⟨number, LogicalLine.indentOf line + columns, Text.trim line⟩ := by
  have hline : ¬ Blanks line := by
    intro hblanks
    have hnil : Text.trim line = [] := by
      rw [Text.trim, Text.trimStart, List.dropWhile_eq_nil_iff.mpr hblanks]
      rfl
    rw [hnil] at hkept
    cases hkept
  rw [LogicalLine.start, h.trim_eq, h.indentOf_eq hline]

end LaidOut

/-! ## Edits -/

/-- What happens to a line of a source. -/
inductive LineEdit where
  | added (line : List Char)
  | kept (line laid : List Char)

namespace LineEdit

/-- The line before the edit; there was none where one is added. -/
def before? : LineEdit → Option (List Char)
  | added _ => none
  | kept line _ => some line

/-- The line after the edit. -/
def after : LineEdit → List Char
  | added line => line
  | kept _ laid => laid

/-- Only lines that are skipped are added, and lines that are kept are only laid out anew. -/
def Harmless (columns : Nat) : LineEdit → Prop
  | added line => LogicalLine.isSkipped (Text.trim line) = true
  | kept line laid => LaidOut columns line laid

/-- The lines before some edits. -/
def linesBefore (edits : List LineEdit) : List (List Char) := edits.filterMap before?

/-- The lines after some edits. -/
def linesAfter (edits : List LineEdit) : List (List Char) := edits.map after

/-- Where a line has gone, both places counted from zero. -/
def newPlace : List LineEdit → Nat → Nat
  | [], i => i
  | added _ :: edits, i => newPlace edits i + 1
  | kept _ _ :: _, 0 => 0
  | kept _ _ :: edits, i + 1 => newPlace edits i + 1

/-- A line has gone where it stands laid out anew. -/
theorem getElem?_newPlace {columns : Nat} {edits : List LineEdit}
    (h : ∀ e ∈ edits, e.Harmless columns) {i : Nat} {line : List Char}
    (hline : (linesBefore edits)[i]? = some line) :
    ∃ laid, (linesAfter edits)[newPlace edits i]? = some laid ∧ LaidOut columns line laid := by
  induction edits generalizing i with
  | nil => cases hline
  | cons e edits ih =>
    obtain ⟨he, hedits⟩ := List.forall_mem_cons.mp h
    cases e with
    | added extra => exact ih hedits hline
    | kept old laid =>
      cases i with
      | zero =>
        obtain rfl : old = line := Option.some.inj hline
        exact ⟨laid, rfl, he⟩
      | succ i => exact ih hedits hline

/-- How some edits move the script: the number of each line, counted from one, and the columns. -/
def move (edits : List LineEdit) (columns : Nat) : Node.Move :=
  ⟨fun number => newPlace edits (number - 1) + 1, columns⟩

end LineEdit

/-! ## Logical lines -/

namespace LogicalLine

open LineEdit (linesBefore linesAfter newPlace)

/-- Physical lines with their numbers. -/
def numberFrom (number : Nat) (lines : List (List Char)) : List (Nat × List Char) :=
  lines.mapIdx fun i line => (number + i, line)

theorem numberFrom_cons (number : Nat) (line : List Char) (lines : List (List Char)) :
    numberFrom number (line :: lines) = (number, line) :: numberFrom (number + 1) lines := by
  rw [numberFrom, List.mapIdx_cons]
  simp only [Nat.add_zero, numberFrom, Nat.add_assoc, Nat.add_comm 1]

theorem logicalLines_eq (source : List Char) :
    logicalLines source = gather none (numberFrom 1 (Text.lines source)) := by
  rw [← linesFrom_one]
  rfl

/-- A line that is laid out anew starts or continues the line that has moved. -/
theorem joined_laidOut (m : Node.Move) {line laid : List Char} (hlaid : LaidOut m.columns line laid)
    (hholds : isSkipped (Text.trim line) = false) (pending : Option (LogicalLine × Int))
    (number : Nat) :
    joined (pending.map fun p => (m.line p.1, p.2)) (m.place number) laid =
      m.line (joined pending number line) := by
  cases pending with
  | none => exact hlaid.start_eq hholds _
  | some p =>
    rw [joined, hlaid.trim_eq]
    rfl

/-- **The logical lines move with the script.** -/
theorem gather_edits (m : Node.Move) {edits : List LineEdit}
    (h : ∀ e ∈ edits, e.Harmless m.columns) {number number' : Nat}
    (hplace : ∀ i < (linesBefore edits).length, m.place (number + i) = number' + newPlace edits i)
    (pending : Option (LogicalLine × Int)) :
    gather (pending.map fun p => (m.line p.1, p.2)) (numberFrom number' (linesAfter edits)) =
      m.lines (gather pending (numberFrom number (linesBefore edits))) := by
  induction edits generalizing number number' pending with
  | nil => cases pending <;> rfl
  | cons e edits ih =>
    obtain ⟨he, hedits⟩ := List.forall_mem_cons.mp h
    cases e with
    | added line =>
      have hplace' : ∀ i < (linesBefore edits).length,
          m.place (number + i) = number' + 1 + newPlace edits i := by
        intro i hi
        have hi' := hplace i hi
        rw [newPlace] at hi'
        omega
      have hafter : linesAfter (.added line :: edits) = line :: linesAfter edits := rfl
      rw [hafter, numberFrom_cons, gather_skipped _ _ _ he]
      exact ih hedits hplace' pending
    | kept line laid =>
      have hlaid : LaidOut m.columns line laid := he
      have hfirst : m.place number = number' := hplace 0 (Nat.zero_lt_succ _)
      have hplace' : ∀ i < (linesBefore edits).length,
          m.place (number + 1 + i) = number' + 1 + newPlace edits i := by
        intro i hi
        have hi' := hplace (i + 1) (Nat.succ_lt_succ hi)
        rw [newPlace] at hi'
        rw [Nat.add_right_comm, Nat.add_assoc, hi']
        omega
      have hnext := fun pending => ih hedits hplace' pending
      have hnone := hnext none
      have hsome := fun l depth => hnext (some (l, depth))
      simp only [Option.map_none, Option.map_some] at hnone hsome
      have hbefore : linesBefore (.kept line laid :: edits) = line :: linesBefore edits := rfl
      have hafter : linesAfter (.kept line laid :: edits) = laid :: linesAfter edits := rfl
      rw [hbefore, hafter, numberFrom_cons, numberFrom_cons]
      cases hskip : isSkipped (Text.trim line) with
      | true =>
        rw [gather_skipped _ _ _ hskip, gather_skipped _ _ _ (hlaid.trim_eq ▸ hskip)]
        exact hnext pending
      | false =>
        rw [gather_joined _ _ _ hskip, gather_joined _ _ _ (hlaid.trim_eq ▸ hskip), hlaid.trim_eq,
          pendingDepth_map, ← hfirst, joined_laidOut m hlaid hskip]
        simp only [apply_ite m.lines, hfirst, hsome, hnone, Node.Move.lines_cons]

end LogicalLine

/-! ## Sources -/

namespace Node

open LineEdit (linesBefore linesAfter newPlace)

/--
**Layout makes no difference to what is read.** Lines that are blank or comments are added anywhere,
and the others are laid out anew. Then the same tree is read; or the same fault is met, in the line
that the faulty line has become.
-/
theorem read_edits (columns : Nat) (edits : List LineEdit)
    (harmless : ∀ e ∈ edits, e.Harmless columns) (source edited : List Char)
    (hsource : Text.lines source = linesBefore edits)
    (hedited : Text.lines edited = linesAfter edits) :
    (∀ i line, (Text.lines source)[i]? = some line → ∃ laid,
      (Text.lines edited)[newPlace edits i]? = some laid ∧ LaidOut columns line laid) ∧
    read edited = (read source).mapError fun e => ⟨newPlace edits (e.line - 1) + 1, e.fault⟩ := by
  constructor
  · intro i line hline
    rw [hsource] at hline
    rw [hedited]
    exact LineEdit.getElem?_newPlace harmless hline
  · have hplace : ∀ i < (linesBefore edits).length,
        (LineEdit.move edits columns).place (1 + i) = 1 + newPlace edits i := by
      intro i _
      simp only [LineEdit.move, Nat.add_sub_cancel_left]
      exact Nat.add_comm _ _
    have hlines : logicalLines edited =
        (LineEdit.move edits columns).lines (logicalLines source) := by
      rw [LogicalLine.logicalLines_eq, LogicalLine.logicalLines_eq, hsource, hedited]
      exact LogicalLine.gather_edits (LineEdit.move edits columns) harmless hplace none
    rw [read, read, hlines, ofLines_move]
    rfl

/-- A value over two lines, and an entry that stands one column too far to the right. -/
def crookedSource : List Char :=
  "Spin: [a,\n  b ]\nHero:\n\tVisual: a\n Gravity: 1\n".toList

/-- The same script, moved by two columns, with comments, carriage returns and without tabs. -/
def crookedEdits : List LineEdit :=
  [.added "# frames".toList, .kept "Spin: [a,".toList "  Spin: [a,\r".toList,
    .added " // inside".toList, .kept "  b ]".toList "    b ]".toList,
    .kept "Hero:".toList "  Hero:\t ".toList, .kept "\tVisual: a".toList "    Visual: a\r".toList,
    .added "\t".toList, .kept " Gravity: 1".toList "   Gravity: 1".toList,
    .kept "".toList "  ".toList]

/-- The script after these edits. -/
def crookedEdited : List Char :=
  ("# frames\n  Spin: [a,\r\n // inside\n    b ]\n  Hero:\t \n    Visual: a\r\n\t\n"
    ++ "   Gravity: 1\n  ").toList

set_option maxRecDepth 20000 in
theorem read_edits_crooked :
    (∀ e ∈ crookedEdits, e.Harmless 2) ∧ Text.lines crookedSource = linesBefore crookedEdits ∧
      Text.lines crookedEdited = linesAfter crookedEdits ∧
      read crookedSource = .error ⟨5, .inconsistentIndentation⟩ ∧
      read crookedEdited = .error ⟨8, .inconsistentIndentation⟩ := by
  have hsource : Text.lines crookedSource = linesBefore crookedEdits := by decide +kernel
  have hedited : Text.lines crookedEdited = linesAfter crookedEdits := by decide +kernel
  have hread : read crookedSource = .error ⟨5, .inconsistentIndentation⟩ := by cbv
  have hblanks : ∀ {b : List Char}, b.all Text.isBlank = true → Blanks b := List.all_eq_true.mp
  have harmless : ∀ e ∈ crookedEdits, e.Harmless 2 := by
    simp only [crookedEdits, List.forall_mem_cons, LineEdit.Harmless]
    refine ⟨rfl, ⟨_, ['\r'], .same _, hblanks rfl, rfl⟩, rfl, ⟨_, [], .same _, hblanks rfl, rfl⟩,
      ⟨_, ['\t', ' '], .same _, hblanks rfl, rfl⟩, ⟨_, ['\r'], .tab (.same _), hblanks rfl, rfl⟩, rfl,
      ⟨_, [], .same _, hblanks rfl, rfl⟩, ⟨_, [], .same _, hblanks rfl, rfl⟩,
      List.forall_mem_nil _⟩
  obtain ⟨-, hedits⟩ := read_edits 2 crookedEdits harmless crookedSource crookedEdited hsource hedited
  exact ⟨harmless, hsource, hedited, hread, hedits.trans (by rw [hread]; rfl)⟩

end Node

end PixelScene
