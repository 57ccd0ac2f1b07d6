import PixelScene.Proofs.Node.Quote
import PixelScene.Proofs.Node.Word
import PixelScene.Proofs.Text.Split

/-!
# Logical lines of a source

`linesFrom` cuts a source whose first line has any number, so that what follows a line is again
such a source.

* `gather_joined`: a line that holds a text starts or continues a logical line; `gather_skipped`:
  any other line adds nothing.
* `linesFrom_line`: a line that closes the brackets it opens is a logical line of its own, and
  `linesFrom_open`: a line that leaves one open takes the next line with it.
* `linesFrom_add`: where a source stands in a script makes no difference but for the numbers.
* `balance_append_of_blanks`: blanks at its end make no difference to the brackets of a line.
* `WholeLine`: the texts that stand alone, each a logical line whatever comes below it.
* `splitKey?_append`: an entry line is cut after its key.

The engine goes over the physical lines once, with the logical line that is still open in hand
(`logical_lines`). Everything about logical lines is said of sources here and not of the loop: what
a source yields is what its first line yields, followed by what the rest yields from the next number
on.
-/

namespace PixelScene

open Text (Blanks StartsSolid EndsSolid)

namespace LogicalLine

/-! ## Cutting -/

/-- The logical lines of a source whose first line has the given number. -/
def linesFrom (number : Nat) (source : List Char) : List LogicalLine :=
  gather none ((Text.lines source).mapIdx fun i line => (number + i, line))

theorem linesFrom_one (source : List Char) : linesFrom 1 source = logicalLines source := by
  simp only [linesFrom, logicalLines, numbered, Nat.add_comm]

theorem lines_append {raw : List Char} (h : '\n' ∉ raw) (source : List Char) :
    Text.lines (raw ++ '\n' :: source) = raw :: Text.lines source :=
  Text.splitAt_append_cons h source

theorem lines_eq_self {raw : List Char} (h : '\n' ∉ raw) : Text.lines raw = [raw] :=
  Text.splitAt_eq_self h

theorem mapIdx_lines_append {raw : List Char} (h : '\n' ∉ raw) (number : Nat)
    (source : List Char) :
    ((Text.lines (raw ++ '\n' :: source)).mapIdx fun i line => (number + i, line)) =
      (number, raw) :: (Text.lines source).mapIdx fun i line => (number + 1 + i, line) := by
  rw [lines_append h, List.mapIdx_cons]
  simp only [Nat.add_zero, Nat.add_assoc, Nat.add_comm 1]

/-- The brackets that a pending line has open. -/
def pendingDepth (pending : Option (LogicalLine × Int)) : Int := (pending.map Prod.snd).getD 0

/-- The logical line that a physical line starts or continues. -/
def joined (pending : Option (LogicalLine × Int)) (number : Nat) (raw : List Char) : LogicalLine :=
  (pending.map fun p => p.1.extend (Text.trim raw)).getD (start number raw)

section Gather

variable (pending : Option (LogicalLine × Int)) (number : Nat) {raw : List Char}
  (more : List (Nat × List Char))

theorem gather_cons (raw : List Char) : gather pending ((number, raw) :: more) =
    if isSkipped (Text.trim raw) then gather pending more
    else if 0 < pendingDepth pending + balance none (Text.trim raw) then
      gather (some (joined pending number raw,
        pendingDepth pending + balance none (Text.trim raw))) more
    else joined pending number raw :: gather none more := by
  cases pending <;> rfl

/-- A skipped line adds nothing, whatever is pending. -/
theorem gather_skipped (h : isSkipped (Text.trim raw) = true) :
    gather pending ((number, raw) :: more) = gather pending more := by
  rw [gather_cons, if_pos h]

/-- Any other line starts or continues a logical line, which ends with it if no bracket is open. -/
theorem gather_joined (h : isSkipped (Text.trim raw) = false) :
    gather pending ((number, raw) :: more) =
      if 0 < pendingDepth pending + balance none (Text.trim raw) then
        gather (some (joined pending number raw,
          pendingDepth pending + balance none (Text.trim raw))) more
      else joined pending number raw :: gather none more := by
  rw [gather_cons, h, if_neg Bool.false_ne_true]

/-- A line that closes the brackets it opens is a logical line. -/
theorem gather_line (h : isSkipped (Text.trim raw) = false)
    (hclosed : balance none (Text.trim raw) ≤ 0) :
    gather none ((number, raw) :: more) = start number raw :: gather none more := by
  have hdepth : ¬ 0 < pendingDepth none + balance none (Text.trim raw) :=
    Int.not_lt.mpr ((Int.zero_add _).trans_le hclosed)
  rw [gather_joined none number more h, if_neg hdepth]
  rfl

end Gather

variable {number : Nat} {raw : List Char}

/-- The lines behind a line that closes the brackets it opens are gathered by themselves. -/
theorem linesFrom_line (hline : '\n' ∉ raw) (htext : isSkipped (Text.trim raw) = false)
    (hclosed : balance none (Text.trim raw) ≤ 0) (source : List Char) :
    linesFrom number (raw ++ '\n' :: source) =
      start number raw :: linesFrom (number + 1) source := by
  rw [linesFrom, mapIdx_lines_append hline, gather_line number _ htext hclosed, ← linesFrom]

/-- A line that leaves a bracket open goes on over the next line. -/
theorem linesFrom_open (hline : '\n' ∉ raw) (htext : isSkipped (Text.trim raw) = false)
    (hopen : 0 < balance none (Text.trim raw)) {next : List Char} (hnext : '\n' ∉ next)
    (hnextText : isSkipped (Text.trim next) = false) :
    linesFrom number (raw ++ '\n' :: next) = [(start number raw).extend (Text.trim next)] := by
  have hdepth : 0 < pendingDepth none + balance none (Text.trim raw) :=
    hopen.trans_eq (Int.zero_add _).symm
  rw [linesFrom, mapIdx_lines_append hline, gather_joined none number _ htext, if_pos hdepth,
    lines_eq_self hnext, List.mapIdx_singleton, gather_joined _ _ _ hnextText]
  split
  · rfl
  · rfl

/-! ## Numbers -/

/-- The line with its number moved on. -/
def shift (d : Nat) (line : LogicalLine) : LogicalLine := { line with number := line.number + d }

theorem pendingDepth_map (f : LogicalLine → LogicalLine) (pending : Option (LogicalLine × Int)) :
    pendingDepth (pending.map fun p => (f p.1, p.2)) = pendingDepth pending := by
  cases pending <;> rfl

theorem joined_shift (d : Nat) (pending : Option (LogicalLine × Int)) (number : Nat)
    (raw : List Char) :
    joined (pending.map fun p => (p.1.shift d, p.2)) (number + d) raw =
      (joined pending number raw).shift d := by
  cases pending <;> rfl

theorem gather_shift (d : Nat) (pending : Option (LogicalLine × Int))
    (ls : List (Nat × List Char)) :
    gather (pending.map fun p => (p.1.shift d, p.2)) (ls.map fun l => (l.1 + d, l.2)) =
      (gather pending ls).map (shift d) := by
  induction ls generalizing pending with
  | nil => cases pending <;> rfl
  | cons l ls ih =>
    have hnone := ih none
    have hsome := fun line depth => ih (some (line, depth))
    simp only [Option.map_none, Option.map_some] at hnone hsome
    rw [List.map_cons, gather_cons, gather_cons, joined_shift, pendingDepth_map]
    simp only [apply_ite (List.map (shift d)), List.map_cons, ih, hnone, hsome]

/-- Where a source stands in a script makes no difference but for the numbers. -/
theorem linesFrom_add (number d : Nat) (source : List Char) :
    linesFrom (number + d) source = (linesFrom number source).map (shift d) := by
  have hnumbers : ((Text.lines source).mapIdx fun i line => (number + d + i, line)) =
      ((Text.lines source).mapIdx fun i line => (number + i, line)).map
        fun l => (l.1 + d, l.2) := by
    refine List.ext_getElem? fun i => ?_
    simp only [List.getElem?_mapIdx, List.getElem?_map, Option.map_map]
    refine congrArg (Option.map · _) (funext fun line => ?_)
    exact Prod.ext (Nat.add_right_comm number d i) rfl
  rw [linesFrom, linesFrom, hnumbers]
  exact gather_shift d none _

/-! ## Indentation and brackets -/

theorem indentOf_replicate (column : Nat) {text : List Char} (h : StartsSolid text) :
    indentOf (List.replicate column ' ' ++ text) = column := by
  induction column with
  | zero =>
    obtain ⟨c, more, rfl, hc⟩ := h
    rw [List.replicate_zero, List.nil_append, indentOf, hc]
    rfl
  | succ column ih =>
    rw [List.replicate_succ, List.cons_append, indentOf, ih]
    exact Nat.add_comm 1 column

theorem balance_of_blanks (quote : Option Char) {b : List Char} (hb : Blanks b) :
    balance quote b = 0 := by
  induction b generalizing quote with
  | nil => cases quote <;> rfl
  | cons c b ih =>
    obtain ⟨hc, hb⟩ := List.forall_mem_cons.mp hb
    cases quote with
    | none => rw [Node.balance_cons_of_inert (Node.inert_of_isBlank hc), ih none hb]
    | some q =>
      have hbackslash : c ≠ '\\' := by
        rintro rfl
        exact absurd hc (by decide)
      rw [Node.balance_some_cons hbackslash, ih none hb, ih (some q) hb, ite_self]

/-- Blanks at the end of a text open and close nothing, even in quotes. -/
theorem balance_append_of_blanks (quote : Option Char) (cs : List Char) {b : List Char}
    (hb : Blanks b) : balance quote (cs ++ b) = balance quote cs := by
  have hplain : ∀ {c : Char} {cs : List Char}, (c = '\\' → cs = [] → False) →
      (∀ d ds, c = '\\' → cs = d :: ds → False) → c ≠ '\\' := by
    intro c cs hnil hcons hc
    cases cs with
    | nil => exact hnil hc rfl
    | cons d ds => exact hcons d ds hc rfl
  fun_induction balance quote cs with
  | case1 quote => exact balance_of_blanks quote hb
  | case2 c cs ih => rw [List.cons_append, balance, ih]
  | case3 q =>
    cases b with
    | nil => rfl
    | cons c b =>
      have hclosed : balance (some q) b = 0 := balance_of_blanks _ (List.forall_mem_cons.mp hb).2
      exact hclosed
  | case4 q c cs ih => exact ih
  | case5 q cs hnil hcons ih =>
    rw [List.cons_append, Node.balance_some_cons (hplain hnil hcons), if_pos rfl, ih]
  | case6 q c cs hnil hcons hc ih =>
    rw [List.cons_append, Node.balance_some_cons (hplain hnil hcons), if_neg hc, ih]

end LogicalLine

/-! ## Lines that stand alone -/

/-- A text that is a line of its own. -/
structure WholeLine (text : List Char) : Prop where
  starts : StartsSolid text
  ends : EndsSolid text
  oneLine : '\n' ∉ text
  kept : LogicalLine.isSkipped text = false
  closed : LogicalLine.balance none text ≤ 0

theorem isSkipped_cons {c : Char} (hhash : c ≠ '#') (hslash : c ≠ '/') (cs : List Char) :
    LogicalLine.isSkipped (c :: cs) = false := by
  simp [LogicalLine.isSkipped, List.isPrefixOf, Ne.symm hhash, Ne.symm hslash]

/-- A dash in front of a line that is whole, whatever the line is kept for. -/
theorem WholeLine.item {text : List Char} (h : WholeLine text) :
    WholeLine ('-' :: ' ' :: text) where
  starts := ⟨'-', _, rfl, rfl⟩
  ends := (h.ends.cons ' ').cons '-'
  oneLine := by simp [h.oneLine]
  kept := isSkipped_cons (by decide) (by decide) _
  closed := by
    rw [Node.balance_cons_of_inert (by decide), Node.balance_cons_of_inert (by decide)]
    exact h.closed

/-- With blanks around it, the text is a logical line. -/
theorem WholeLine.linesFrom {text b : List Char} (h : WholeLine text) (hb : Blanks b)
    (oneLine : '\n' ∉ b) (column number : Nat) (source : List Char) :
    LogicalLine.linesFrom number (List.replicate column ' ' ++ text ++ b ++ '\n' :: source) =
      ⟨number, column, text⟩ :: LogicalLine.linesFrom (number + 1) source := by
  have hraw : '\n' ∉ List.replicate column ' ' ++ text ++ b := by
    intro hmem
    rcases List.mem_append.mp hmem with hmem | hmem
    · rcases List.mem_append.mp hmem with hmem | hmem
      · exact absurd (List.eq_of_mem_replicate hmem) (by decide)
      · exact h.oneLine hmem
    · exact oneLine hmem
  have htrim : Text.trim (List.replicate column ' ' ++ text ++ b) = text :=
    Text.trim_append (Text.blanks_replicate column) h.starts h.ends hb
  have hstart : LogicalLine.start number (List.replicate column ' ' ++ text ++ b) =
      ⟨number, column, text⟩ := by
    rw [LogicalLine.start, htrim, List.append_assoc,
      LogicalLine.indentOf_replicate column (h.starts.append b)]
  rw [LogicalLine.linesFrom_line hraw (by rw [htrim, h.kept]) (by rw [htrim]; exact h.closed),
    hstart]

theorem WholeLine.trim_space {text : List Char} (h : WholeLine text) :
    Text.trim (' ' :: text) = text := by
  have htrim : Text.trim ([' '] ++ text ++ []) = text :=
    Text.trim_append Text.blanks_space h.starts h.ends Text.blanks_nil
  rwa [List.append_nil, List.singleton_append] at htrim

/-- A source that is only this text is one logical line. -/
theorem WholeLine.logicalLines_eq {text : List Char} (h : WholeLine text) :
    logicalLines text = [⟨1, 0, text⟩] := by
  have htrim : Text.trim text = text := Text.trim_eq_self h.starts h.ends
  have hindent : LogicalLine.indentOf text = 0 := LogicalLine.indentOf_replicate 0 h.starts
  rw [logicalLines, LogicalLine.numbered, LogicalLine.lines_eq_self h.oneLine,
    List.mapIdx_singleton, LogicalLine.gather_line _ _ (htrim.symm ▸ h.kept)
      (htrim.symm ▸ h.closed), LogicalLine.start, htrim, hindent]
  rfl

/-! ## Keys -/

namespace Node

variable {w : List Char}

theorem Plain.unquote_eq (h : Plain w) : unquote w = w := by
  obtain ⟨c, more, rfl, hc⟩ := h.exists_cons
  have hquote : isQuote c = false := (inert_of_isPlain hc).1
  cases more with
  | nil => rfl
  | cons d more =>
    refine if_neg fun hand => ?_
    rw [hquote] at hand
    exact absurd hand.1 nofun

theorem Plain.trim_eq (h : Plain w) : Text.trim w = w :=
  Text.trim_eq_self h.startsSolid h.endsSolid

theorem cutColon?_colon {after : List Char} (hafter : endsWord after = true) :
    cutColon? none 0 (':' :: after) = some ([], after) := by
  rw [cutColon?, if_pos ⟨rfl, rfl, hafter⟩]

/-- An entry line is cut at the colon after its key. -/
theorem Plain.splitKey?_append (h : Plain w) {after : List Char} (hafter : endsWord after = true) :
    splitKey? (w ++ ':' :: after) = some (w, Text.trim after) := by
  have hcut : cutColon? none 0 (w ++ ':' :: after) = some (w, after) := by
    rw [cutColon?_append_of_isPlain h.plain, cutColon?_colon hafter, Option.map_some,
      List.append_nil]
  have hkey : w.isEmpty = false := List.isEmpty_eq_false_iff.mpr h.ne_nil
  rw [splitKey?, hcut]
  simp only [h.trim_eq, h.unquote_eq, hkey, Bool.false_eq_true, if_false]

/-- A word holds no key. -/
theorem Plain.splitKey?_eq_none (h : Plain w) : splitKey? w = none := by
  have hcut := cutColon?_append_of_isPlain h.plain 0 []
  rw [List.append_nil, cutColon?, Option.map_none] at hcut
  rw [splitKey?, hcut]

/-- A quoted text holds no key. -/
theorem splitKey?_quote (cs : List Char) : splitKey? (quote cs) = none := by
  have hcut := cutColon?_quote 0 cs []
  rw [List.append_nil, cutColon?, Option.map_none] at hcut
  rw [splitKey?, hcut]

end Node

end PixelScene
