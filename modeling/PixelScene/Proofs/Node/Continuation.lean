import Mathlib
import PixelScene.Proofs.Node.Frame
import PixelScene.Proofs.Node.LayoutReading
import PixelScene.Proofs.Node.Move

/-!
# Where a value on one line ends

Two scanners decide where a value in brackets or braces ends. `balance` decides whether its line
goes on over the next ones, and takes every quote and every bracket as a sign; the readers of values
take them as plain characters inside bare words, as in `{ a: it's }`. Where the two disagree, a
statement takes the next ones along.

* `KeepsStatements`: the value is read as a node and leaves the statements below it alone.
* `keepsStatements_iff`: a value that is complete on its line does so exactly when `balance` counts
  no open bracket at its end.
* `FlowText.keepsStatements`: a value whose texts are all in quotes does.

The count of brackets (`bracket_balance`) is meant to leave out what stands in quotes. It opens a
quote at every apostrophe, though, also in the middle of a word, and a quote that nothing closes
hides all brackets up to the end of the line. The reader of values (`Flow`) opens a quote only where
a value or a key begins. The condition is exact for every value, every key and all statements below.
-/

namespace PixelScene.Node

open LogicalLine (balance linesFrom shift)
open Text (Blanks StartsSolid EndsSolid)

/-! ## Statements -/

/-- A key of ASCII letters. -/
structure LetterKey (key : List Char) : Prop where
  ne_nil : key ≠ []
  letters : ∀ c ∈ key, c.isAlpha = true

/-- The first logical line of the source, if there is one, is not indented. -/
def TopLevel (source : List Char) : Prop := ∀ line ∈ (logicalLines source).head?, line.indent = 0

instance (source : List Char) : Decidable (TopLevel source) :=
  inferInstanceAs (Decidable (∀ line ∈ (logicalLines source).head?, _))

/-- A statement on a line of its own, and a source below it. -/
def statement (key v source : List Char) : List Char := key ++ ':' :: ' ' :: v ++ '\n' :: source

/-- In front of any script, a statement with the value `v` adds the entry with the node `n` and
nothing else. -/
def KeepsStatements (v : List Char) (n : Node) : Prop :=
  ∀ {key source : List Char} {entries : List (String × Node)}, LetterKey key → TopLevel source →
    read source = .ok (.map entries) →
      read (statement key v source) = .ok (.map ((String.ofList key, n) :: entries))

theorem LetterKey.keyWord {key : List Char} (h : LetterKey key) : KeyWord key where
  ne_nil := h.ne_nil
  keyChars c hc := by simp [isKeyChar, Char.isAlphanum, h.letters c hc]

/-! ## Scripts that are mappings -/

/-- The lines of a mapping are its entries, in the column of the first. -/
theorem yields_readMap_of_ofLines {line : LogicalLine} {more : List LogicalLine}
    {entries : List (String × Node)} (h : ofLines (line :: more) = .ok (.map entries)) :
    Yields (readMap line.indent (line :: more)) (entries, []) := by
  have hread := (ofLines_eq_ok_iff (List.cons_ne_nil line more)).mp h
  cases hitem : isItem line.text with
  | true =>
    obtain ⟨a, -, heq⟩ := (yields_readBlock_list_iff hitem).mp hread
    cases (Prod.mk.inj heq).1
  | false =>
    obtain ⟨⟨read, left⟩, hmap, heq⟩ := (yields_readBlock_map_iff hitem).mp hread
    obtain ⟨hentries, rfl⟩ := Prod.mk.inj heq
    obtain rfl := Node.map.inj hentries
    exact hmap

theorem yields_readMap_of_topLevel {source : List Char} {entries : List (String × Node)}
    (htop : TopLevel source) (h : read source = .ok (.map entries)) :
    Yields (readMap 0 (logicalLines source)) (entries, []) := by
  unfold TopLevel at htop
  unfold read at h
  cases hlines : logicalLines source with
  | nil =>
    rw [hlines] at h
    obtain ⟨rfl⟩ := Node.map.inj (Except.ok.inj h)
    exact (yields_readMap_end_iff (ne_of_dedents dedents_nil)).mpr ⟨dedents_nil, rfl⟩
  | cons line more =>
    rw [hlines] at h htop
    have hindent : line.indent = 0 := htop line rfl
    exact hindent ▸ yields_readMap_of_ofLines h

/-- A block that has not ended goes on with a line in its column. -/
theorem exists_line_of_not_end {indent : Nat} {ls : List LogicalLine}
    (h : ¬ ∀ line ∈ ls.head?, line.indent ≠ indent) :
    ∃ line more, ls = line :: more ∧ line.indent = indent := by
  cases ls with
  | nil => exact absurd (fun line hline => absurd hline nofun) h
  | cons line more =>
    refine ⟨line, more, rfl, Decidable.byContradiction fun hne => ?_⟩
    exact h fun first hfirst => Option.some.inj hfirst ▸ hne

theorem EntryValue.length_le {column number : Nat} {value : List Char} {ls rest : List LogicalLine}
    {n : Node} (h : EntryValue column number value ls n rest) : rest.length ≤ ls.length := by
  rcases h with ⟨-, hnested⟩ | ⟨-, -, rfl⟩
  · exact hnested.choose
  · exact Nat.le_refl _

/-- A mapping has no more entries than lines. -/
theorem length_entries_le {indent : Nat} {ls rest : List LogicalLine}
    {entries : List (String × Node)} (h : Yields (readMap indent ls) (entries, rest)) :
    entries.length ≤ ls.length := by
  induction hlength : ls.length using Nat.strong_induction_on generalizing ls entries with
  | h length ih =>
    subst hlength
    by_cases hend : ∀ line ∈ ls.head?, line.indent ≠ indent
    · obtain ⟨-, heq⟩ := (yields_readMap_end_iff hend).mp h
      obtain ⟨rfl, -⟩ := Prod.mk.inj heq
      exact Nat.zero_le _
    · obtain ⟨line, more, rfl, hindent⟩ := exists_line_of_not_end hend
      obtain ⟨-, key, value, -, node, left, hvalue, ⟨below, last⟩, hmore, heq⟩ :=
        (yields_readMap_entry_iff hindent).mp h
      obtain ⟨rfl, rfl⟩ := Prod.mk.inj heq
      have hleft : left.length ≤ more.length := hvalue.length_le
      have hbelow := ih left.length (Nat.lt_succ_of_le hleft) hmore rfl
      exact Nat.succ_le_succ (Nat.le_trans hbelow hleft)

theorem length_entries_le_of_read {source : List Char} {entries : List (String × Node)}
    (h : read source = .ok (.map entries)) : entries.length ≤ (logicalLines source).length := by
  unfold read at h
  cases hlines : logicalLines source with
  | nil =>
    rw [hlines] at h
    obtain ⟨rfl⟩ := Node.map.inj (Except.ok.inj h)
    exact Nat.le_refl 0
  | cons line more =>
    rw [hlines] at h
    exact length_entries_le (yields_readMap_of_ofLines h)

/-! ## Values that close what they open -/

section Value

variable {v : List Char} {n : Node} {number : Nat}

/-- A value in brackets or braces without the blanks after it is whole, and still the value. -/
theorem exists_whole (oneLine : '\n' ∉ v) (flow : startsFlow v = true)
    (value : parseInline v number = .ok n) (closed : balance none v ≤ 0) :
    ∃ used b, v = used ++ b ∧ Blanks b ∧ WholeLine used ∧ parseText used = .ok n := by
  obtain ⟨b, hb, hv⟩ := Text.exists_blanks_trimEnd v
  have hused := parseText_trimEnd flow (parseInline_eq_ok_iff.mp value)
  refine ⟨Text.trimEnd v, b, hv, hb, ?_, hused⟩
  cases v with
  | nil => cases flow
  | cons c more =>
    have hsign : c = '{' ∨ c = '[' := by simpa [startsFlow] using flow
    have hc : Text.isBlank c = false := by rcases hsign with rfl | rfl <;> rfl
    have hkept : ∀ cs, LogicalLine.isSkipped (c :: cs) = false := by
      intro cs
      rcases hsign with rfl | rfl <;> rfl
    obtain ⟨more', htrim⟩ := Text.exists_trimEnd_cons hc more
    exact {
      starts := ⟨c, more', htrim, hc⟩
      ends := Text.StartsSolid.endsSolid_trimEnd ⟨c, more, rfl, hc⟩
      oneLine := fun hmem => oneLine (hv ▸ List.mem_append_left b hmem)
      kept := htrim ▸ hkept more'
      closed := by rwa [hv, LogicalLine.balance_append_of_blanks none _ hb] at closed }

theorem keepsStatements_of_closed (oneLine : '\n' ∉ v) (flow : startsFlow v = true)
    (value : parseInline v number = .ok n) (closed : balance none v ≤ 0) : KeepsStatements v n := by
  intro key source entries hkey htop hsource
  obtain ⟨used, b, rfl, hb, hwhole, hparse⟩ := exists_whole oneLine flow value closed
  have hword := hkey.keyWord
  have hbline : '\n' ∉ b := fun hmem => oneLine (List.mem_append_right used hmem)
  have hlines : logicalLines (statement key (used ++ b) source) =
      ⟨1, 0, key ++ ':' :: ' ' :: used⟩ :: (logicalLines source).map (shift 1) := by
    have hline := (hword.wholeLine_value hwhole).linesFrom hb hbline 0 1 source
    rw [LogicalLine.linesFrom_add, LogicalLine.linesFrom_one, LogicalLine.linesFrom_one] at hline
    rw [← hline, statement]
    simp
  have hitem : isItem (key ++ ':' :: ' ' :: used) = false := by
    obtain ⟨c, more, rfl, hc⟩ := hword.exists_cons
    refine isItem_cons ?_ _
    rintro rfl
    exact absurd hc (by decide)
  have hmore := (Move.carries_readMap ⟨(· + 1), 0⟩ 0 (logicalLines source)).yields
    (yields_readMap_of_topLevel htop hsource)
  have hused : used ≠ [] := by
    obtain ⟨c, more, rfl, -⟩ := hwhole.starts
    exact List.cons_ne_nil c more
  rw [read, hlines]
  exact ofLines_entry hitem (splitKey?_value hword hwhole) hused (parseInline_eq_ok_iff.mpr hparse)
    hmore

/-- A line that leaves a bracket open takes the next line along. -/
theorem exists_line_of_open (oneLine : '\n' ∉ v) (isOpen : 0 < balance none v) :
    ∃ line, logicalLines (statement ['K'] v ['b', ':']) = [line] := by
  have hsolid : Text.isBlank 'K' = false := rfl
  obtain ⟨more, htrim⟩ := Text.exists_trimEnd_cons hsolid (':' :: ' ' :: v)
  have hraw : Text.trim ('K' :: ':' :: ' ' :: v) = Text.trimEnd ('K' :: ':' :: ' ' :: v) := by
    rw [Text.trim, Text.trimStart_eq_self hsolid]
  have hbalance : balance none (Text.trim ('K' :: ':' :: ' ' :: v)) = balance none v := by
    obtain ⟨b, hb, heq⟩ := Text.exists_blanks_trimEnd ('K' :: ':' :: ' ' :: v)
    rw [hraw, ← LogicalLine.balance_append_of_blanks none _ hb, ← heq,
      balance_cons_of_inert (by decide), balance_cons_of_inert (by decide),
      balance_cons_of_inert (by decide)]
  have hkept : LogicalLine.isSkipped (Text.trim ('K' :: ':' :: ' ' :: v)) = false := by
    rw [hraw, htrim]
    rfl
  have hline : '\n' ∉ 'K' :: ':' :: ' ' :: v := by simp [oneLine]
  rw [← LogicalLine.linesFrom_one]
  exact ⟨_, LogicalLine.linesFrom_open hline hkept (hbalance ▸ isOpen) (by decide) rfl⟩

theorem closed_of_keepsStatements (oneLine : '\n' ∉ v) (h : KeepsStatements v n) :
    balance none v ≤ 0 := by
  refine Int.not_lt.mp fun isOpen => ?_
  obtain ⟨line, hline⟩ := exists_line_of_open oneLine isOpen
  have hkey : LetterKey ['K'] := ⟨List.cons_ne_nil _ _, List.all_eq_true.mp (by decide)⟩
  have hsource : read ['b', ':'] = .ok (.map [("b", .null)]) := by cbv
  have htop : TopLevel ['b', ':'] := by decide
  have hlength := length_entries_le_of_read (h hkey htop hsource)
  rw [hline] at hlength
  exact absurd hlength (by simp)

/-- **A value that is complete on its line leaves the statements below it alone exactly when no
bracket counts as open at its end.** -/
theorem keepsStatements_iff (oneLine : '\n' ∉ v) (flow : startsFlow v = true)
    (value : parseInline v number = .ok n) : KeepsStatements v n ↔ balance none v ≤ 0 :=
  ⟨closed_of_keepsStatements oneLine, keepsStatements_of_closed oneLine flow value⟩

theorem keepsStatements_quoted :
    '\n' ∉ "\x7b a: \"it's\" \x7d ".toList ∧
      parseInline "\x7b a: \"it's\" \x7d ".toList 1 = .ok (.map [("a", .text "it's")]) ∧
      KeepsStatements "\x7b a: \"it's\" \x7d ".toList (.map [("a", .text "it's")]) := by
  have hline : '\n' ∉ "\x7b a: \"it's\" \x7d ".toList := by decide
  have hvalue : parseInline "\x7b a: \"it's\" \x7d ".toList 1 =
      .ok (.map [("a", .text "it's")]) := by cbv
  exact ⟨hline, hvalue, (keepsStatements_iff hline rfl hvalue).mpr (by decide)⟩

/-- An apostrophe in a bare word counts as a quote that hides the closing brace: the value is read,
and so is the statement that comes next, but not the two together. -/
theorem apostrophe_takes_next_statement :
    parseInline "\x7b a: it's \x7d".toList 1 = .ok (.map [("a", .text "it's")]) ∧
      read "b: true\n".toList = .ok (.map [("b", .bool true)]) ∧
      read (statement "K".toList "\x7b a: it's \x7d".toList "b: true\n".toList) =
        .error ⟨1, .trailingText "\x7b a: it's \x7d b: true"⟩ ∧
      ¬ KeepsStatements "\x7b a: it's \x7d".toList (.map [("a", .text "it's")]) := by
  have hsource : read "b: true\n".toList = .ok (.map [("b", .bool true)]) := by cbv
  have hread : read (statement "K".toList "\x7b a: it's \x7d".toList "b: true\n".toList) =
      .error ⟨1, .trailingText "\x7b a: it's \x7d b: true"⟩ := by cbv
  refine ⟨by cbv, hsource, hread, fun hkeeps => ?_⟩
  have hkey : LetterKey "K".toList := ⟨by decide, List.all_eq_true.mp (by decide)⟩
  have htop : TopLevel "b: true\n".toList := by decide
  cases (hread.symm.trans (hkeeps hkey htop hsource))

end Value

/-- A value in flow form leaves the statements below it alone. -/
theorem FlowText.keepsStatements {n : Node} {v : List Char} (h : FlowText n v) (oneLine : '\n' ∉ v)
    (flow : startsFlow v = true) : KeepsStatements v n :=
  keepsStatements_of_closed oneLine flow (h.parseInline_eq 1) (h.wholeLine oneLine).closed

end PixelScene.Node
