import PixelScene.Proofs.Node.FlowReading
import PixelScene.Proofs.Node.Line

/-!
# Layouts of a script

`BlockLayout column n lines` says that `lines` print the node `n`, a mapping or a list, as a block
in a column. A value in it stands on the line of its key or dash in flow form, or on the lines below
as a block in any deeper column; a null value of an entry may be left out, and a mapping in a list
may start on the line of its dash, with its other keys in the column of the first.

* `Writable.exists_blockLayout`: every mapping or list that is not empty can be printed.
* `BlockLayout.wholeLines`: every printed line is a line of its own, which none before it takes
  along.
* `linesFrom_spelled`: reading finds the printed lines again.

The choices are those that scripts leave open: any deeper column for a nested block, a value on the
line or below, nothing for null, and the compact form of a mapping in a list. Blank lines and
comments are a matter of their own (`PixelScene.Proofs.Node.LayoutNoise`). Keys are plain words
here; keys in quotes read otherwise on a line than in braces (`PixelScene.Proofs.Node.QuotedKey`).
-/

namespace PixelScene

open LogicalLine (balance linesFrom)
open Text (Blanks StartsSolid EndsSolid)

/-! ## Printed lines -/

/-- A line as it is printed: the column where its text starts, and the text. -/
structure PrintedLine where
  column : Nat
  text : List Char
deriving DecidableEq, Repr

/-- A logical line without its number. -/
def LogicalLine.printed (line : LogicalLine) : PrintedLine := ⟨line.indent, line.text⟩

/-- The source of some printed lines. -/
def spelled (lines : List PrintedLine) : List Char :=
  lines.flatMap fun l => List.replicate l.column ' ' ++ l.text ++ ['\n']

/-- **Reading finds the printed lines again.** -/
theorem linesFrom_spelled {lines : List PrintedLine} (h : ∀ l ∈ lines, WholeLine l.text)
    (number : Nat) : (linesFrom number (spelled lines)).map LogicalLine.printed = lines := by
  induction lines generalizing number with
  | nil => rfl
  | cons l lines ih =>
    obtain ⟨hl, hlines⟩ := List.forall_mem_cons.mp h
    have hsource : spelled (l :: lines) =
        List.replicate l.column ' ' ++ l.text ++ [] ++ '\n' :: spelled lines := by
      rw [spelled, List.flatMap_cons, List.append_assoc, ← spelled, List.append_nil]
      rfl
    rw [hsource, hl.linesFrom Text.blanks_nil List.not_mem_nil, List.map_cons, ih hlines]
    rfl

namespace Node

/-! ## Layouts -/

mutual

/-- The ways to print a mapping or a list in a column. -/
inductive BlockLayout : Nat → Node → List PrintedLine → Prop where
  | map {column : Nat} {entries : List (String × Node)} {lines : List PrintedLine}
      (some : entries ≠ []) (inner : EntriesLayout column entries lines) :
      BlockLayout column (.map entries) lines
  | list {column : Nat} {items : List Node} {lines : List PrintedLine}
      (some : items ≠ []) (inner : ItemsLayout column items lines) :
      BlockLayout column (.list items) lines

/-- The entries of a mapping, one after the other. -/
inductive EntriesLayout : Nat → List (String × Node) → List PrintedLine → Prop where
  | nil {column : Nat} : EntriesLayout column [] []
  | cons {column : Nat} {e : String × Node} {entries : List (String × Node)} {text : List Char}
      {below lines : List PrintedLine} (entry : EntryLayout column e text below)
      (more : EntriesLayout column entries lines) :
      EntriesLayout column (e :: entries) (⟨column, text⟩ :: (below ++ lines))

/-- The ways to print an entry with its key in a column: the text of its own line, and the lines
below. -/
inductive EntryLayout : Nat → String × Node → List Char → List PrintedLine → Prop where
  | inline {column : Nat} {key : String} {n : Node} {v : List Char} (word : KeyWord key.toList)
      (value : FlowText n v) (oneLine : '\n' ∉ v) :
      EntryLayout column (key, n) (key.toList ++ ':' :: ' ' :: v) []
  | missing {column : Nat} {key : String} (word : KeyWord key.toList) :
      EntryLayout column (key, .null) (key.toList ++ [':']) []
  | block {column deeper : Nat} {key : String} {n : Node} {lines : List PrintedLine}
      (word : KeyWord key.toList) (indented : column < deeper)
      (value : BlockLayout deeper n lines) :
      EntryLayout column (key, n) (key.toList ++ [':']) lines

/-- The items of a list, one after the other. -/
inductive ItemsLayout : Nat → List Node → List PrintedLine → Prop where
  | nil {column : Nat} : ItemsLayout column [] []
  | cons {column : Nat} {n : Node} {items : List Node} {text : List Char}
      {below lines : List PrintedLine} (item : ItemLayout column n text below)
      (more : ItemsLayout column items lines) :
      ItemsLayout column (n :: items) (⟨column, text⟩ :: (below ++ lines))

/-- The ways to print an item with its dash in a column: the text of its own line, and the lines
below. -/
inductive ItemLayout : Nat → Node → List Char → List PrintedLine → Prop where
  | inline {column : Nat} {n : Node} {v : List Char} (value : FlowText n v) (oneLine : '\n' ∉ v) :
      ItemLayout column n ('-' :: ' ' :: v) []
  | block {column deeper : Nat} {n : Node} {lines : List PrintedLine} (indented : column < deeper)
      (value : BlockLayout deeper n lines) : ItemLayout column n ['-'] lines
  | compact {column : Nat} {e : String × Node} {entries : List (String × Node)} {text : List Char}
      {below lines : List PrintedLine} (entry : EntryLayout (column + 2) e text below)
      (more : EntriesLayout (column + 2) entries lines) :
      ItemLayout column (.map (e :: entries)) ('-' :: ' ' :: text) (below ++ lines)

end

/-! ## Every node can be printed -/

/-- The node is a mapping or a list, and not an empty one. -/
inductive Filled : Node → Prop where
  | map {entries : List (String × Node)} (some : entries ≠ []) : Filled (.map entries)
  | list {items : List Node} (some : items ≠ []) : Filled (.list items)

/-- **Every mapping or list that is not empty can be printed**, in any column. -/
theorem Writable.exists_blockLayout {n : Node}
    (h : Writable (fun key => KeyWord key.toList) n) (hsome : Filled n) (column : Nat) :
    ∃ lines, BlockLayout column n lines := by
  have hkey : ∀ key : String, KeyWord key.toList → key ≠ "" := by
    rintro key word rfl
    exact word.ne_nil rfl
  cases hsome with
  | @map entries some =>
    cases h with
    | map keys inner =>
      have hentries : ∃ lines, EntriesLayout column entries lines := by
        clear some
        induction entries with
        | nil => exact ⟨[], .nil⟩
        | cons e entries ih =>
          obtain ⟨hword, hwords⟩ := List.forall_mem_cons.mp keys
          obtain ⟨hvalue, hvalues⟩ := List.forall_mem_cons.mp inner
          obtain ⟨lines, hlines⟩ := ih hwords hvalues
          obtain ⟨v, hv, hline⟩ := hvalue.exists_flowText hkey
          exact ⟨_, .cons (.inline hword hv hline) hlines⟩
      obtain ⟨lines, hlines⟩ := hentries
      exact ⟨lines, .map some hlines⟩
  | @list items some =>
    cases h with
    | list inner =>
      have hitems : ∃ lines, ItemsLayout column items lines := by
        clear some
        induction items with
        | nil => exact ⟨[], .nil⟩
        | cons n items ih =>
          obtain ⟨hvalue, hvalues⟩ := List.forall_mem_cons.mp inner
          obtain ⟨lines, hlines⟩ := ih hvalues
          obtain ⟨v, hv, hline⟩ := hvalue.exists_flowText hkey
          exact ⟨_, .cons (.inline hv hline) hlines⟩
      obtain ⟨lines, hlines⟩ := hitems
      exact ⟨lines, .list some hlines⟩

/-! ## Printed lines are whole -/

theorem Plain.isSkipped_append {w : List Char} (h : Plain w) (after : List Char) :
    LogicalLine.isSkipped (w ++ after) = false := by
  obtain ⟨c, more, rfl, hc⟩ := h.exists_cons
  exact isSkipped_cons (ne_of_isPlain hc rfl) (ne_of_isPlain hc rfl) (more ++ after)

theorem FlowText.isSkipped_eq {n : Node} {v : List Char} (h : FlowText n v) :
    LogicalLine.isSkipped v = false := by
  cases h with
  | bare word =>
    have hword := word.plain.isSkipped_append []
    rwa [List.append_nil] at hword
  | quoted s => rfl
  | list inner => rfl
  | map inner => rfl

theorem FlowText.wholeLine {n : Node} {v : List Char} (h : FlowText n v) (oneLine : '\n' ∉ v) :
    WholeLine v where
  starts := by
    obtain ⟨c, more, hv, hc⟩ := h.readsAs.1
    exact ⟨c, more, hv, hc.1⟩
  ends := h.endsSolid
  oneLine := oneLine
  kept := h.isSkipped_eq
  closed := by
    have hbalance := h.balanced []
    rw [List.append_nil] at hbalance
    exact Int.le_of_eq hbalance

/-- A key with a colon, and what follows it on its line. -/
theorem KeyWord.wholeLine {w after : List Char} (word : KeyWord w) (ends : EndsSolid (':' :: after))
    (oneLine : '\n' ∉ after) (closed : balance none after ≤ 0) :
    WholeLine (w ++ ':' :: after) where
  starts := word.plain.startsSolid.append _
  ends := ends.append w
  oneLine := by
    have hkey : '\n' ∉ w := word.plain.not_mem rfl
    simp [hkey, oneLine]
  kept := word.plain.isSkipped_append _
  closed := by
    rwa [Balanced.of_plain word.plain, balance_cons_of_inert (by decide)]

theorem KeyWord.wholeLine_alone {w : List Char} (word : KeyWord w) : WholeLine (w ++ [':']) :=
  word.wholeLine ⟨[], ':', rfl, rfl⟩ (List.not_mem_nil) (Int.le_refl 0)

theorem KeyWord.wholeLine_value {w v : List Char} (word : KeyWord w) (h : WholeLine v) :
    WholeLine (w ++ ':' :: ' ' :: v) := by
  have hends : EndsSolid (':' :: ' ' :: v) := (h.ends.cons ' ').cons ':'
  have hclosed : balance none (' ' :: v) ≤ 0 := by
    rw [balance_cons_of_inert (by decide)]
    exact h.closed
  exact word.wholeLine hends (by simp [h.oneLine]) hclosed

theorem wholeLine_dash : WholeLine ['-'] where
  starts := ⟨'-', [], rfl, rfl⟩
  ends := ⟨[], '-', rfl, rfl⟩
  oneLine := by decide
  kept := rfl
  closed := Int.le_refl 0

mutual

theorem BlockLayout.wholeLines : ∀ {column : Nat} {n : Node} {lines : List PrintedLine},
    BlockLayout column n lines → ∀ l ∈ lines, WholeLine l.text
  | _, _, _, .map _ inner => inner.wholeLines
  | _, _, _, .list _ inner => inner.wholeLines

theorem EntriesLayout.wholeLines : ∀ {column : Nat} {entries : List (String × Node)}
    {lines : List PrintedLine}, EntriesLayout column entries lines → ∀ l ∈ lines, WholeLine l.text
  | _, _, _, .nil => List.forall_mem_nil _
  | _, _, _, .cons entry more => by
    obtain ⟨htext, hbelow⟩ := entry.wholeLines
    exact List.forall_mem_cons.mpr ⟨htext, List.forall_mem_append.mpr ⟨hbelow, more.wholeLines⟩⟩

theorem EntryLayout.wholeLines : ∀ {column : Nat} {e : String × Node} {text : List Char}
    {below : List PrintedLine}, EntryLayout column e text below →
      WholeLine text ∧ ∀ l ∈ below, WholeLine l.text
  | _, _, _, _, .inline word value oneLine =>
    ⟨word.wholeLine_value (value.wholeLine oneLine), List.forall_mem_nil _⟩
  | _, _, _, _, .missing word => ⟨word.wholeLine_alone, List.forall_mem_nil _⟩
  | _, _, _, _, .block word _ value => ⟨word.wholeLine_alone, value.wholeLines⟩

theorem ItemsLayout.wholeLines : ∀ {column : Nat} {items : List Node}
    {lines : List PrintedLine}, ItemsLayout column items lines → ∀ l ∈ lines, WholeLine l.text
  | _, _, _, .nil => List.forall_mem_nil _
  | _, _, _, .cons item more => by
    obtain ⟨htext, hbelow⟩ := item.wholeLines
    exact List.forall_mem_cons.mpr ⟨htext, List.forall_mem_append.mpr ⟨hbelow, more.wholeLines⟩⟩

theorem ItemLayout.wholeLines : ∀ {column : Nat} {n : Node} {text : List Char}
    {below : List PrintedLine}, ItemLayout column n text below →
      WholeLine text ∧ ∀ l ∈ below, WholeLine l.text
  | _, _, _, _, .inline value oneLine => ⟨(value.wholeLine oneLine).item, List.forall_mem_nil _⟩
  | _, _, _, _, .block _ value => ⟨wholeLine_dash, value.wholeLines⟩
  | _, _, _, _, .compact entry more => by
    obtain ⟨htext, hbelow⟩ := entry.wholeLines
    exact ⟨htext.item, List.forall_mem_append.mpr ⟨hbelow, more.wholeLines⟩⟩

end

end Node

end PixelScene
