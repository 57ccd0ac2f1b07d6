import PixelScene.Proofs.Node.Block
import PixelScene.Proofs.Node.Layout

/-!
# Reading a layout

* `BlockLayout.reads`: the readers take a printed block off the front of the lines, up to a line
  that ends it.
* `read_spelled`: every layout of a mapping or a list is read as that node.

Reading is followed along the layout: each of its constructors stands for one form of an entry or an
item, and the reader comes to the same form by looking at the line. A block ends at a line of lesser
indentation, of which nothing else is asked.
-/

namespace PixelScene.Node

open LogicalLine (printed linesFrom)
open Text (StartsSolid)

variable {column : Nat} {ls rest : List LogicalLine}

/-! ## Where a block ends -/

theorem not_deeper_of_dedents (h : Dedents column rest) : ¬ Deeper column rest := by
  rintro ⟨line, hline, hlt⟩
  exact Nat.lt_asymm hlt (h line hline)

theorem dedents_of_not_deeper {deeper : Nat} (hlt : column < deeper) (h : ¬ Deeper column rest) :
    Dedents deeper rest := by
  intro line hline
  refine Nat.lt_of_le_of_lt (Nat.le_of_not_lt fun hgt => ?_) hlt
  exact h ⟨line, hline, hgt⟩

/-- The lines of a block start in its column. -/
def StartsIn (column : Nat) (lines : List PrintedLine) : Prop :=
  ∀ l ∈ lines.head?, l.column = column

theorem EntriesLayout.startsIn {entries : List (String × Node)} {lines : List PrintedLine}
    (h : EntriesLayout column entries lines) : StartsIn column lines := by
  cases h with
  | nil => exact fun l hl => absurd hl nofun
  | cons entry more => exact fun l hl => Option.some.inj hl ▸ rfl

theorem ItemsLayout.startsIn {items : List Node} {lines : List PrintedLine}
    (h : ItemsLayout column items lines) : StartsIn column lines := by
  cases h with
  | nil => exact fun l hl => absurd hl nofun
  | cons item more => exact fun l hl => Option.some.inj hl ▸ rfl

/-- No line of a block, nor the line after it, belongs to what stands in its column. -/
theorem StartsIn.not_deeper {lines : List PrintedLine} (h : StartsIn column lines)
    (hls : ls.map printed = lines) (hrest : ¬ Deeper column rest) :
    ¬ Deeper column (ls ++ rest) := by
  cases ls with
  | nil => exact hrest
  | cons line more =>
    rintro ⟨first, hfirst, hlt⟩
    obtain rfl := Option.some.inj hfirst
    have hcolumn : line.indent = column := h (printed line) (hls ▸ rfl)
    exact absurd hlt (hcolumn ▸ Nat.lt_irrefl column)

/-- A block has a first line, in its column. -/
theorem BlockLayout.exists_line {n : Node} {lines : List PrintedLine}
    (h : BlockLayout column n lines) (hls : ls.map printed = lines) :
    ∃ line more, ls = line :: more ∧ line.indent = column := by
  have hfirst : ∃ text more, lines = ⟨column, text⟩ :: more := by
    cases h with
    | map some inner =>
      cases inner with
      | nil => exact absurd rfl some
      | cons entry more => exact ⟨_, _, rfl⟩
    | list some inner =>
      cases inner with
      | nil => exact absurd rfl some
      | cons item more => exact ⟨_, _, rfl⟩
  obtain ⟨text, more, rfl⟩ := hfirst
  obtain ⟨line, lines, rfl, hline, -⟩ := List.map_eq_cons_iff.mp hls
  exact ⟨line, lines, rfl, congrArg PrintedLine.column hline⟩

/-! ## The text of an entry or an item -/

theorem KeyWord.exists_cons {w : List Char} (h : KeyWord w) :
    ∃ c more, w = c :: more ∧ isKeyChar c = true := by
  obtain ⟨c, more, rfl⟩ := List.exists_cons_of_ne_nil h.ne_nil
  exact ⟨c, more, rfl, h.keyChars c List.mem_cons_self⟩

theorem isItem_cons {c : Char} (hc : c ≠ '-') (cs : List Char) : isItem (c :: cs) = false := by
  simp [isItem, List.isPrefixOf, hc, Ne.symm hc]

theorem isItem_dash (cs : List Char) : isItem ('-' :: ' ' :: cs) = true := by
  simp [isItem, List.isPrefixOf]

/-- The text of an entry starts with its key. -/
theorem EntryLayout.exists_key {e : String × Node} {text : List Char} {below : List PrintedLine}
    (h : EntryLayout column e text below) :
    ∃ after, text = e.1.toList ++ ':' :: after ∧ KeyWord e.1.toList := by
  cases h with
  | inline word _ _ => exact ⟨_, rfl, word⟩
  | missing word => exact ⟨_, rfl, word⟩
  | block word _ _ => exact ⟨_, rfl, word⟩

theorem EntryLayout.exists_cons {e : String × Node} {text : List Char} {below : List PrintedLine}
    (h : EntryLayout column e text below) : ∃ c more, text = c :: more ∧ isKeyChar c = true := by
  obtain ⟨after, rfl, word⟩ := h.exists_key
  obtain ⟨c, more, heq, hc⟩ := word.exists_cons
  exact ⟨c, more ++ ':' :: after, by rw [heq, List.cons_append], hc⟩

theorem EntryLayout.isItem_eq {e : String × Node} {text : List Char} {below : List PrintedLine}
    (h : EntryLayout column e text below) : isItem text = false := by
  obtain ⟨c, more, rfl, hc⟩ := h.exists_cons
  refine isItem_cons ?_ more
  rintro rfl
  exact absurd hc (by decide)

theorem ItemLayout.isItem_eq {n : Node} {text : List Char} {below : List PrintedLine}
    (h : ItemLayout column n text below) : isItem text = true := by
  cases h with
  | inline _ _ => exact isItem_dash _
  | block _ _ => rfl
  | compact _ _ => exact isItem_dash _

theorem itemText_dash {cs : List Char} (h : StartsSolid cs) :
    itemText ('-' :: ' ' :: cs) = (cs, 2) := by
  obtain ⟨c, more, rfl, hc⟩ := h
  have htrim : Text.trimStart (' ' :: c :: more) = c :: more := by
    rw [← List.singleton_append, Text.trimStart_append Text.blanks_space, Text.trimStart_eq_self hc]
  have hgap : (' ' :: c :: more).takeWhile Text.isBlank = [' '] := by
    rw [List.takeWhile_cons_of_pos rfl, List.takeWhile_cons_of_neg (by simp [hc])]
  rw [itemText, List.drop_succ_cons, List.drop_zero, htrim, hgap]
  rfl

theorem itemForm_flowText {n : Node} {v : List Char} (h : FlowText n v) :
    itemForm v = .value := by
  cases h with
  | bare word =>
    obtain ⟨c, more, rfl, hc⟩ := word.plain.exists_cons
    have hflow : startsFlow (c :: more) = false := by
      simp [startsFlow, ne_of_isPlain hc (show isPlain '{' = false from rfl),
        ne_of_isPlain hc (show isPlain '[' = false from rfl)]
    rw [itemForm, hflow, word.plain.splitKey?_eq_none]
    rfl
  | quoted s =>
    rw [itemForm, splitKey?_quote]
    rfl
  | list inner => rfl
  | map inner => rfl

theorem itemForm_entry {c : Char} {cs key value : List Char} (hc : isKeyChar c = true)
    (h : splitKey? (c :: cs) = some (key, value)) : itemForm (c :: cs) = .entry key value := by
  have hplain := isPlain_of_isKeyChar hc
  have hflow : startsFlow (c :: cs) = false := by
    simp [startsFlow, ne_of_isPlain hplain (show isPlain '{' = false from rfl),
      ne_of_isPlain hplain (show isPlain '[' = false from rfl)]
  rw [itemForm, hflow, h]
  rfl

theorem FlowText.parseInline_eq {n : Node} {v : List Char} (h : FlowText n v) (number : Nat) :
    parseInline v number = .ok n := by
  have hparse := h.parseText_eq Text.blanks_nil Text.blanks_nil
  rw [List.append_nil, List.nil_append] at hparse
  exact parseInline_eq_ok_iff.mpr hparse

theorem splitKey?_value {w v : List Char} (word : KeyWord w) (hv : WholeLine v) :
    splitKey? (w ++ ':' :: ' ' :: v) = some (w, v) := by
  rw [word.plain.splitKey?_append rfl, hv.trim_space]

/-! ## What is read -/

/-- The readers take a block off the front of the lines, up to a line that ends it. -/
def ReadsBlock (column : Nat) (n : Node) (lines : List PrintedLine) : Prop :=
  ∀ ls rest, ls.map printed = lines → Dedents column rest →
    Yields (readBlock (ls ++ rest)) (n, rest)

/-- The same for the entries of a block. -/
def ReadsEntries (column : Nat) (entries : List (String × Node)) (lines : List PrintedLine) :
    Prop :=
  ∀ ls rest, ls.map printed = lines → Dedents column rest →
    Yields (readMap column (ls ++ rest)) (entries, rest)

/-- The same for the items of a block. -/
def ReadsItems (column : Nat) (items : List Node) (lines : List PrintedLine) : Prop :=
  ∀ ls rest, ls.map printed = lines → Dedents column rest →
    Yields (readList column (ls ++ rest)) (items, rest)

/-- An entry is cut into its key and its value, and the lines below go with it. -/
def ReadsEntry (column : Nat) (e : String × Node) (text : List Char) (below : List PrintedLine) :
    Prop :=
  ∀ number ls rest, ls.map printed = below → ¬ Deeper column rest →
    ∃ value, splitKey? text = some (e.1.toList, value) ∧
      EntryValue column number value (ls ++ rest) e.2 rest

/-- An item is read off its line, and the lines below go with it. -/
def ReadsItem (column : Nat) (n : Node) (text : List Char) (below : List PrintedLine) : Prop :=
  ∀ number ls rest, ls.map printed = below → ¬ Deeper column rest →
    Yields (readItem column number text (ls ++ rest)) (n, rest)

/-- A block below a key or a dash is read when it is deeper. -/
theorem ReadsBlock.yields_readNested {deeper : Nat} {n : Node} {lines : List PrintedLine}
    (h : ReadsBlock deeper n lines) (layout : BlockLayout deeper n lines)
    (indented : column < deeper) (hls : ls.map printed = lines) (hrest : ¬ Deeper column rest) :
    Yields (readNested column (ls ++ rest)) (n, rest) := by
  have hread := h ls rest hls (dedents_of_not_deeper indented hrest)
  obtain ⟨line, more, rfl, hcolumn⟩ := layout.exists_line hls
  have hdeeper : Deeper column (line :: more ++ rest) := ⟨line, rfl, hcolumn ▸ indented⟩
  exact (yields_readNested_deeper_iff hdeeper).mpr hread

/-! ### Blocks -/

section Cases

variable {entries : List (String × Node)} {items : List Node} {text : List Char}
  {below lines : List PrintedLine}

theorem readsBlock_map (hsome : entries ≠ []) (layout : EntriesLayout column entries lines)
    (inner : ReadsEntries column entries lines) : ReadsBlock column (.map entries) lines := by
  intro ls rest hls hrest
  obtain ⟨line, more, rfl, hcolumn⟩ := (BlockLayout.map hsome layout).exists_line hls
  have hitem : isItem line.text = false := by
    cases layout with
    | nil => exact absurd rfl hsome
    | cons entry _ =>
      have htext : line.text = _ := congrArg PrintedLine.text (List.cons.inj hls).1
      exact htext ▸ entry.isItem_eq
  have hread := inner _ rest hls hrest
  exact (yields_readBlock_map_iff hitem).mpr ⟨_, hcolumn ▸ hread, rfl⟩

theorem readsBlock_list (hsome : items ≠ []) (layout : ItemsLayout column items lines)
    (inner : ReadsItems column items lines) : ReadsBlock column (.list items) lines := by
  intro ls rest hls hrest
  obtain ⟨line, more, rfl, hcolumn⟩ := (BlockLayout.list hsome layout).exists_line hls
  have hitem : isItem line.text = true := by
    cases layout with
    | nil => exact absurd rfl hsome
    | cons item _ =>
      have htext : line.text = _ := congrArg PrintedLine.text (List.cons.inj hls).1
      exact htext ▸ item.isItem_eq
  have hread := inner _ rest hls hrest
  exact (yields_readBlock_list_iff hitem).mpr ⟨_, hcolumn ▸ hread, rfl⟩

theorem readsEntries_nil : ReadsEntries column [] [] := by
  intro ls rest hls hrest
  obtain rfl := List.map_eq_nil_iff.mp hls
  exact (yields_readMap_end_iff (ne_of_dedents hrest)).mpr ⟨hrest, rfl⟩

theorem readsEntries_cons {e : String × Node} (layout : EntryLayout column e text below)
    (layouts : EntriesLayout column entries lines) (entry : ReadsEntry column e text below)
    (more : ReadsEntries column entries lines) :
    ReadsEntries column (e :: entries) (⟨column, text⟩ :: (below ++ lines)) := by
  intro ls rest hls hrest
  obtain ⟨⟨number, _, _⟩, tail, rfl, hline, htail⟩ := List.map_eq_cons_iff.mp hls
  obtain ⟨rfl, rfl⟩ := PrintedLine.mk.inj hline
  obtain ⟨lower, left, rfl, hlower, hleft⟩ := List.map_eq_append_iff.mp htail
  have hafter := layouts.startsIn.not_deeper hleft (not_deeper_of_dedents hrest)
  obtain ⟨value, hsplit, hvalue⟩ := entry number lower (left ++ rest) hlower hafter
  rw [List.cons_append, List.append_assoc]
  refine (yields_readMap_entry_iff rfl).mpr ⟨layout.isItem_eq, _, value, hsplit, _, _, hvalue, _,
    more left rest hleft hrest, ?_⟩
  rw [String.ofList_toList]

theorem readsItems_nil : ReadsItems column [] [] := by
  intro ls rest hls hrest
  obtain rfl := List.map_eq_nil_iff.mp hls
  exact (yields_readList_end_iff (ne_of_dedents hrest)).mpr ⟨hrest, rfl⟩

theorem readsItems_cons {n : Node} (layout : ItemLayout column n text below)
    (layouts : ItemsLayout column items lines) (item : ReadsItem column n text below)
    (more : ReadsItems column items lines) :
    ReadsItems column (n :: items) (⟨column, text⟩ :: (below ++ lines)) := by
  intro ls rest hls hrest
  obtain ⟨⟨number, _, _⟩, tail, rfl, hline, htail⟩ := List.map_eq_cons_iff.mp hls
  obtain ⟨rfl, rfl⟩ := PrintedLine.mk.inj hline
  obtain ⟨lower, left, rfl, hlower, hleft⟩ := List.map_eq_append_iff.mp htail
  have hafter := layouts.startsIn.not_deeper hleft (not_deeper_of_dedents hrest)
  have hitem := item number lower (left ++ rest) hlower hafter
  rw [List.cons_append, List.append_assoc]
  exact (yields_readList_item_iff rfl).mpr
    ⟨layout.isItem_eq, n, _, hitem, _, more left rest hleft hrest, rfl⟩

/-! ### Entries -/

variable {key : String} {n : Node}

theorem readsEntry_inline {v : List Char} (word : KeyWord key.toList) (value : FlowText n v)
    (oneLine : '\n' ∉ v) : ReadsEntry column (key, n) (key.toList ++ ':' :: ' ' :: v) [] := by
  intro number ls rest hls _
  obtain rfl := List.map_eq_nil_iff.mp hls
  have hv : v ≠ [] := by
    obtain ⟨c, more, heq, -⟩ := value.readsAs.1
    exact heq ▸ List.cons_ne_nil c more
  exact ⟨v, splitKey?_value word (value.wholeLine oneLine),
    .inr ⟨hv, value.parseInline_eq number, rfl⟩⟩

theorem readsEntry_missing (word : KeyWord key.toList) :
    ReadsEntry column (key, .null) (key.toList ++ [':']) [] := by
  intro number ls rest hls hrest
  obtain rfl := List.map_eq_nil_iff.mp hls
  exact ⟨[], word.plain.splitKey?_append rfl,
    .inl ⟨rfl, (yields_readNested_none_iff hrest).mpr rfl⟩⟩

theorem readsEntry_block {deeper : Nat} (word : KeyWord key.toList) (indented : column < deeper)
    (layout : BlockLayout deeper n lines) (value : ReadsBlock deeper n lines) :
    ReadsEntry column (key, n) (key.toList ++ [':']) lines := by
  intro number ls rest hls hrest
  have hread := value.yields_readNested layout indented hls hrest
  exact ⟨[], word.plain.splitKey?_append rfl, .inl ⟨rfl, hread⟩⟩

/-! ### Items -/

theorem readsItem_inline {v : List Char} (value : FlowText n v) (oneLine : '\n' ∉ v) :
    ReadsItem column n ('-' :: ' ' :: v) [] := by
  intro number ls rest hls _
  obtain rfl := List.map_eq_nil_iff.mp hls
  have htext := itemText_dash (value.wholeLine oneLine).starts
  have hform : itemForm (itemText ('-' :: ' ' :: v)).1 = .value := by
    rw [htext]
    exact itemForm_flowText value
  refine (yields_readItem_value_iff hform).mpr ⟨n, ?_, rfl⟩
  rw [htext]
  exact value.parseInline_eq number

theorem readsItem_block {deeper : Nat} (indented : column < deeper)
    (layout : BlockLayout deeper n lines) (value : ReadsBlock deeper n lines) :
    ReadsItem column n ['-'] lines := by
  intro number ls rest hls hrest
  exact (yields_readItem_nothing_iff rfl).mpr (value.yields_readNested layout indented hls hrest)

/-- The mapping of an item goes on with the entries in the column of its first key. -/
theorem ReadsEntries.yields_readItemMap {e : String × Node} {deeper : Nat}
    (h : ReadsEntries deeper entries lines) (layout : EntriesLayout deeper entries lines)
    (indented : column < deeper) (hls : ls.map printed = lines) (hrest : ¬ Deeper column rest) :
    Yields (readItemMap column e (ls ++ rest)) (.map (e :: entries), rest) := by
  cases layout with
  | nil =>
    obtain rfl := List.map_eq_nil_iff.mp hls
    exact (yields_readItemMap_none_iff hrest).mpr rfl
  | cons entry more =>
    obtain ⟨line, tail, rfl, hline, -⟩ := List.map_eq_cons_iff.mp hls
    have hcolumn : line.indent = deeper := congrArg PrintedLine.column hline
    have hread := h (line :: tail) rest hls (dedents_of_not_deeper indented hrest)
    exact (yields_readItemMap_deeper_iff (hcolumn ▸ indented)).mpr ⟨_, hcolumn ▸ hread, rfl⟩

theorem readsItem_compact {e : String × Node} (layout : EntryLayout (column + 2) e text below)
    (layouts : EntriesLayout (column + 2) entries lines)
    (entry : ReadsEntry (column + 2) e text below)
    (more : ReadsEntries (column + 2) entries lines) :
    ReadsItem column (.map (e :: entries)) ('-' :: ' ' :: text) (below ++ lines) := by
  intro number ls rest hls hrest
  obtain ⟨lower, left, rfl, hlower, hleft⟩ := List.map_eq_append_iff.mp hls
  have hindented : column < column + 2 := Nat.lt_add_of_pos_right Nat.two_pos
  have hdedents : Dedents (column + 2) rest := dedents_of_not_deeper hindented hrest
  have hafter := layouts.startsIn.not_deeper hleft (not_deeper_of_dedents hdedents)
  obtain ⟨value, hsplit, hvalue⟩ := entry number lower (left ++ rest) hlower hafter
  obtain ⟨c, cs, rfl, hc⟩ := layout.exists_cons
  have hblank : Text.isBlank c = false := isBlank_of_isPlain (isPlain_of_isKeyChar hc)
  have htext : itemText ('-' :: ' ' :: c :: cs) = (c :: cs, 2) :=
    itemText_dash ⟨c, cs, rfl, hblank⟩
  have hform : itemForm (itemText ('-' :: ' ' :: c :: cs)).1 = .entry e.1.toList value := by
    rw [htext]
    exact itemForm_entry hc hsplit
  rw [List.append_assoc]
  refine (yields_readItem_entry_iff hform).mpr ⟨e.2, left ++ rest, ?_, ?_⟩
  · rw [htext]
    exact hvalue
  · rw [String.ofList_toList]
    exact more.yields_readItemMap layouts hindented hleft hrest

end Cases

/-! ## Every layout -/

mutual

/-- **The readers take a printed block off the front of the lines.** -/
theorem BlockLayout.reads : ∀ {column : Nat} {n : Node} {lines : List PrintedLine},
    BlockLayout column n lines → ReadsBlock column n lines
  | _, _, _, .map hsome inner => readsBlock_map hsome inner inner.reads
  | _, _, _, .list hsome inner => readsBlock_list hsome inner inner.reads

theorem EntriesLayout.reads : ∀ {column : Nat} {entries : List (String × Node)}
    {lines : List PrintedLine}, EntriesLayout column entries lines →
      ReadsEntries column entries lines
  | _, _, _, .nil => readsEntries_nil
  | _, _, _, .cons entry more => readsEntries_cons entry more entry.reads more.reads

theorem EntryLayout.reads : ∀ {column : Nat} {e : String × Node} {text : List Char}
    {below : List PrintedLine}, EntryLayout column e text below → ReadsEntry column e text below
  | _, _, _, _, .inline word value oneLine => readsEntry_inline word value oneLine
  | _, _, _, _, .missing word => readsEntry_missing word
  | _, _, _, _, .block word indented value => readsEntry_block word indented value value.reads

theorem ItemsLayout.reads : ∀ {column : Nat} {items : List Node} {lines : List PrintedLine},
    ItemsLayout column items lines → ReadsItems column items lines
  | _, _, _, .nil => readsItems_nil
  | _, _, _, .cons item more => readsItems_cons item more item.reads more.reads

theorem ItemLayout.reads : ∀ {column : Nat} {n : Node} {text : List Char}
    {below : List PrintedLine}, ItemLayout column n text below → ReadsItem column n text below
  | _, _, _, _, .inline value oneLine => readsItem_inline value oneLine
  | _, _, _, _, .block indented value => readsItem_block indented value value.reads
  | _, _, _, _, .compact entry more => readsItem_compact entry more entry.reads more.reads

end

/-- **Reading undoes printing, for every layout.** A mapping or a list that is not empty, with words
for keys and with numbers that can be written, can be printed as a block, and each of its layouts,
in any column, is read as exactly that node. -/
theorem read_spelled {n : Node} (h : Writable (fun key => KeyWord key.toList) n)
    (hfilled : Filled n) : (∃ lines, BlockLayout 0 n lines) ∧
      ∀ {column : Nat} {lines : List PrintedLine}, BlockLayout column n lines →
        read (spelled lines) = .ok n := by
  refine ⟨h.exists_blockLayout hfilled 0, ?_⟩
  intro column lines layout
  have hlines : (logicalLines (spelled lines)).map printed = lines := by
    rw [← LogicalLine.linesFrom_one]
    exact linesFrom_spelled layout.wholeLines 1
  obtain ⟨line, more, heq, -⟩ := layout.exists_line hlines
  have hread := layout.reads _ [] hlines dedents_nil
  rw [List.append_nil] at hread
  exact (ofLines_eq_ok_iff (heq ▸ List.cons_ne_nil line more)).mpr hread

theorem read_spelled_nested :
    let n : Node := .map [("b", .list [.map [("x", .bool true), ("x", .null)], .list [.text "#"]]),
      ("b", .null)]
    Writable (fun key => KeyWord key.toList) n ∧ Filled n ∧
      read "b:\n - x: true\n   x:\n -\n    - \"#\"\nb:\n".toList = .ok n := by
  intro n
  have hb : KeyWord "b".toList := ⟨by decide, List.all_eq_true.mp (by decide)⟩
  have hx : KeyWord "x".toList := ⟨by decide, List.all_eq_true.mp (by decide)⟩
  have hmap : Writable (fun key => KeyWord key.toList)
      (.map [("x", .bool true), ("x", .null)]) := by
    refine .map ?_ ?_
    · simp only [List.forall_mem_cons]
      exact ⟨hx, hx, List.forall_mem_nil _⟩
    · simp only [List.forall_mem_cons]
      exact ⟨.bool true, .null, List.forall_mem_nil _⟩
  have hlist : Writable (fun key => KeyWord key.toList) (.list [.text "#"]) :=
    .list (List.forall_mem_singleton.mpr (.text "#"))
  have hn : Writable (fun key => KeyWord key.toList) n := by
    refine .map ?_ ?_
    · simp only [List.forall_mem_cons]
      exact ⟨hb, hb, List.forall_mem_nil _⟩
    · simp only [List.forall_mem_cons]
      refine ⟨.list ?_, .null, List.forall_mem_nil _⟩
      simp only [List.forall_mem_cons]
      exact ⟨hmap, hlist, List.forall_mem_nil _⟩
  have hfilled : Filled n := .map (List.cons_ne_nil _ _)
  have hcompact : ItemLayout 1 (.map [("x", .bool true), ("x", .null)]) "- x: true".toList
      [⟨3, "x:".toList⟩] :=
    .compact (.inline hx (.bare (.bool true)) (by decide)) (.cons (.missing hx) .nil)
  have hbelow : ItemLayout 1 (.list [.text "#"]) "-".toList [⟨4, "- \"#\"".toList⟩] :=
    .block (by decide) (.list (List.cons_ne_nil _ _)
      (.cons (.inline (.quoted "#") (by decide)) .nil))
  have hlayout : BlockLayout 0 n [⟨0, "b:".toList⟩, ⟨1, "- x: true".toList⟩, ⟨3, "x:".toList⟩,
      ⟨1, "-".toList⟩, ⟨4, "- \"#\"".toList⟩, ⟨0, "b:".toList⟩] :=
    .map (List.cons_ne_nil _ _) (.cons (.block hb (by decide)
      (.list (List.cons_ne_nil _ _) (.cons hcompact (.cons hbelow .nil))))
      (.cons (.missing hb) .nil))
  exact ⟨hn, hfilled, (read_spelled hn hfilled).2 hlayout⟩

end PixelScene.Node
