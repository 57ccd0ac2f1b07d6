import PixelScene.Node.Block
import PixelScene.Proofs.Outcome

/-!
# What the readers of blocks return

One statement for each reader and each kind of line that can come next, so that nothing after this
module has to open the readers.

A block reader looks at its next line and asks for its indentation, for a dash in front, and for a
colon that ends a key. The cases are those of the engine (`BlockReader`), and each is an equation,
so a proof goes from line to line as the reader does.
-/

namespace PixelScene.Node

section Equations

variable {indent parent number : Nat} {text : List Char} {line : LogicalLine}
  {ls more : List LogicalLine}

/-- The next line, if there is one, is indented deeper. -/
def Deeper (parent : Nat) (ls : List LogicalLine) : Prop := ∃ line ∈ ls.head?, parent < line.indent

/-- The next line, if there is one, ends a block of the given indentation. -/
def Dedents (indent : Nat) (ls : List LogicalLine) : Prop := ∀ line ∈ ls.head?, line.indent < indent

theorem dedents_nil : Dedents indent [] := by
  intro line hline
  cases hline

theorem ne_of_dedents (h : Dedents indent ls) : ∀ line ∈ ls.head?, line.indent ≠ indent :=
  fun line hline => Nat.ne_of_lt (h line hline)

/-! ## Blocks -/

variable {r : Node × List LogicalLine}

theorem yields_readBlock_list_iff (h : isItem line.text = true) :
    Yields (readBlock (line :: more)) r ↔
      ∃ a, Yields (readList line.indent (line :: more)) a ∧ r = (.list a.1, a.2) := by
  rw [readBlock]
  simp only [h, if_true]
  apply yields_bind_pure_iff
  exact fun a h => ⟨_, rfl⟩

theorem yields_readBlock_map_iff (h : isItem line.text = false) :
    Yields (readBlock (line :: more)) r ↔
      ∃ a, Yields (readMap line.indent (line :: more)) a ∧ r = (.map a.1, a.2) := by
  rw [readBlock]
  simp only [h]
  apply yields_bind_pure_iff
  exact fun a h => ⟨_, rfl⟩

theorem yields_readNested_deeper_iff (h : Deeper parent ls) :
    Yields (readNested parent ls) r ↔ Yields (readBlock ls) r := by
  obtain ⟨line, hline, hlt⟩ := h
  obtain ⟨more, rfl⟩ := List.head?_eq_some_iff.mp hline
  rw [readNested, if_pos hlt]

theorem yields_readNested_none_iff (h : ¬ Deeper parent ls) :
    Yields (readNested parent ls) r ↔ r = (.null, ls) := by
  cases ls with
  | nil =>
    rw [readNested]
    exact yields_pure_iff
  | cons line more =>
    have hle : ¬ parent < line.indent := fun hlt => h ⟨line, rfl, hlt⟩
    rw [readNested, if_neg hle]
    exact yields_pure_iff

/-! ## Mappings -/

theorem checkDedent_eq_ok_iff (h : ∀ line ∈ ls.head?, line.indent ≠ indent) :
    checkDedent indent ls = .ok () ↔ Dedents indent ls := by
  cases ls with
  | nil => exact ⟨fun _ => dedents_nil, fun _ => rfl⟩
  | cons line more =>
    have hne : line.indent ≠ indent := h line rfl
    simp only [checkDedent, Dedents, List.head?_cons, Option.mem_some_iff, forall_eq']
    split
    · rename_i hlt
      refine ⟨fun hok => ?_, fun hgt => absurd hlt (Nat.not_lt.mpr (Nat.le_of_lt hgt))⟩
      cases hok
    · rename_i hle
      exact ⟨fun _ => Nat.lt_of_le_of_ne (Nat.le_of_not_lt hle) hne, fun _ => rfl⟩

/-- The entries of a block end at the first line of another indentation. -/
theorem yields_readMap_end_iff (h : ∀ line ∈ ls.head?, line.indent ≠ indent)
    {r : List (String × Node) × List LogicalLine} :
    Yields (readMap indent ls) r ↔ Dedents indent ls ∧ r = ([], ls) := by
  rw [← checkDedent_eq_ok_iff h]
  cases ls with
  | nil =>
    rw [readMap]
    exact yields_pure_iff.trans ⟨fun hr => ⟨rfl, hr⟩, fun hr => hr.2⟩
  | cons line more =>
    rw [readMap, if_pos (h line rfl)]
    cases hcheck : checkDedent indent (line :: more) with
    | error e => exact ⟨fun hr => absurd hr not_yields_throw, fun hr => by cases hr.1⟩
    | ok u => exact yields_pure_iff.trans ⟨fun hr => ⟨rfl, hr⟩, fun hr => hr.2⟩

/-- What the value of an entry is, for a key in the given column: the nested block when nothing
follows the key on its line. -/
def EntryValue (column number : Nat) (value : List Char) (ls : List LogicalLine) (node : Node)
    (rest : List LogicalLine) : Prop :=
  value = [] ∧ Yields (readNested column ls) (node, rest) ∨
    value ≠ [] ∧ parseInline value number = .ok node ∧ rest = ls

/-- A value is read, and the rest is read after it. -/
theorem yields_entryValue_iff {β : Type} {p : β → Prop} {column : Nat} {value : List Char}
    {nested : Lines Node ls → Except ReadError { b // p b }}
    {inline : Node → Except ReadError { b // p b }} {b : β}
    {Rest : Node → List LogicalLine → Prop}
    (hnested : ∀ node rest h, Yields (nested ⟨(node, rest), h⟩) b ↔ Rest node rest)
    (hinline : ∀ node, Yields (inline node) b ↔ Rest node ls) :
    Yields (if value.isEmpty = true then readNested column ls >>= nested
      else parseInline value number >>= inline) b ↔
      ∃ node rest, EntryValue column number value ls node rest ∧ Rest node rest := by
  by_cases hvalue : value = []
  · rw [if_pos (List.isEmpty_iff.mpr hvalue), yields_bind_iff]
    constructor
    · rintro ⟨⟨node, rest⟩, h, hread, hrest⟩
      exact ⟨node, rest, .inl ⟨hvalue, hread⟩, (hnested node rest h).mp hrest⟩
    · rintro ⟨node, rest, ⟨-, hread⟩ | ⟨hne, -⟩, hrest⟩
      · exact ⟨(node, rest), hread.choose, hread, (hnested node rest _).mpr hrest⟩
      · exact absurd hvalue hne
  · rw [if_neg fun h => hvalue (List.isEmpty_iff.mp h), yields_bind_ok_iff]
    constructor
    · rintro ⟨node, hread, hrest⟩
      exact ⟨node, ls, .inr ⟨hvalue, hread, rfl⟩, (hinline node).mp hrest⟩
    · rintro ⟨node, rest, ⟨heq, -⟩ | ⟨-, hread, rfl⟩, hrest⟩
      · exact absurd heq hvalue
      · exact ⟨node, hread, (hinline node).mpr hrest⟩

theorem yields_readMap_entry_iff (h : line.indent = indent)
    {r : List (String × Node) × List LogicalLine} :
    Yields (readMap indent (line :: more)) r ↔ isItem line.text = false ∧
      ∃ key value, splitKey? line.text = some (key, value) ∧
        ∃ node rest, EntryValue indent line.number value more node rest ∧
          ∃ a, Yields (readMap indent rest) a ∧ r = ((String.ofList key, node) :: a.1, a.2) := by
  rw [readMap, if_neg (not_not_intro h)]
  cases hitem : isItem line.text with
  | true => exact ⟨fun hr => absurd hr not_yields_throw, fun hr => by cases hr.1⟩
  | false =>
    cases hkey : splitKey? line.text with
    | none =>
      refine ⟨fun hr => absurd hr not_yields_throw, ?_⟩
      rintro ⟨-, key, value, hsplit, -⟩
      cases hsplit
    | some kv =>
      obtain ⟨key, value⟩ := kv
      rw [if_neg Bool.false_ne_true]
      refine Iff.trans (yields_entryValue_iff
        (fun node rest h => yields_bind_cons_iff (String.ofList key, node) fun _ _ => ⟨_, rfl⟩)
        (fun node => yields_bind_cons_iff (String.ofList key, node) fun _ _ => ⟨_, rfl⟩))
        ⟨fun hr => ⟨rfl, key, value, rfl, hr⟩, ?_⟩
      rintro ⟨-, key', value', hsplit, hr⟩
      obtain ⟨rfl, rfl⟩ := Prod.mk.inj (Option.some.inj hsplit)
      exact hr

/-! ## Items -/

theorem yields_readItemMap_deeper_iff {first : String × Node} (h : indent < line.indent) :
    Yields (readItemMap indent first (line :: more)) r ↔
      ∃ a, Yields (readMap line.indent (line :: more)) a ∧ r = (.map (first :: a.1), a.2) := by
  rw [readItemMap]
  simp only [h, if_true]
  apply yields_bind_pure_iff
  exact fun a h => ⟨_, rfl⟩

theorem yields_readItemMap_none_iff {first : String × Node} (h : ¬ Deeper indent ls) :
    Yields (readItemMap indent first ls) r ↔ r = (.map [first], ls) := by
  cases ls with
  | nil =>
    rw [readItemMap]
    exact yields_pure_iff
  | cons line more =>
    have hle : ¬ indent < line.indent := fun hlt => h ⟨line, rfl, hlt⟩
    rw [readItemMap, if_neg hle]
    exact yields_pure_iff

theorem yields_readItem_nothing_iff (h : itemForm (itemText text).1 = .nothing) :
    Yields (readItem indent number text ls) r ↔ Yields (readNested indent ls) r := by
  rw [readItem, h]

theorem yields_readItem_value_iff (h : itemForm (itemText text).1 = .value) :
    Yields (readItem indent number text ls) r ↔
      ∃ node, parseInline (itemText text).1 number = .ok node ∧ r = (node, ls) := by
  rw [readItem, h]
  refine yields_bind_ok_iff.trans ⟨?_, ?_⟩
  · rintro ⟨node, hread, hr⟩
    exact ⟨node, hread, yields_pure_iff.mp hr⟩
  · rintro ⟨node, hread, hr⟩
    exact ⟨node, hread, yields_pure_iff.mpr hr⟩

theorem yields_readItem_entry_iff {key value : List Char}
    (h : itemForm (itemText text).1 = .entry key value) :
    Yields (readItem indent number text ls) r ↔
      ∃ node rest, EntryValue (indent + (itemText text).2) number value ls node rest ∧
        Yields (readItemMap indent (String.ofList key, node) rest) r := by
  rw [readItem, h]
  refine yields_entryValue_iff (fun node rest hle => ?_) (fun node => Iff.rfl)
  refine (yields_bind_pure_iff (fun a => (a.1, a.2)) fun _ _ => ⟨_, rfl⟩).trans ⟨?_, ?_⟩
  · rintro ⟨a, hread, rfl⟩
    exact hread
  · exact fun hread => ⟨r, hread, rfl⟩

theorem yields_readList_end_iff (h : ∀ line ∈ ls.head?, line.indent ≠ indent)
    {r : List Node × List LogicalLine} :
    Yields (readList indent ls) r ↔ Dedents indent ls ∧ r = ([], ls) := by
  rw [← checkDedent_eq_ok_iff h]
  cases ls with
  | nil =>
    rw [readList]
    exact yields_pure_iff.trans ⟨fun hr => ⟨rfl, hr⟩, fun hr => hr.2⟩
  | cons line more =>
    rw [readList, if_pos (h line rfl)]
    cases hcheck : checkDedent indent (line :: more) with
    | error e => exact ⟨fun hr => absurd hr not_yields_throw, fun hr => by cases hr.1⟩
    | ok u => exact yields_pure_iff.trans ⟨fun hr => ⟨rfl, hr⟩, fun hr => hr.2⟩

theorem yields_readList_item_iff (h : line.indent = indent) {r : List Node × List LogicalLine} :
    Yields (readList indent (line :: more)) r ↔ isItem line.text = true ∧
      ∃ item rest, Yields (readItem indent line.number line.text more) (item, rest) ∧
        ∃ a, Yields (readList indent rest) a ∧ r = (item :: a.1, a.2) := by
  rw [readList, if_neg (not_not_intro h)]
  cases hitem : isItem line.text with
  | false => exact ⟨fun hr => absurd hr not_yields_throw, fun hr => by cases hr.1⟩
  | true =>
    refine yields_bind_iff.trans ⟨?_, ?_⟩
    · rintro ⟨⟨item, rest⟩, hle, hread, hr⟩
      obtain ⟨a, hmore, rfl⟩ := (yields_bind_cons_iff item fun _ _ => ⟨_, rfl⟩).mp hr
      exact ⟨rfl, item, rest, hread, a, hmore, rfl⟩
    · rintro ⟨-, item, rest, hread, a, hmore, rfl⟩
      refine ⟨(item, rest), hread.choose, hread, ?_⟩
      exact (yields_bind_cons_iff item fun _ _ => ⟨_, rfl⟩).mpr ⟨a, hmore, rfl⟩

/-! ## A whole script -/

/-- A script with lines is one block that takes all of them. -/
theorem ofLines_eq_ok_iff (h : ls ≠ []) {n : Node} :
    ofLines ls = .ok n ↔ Yields (readBlock ls) (n, []) := by
  rw [ofLines, if_neg (by simpa using h), bind_eq_ok_iff]
  constructor
  · rintro ⟨⟨⟨m, rest⟩, hle⟩, hread, hm⟩
    cases rest with
    | nil =>
      obtain rfl := pure_eq_ok_iff.mp hm
      exact ⟨hle, hread⟩
    | cons line more => cases hm
  · rintro ⟨hle, hread⟩
    exact ⟨⟨(n, []), hle⟩, hread, rfl⟩

/-- A script that starts with an entry on one line is this entry and those of the lines below. -/
theorem ofLines_entry {key value : List Char} {n : Node} {entries : List (String × Node)}
    (hitem : isItem line.text = false) (hkey : splitKey? line.text = some (key, value))
    (hvalue : value ≠ []) (hparse : parseInline value line.number = .ok n)
    (hmore : Yields (readMap line.indent more) (entries, [])) :
    ofLines (line :: more) = .ok (.map ((String.ofList key, n) :: entries)) := by
  have hmap : Yields (readMap line.indent (line :: more))
      ((String.ofList key, n) :: entries, []) :=
    (yields_readMap_entry_iff rfl).mpr ⟨hitem, key, value, hkey, n, more,
      .inr ⟨hvalue, hparse, rfl⟩, (entries, []), hmore, rfl⟩
  exact (ofLines_eq_ok_iff (List.cons_ne_nil line more)).mpr
    ((yields_readBlock_map_iff hitem).mpr ⟨_, hmap, rfl⟩)

end Equations

end PixelScene.Node
