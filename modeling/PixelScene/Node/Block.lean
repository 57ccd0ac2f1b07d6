import PixelScene.Node.Line

/-!
# Reading a script by its indentation

A key whose value continues on deeper lines holds the block of those lines, and so does a dash. All
lines of a block have the same indentation: mappings hold entries only, lists items only
(`BlockReader`).

Every reader returns the lines that are left, no more than before, and each entry or item takes at
least one line, which is why reading ends. The readers call each other, some on the same lines: the
number of lines goes down, or else the readers are called in one order only.

The indentation of what stands behind a dash is counted in bytes, that of a line in columns, as the
engine does; the two agree for plain blanks. A fault is the number of a line with the wording of the
engine, and the first one ends the reading.
-/

namespace PixelScene.Node

/-! ## Blocks -/

/-- What was read off the first lines, and the lines that are left. -/
abbrev Lines (α : Type) (ls : List LogicalLine) :=
  { r : α × List LogicalLine // r.2.length ≤ ls.length }

/-- Refuses a line that is indented deeper than the block that ends before it. -/
def checkDedent (indent : Nat) : List LogicalLine → Except ReadError Unit
  | [] => return
  | line :: _ =>
    if indent < line.indent then throw ⟨line.number, .inconsistentIndentation⟩ else return

/-- The number of bytes of a text in UTF-8. -/
def byteLength : List Char → Nat
  | [] => 0
  | c :: cs => c.utf8Size + byteLength cs

/-- The text of an item after its dash, and the bytes from the dash up to it. -/
def itemText (cs : List Char) : List Char × Nat :=
  let after := cs.drop 1
  (Text.trimStart after, 1 + byteLength (after.takeWhile Text.isBlank))

/-- What an item holds: nothing on its line, a first entry, or a value. -/
inductive ItemForm where
  | nothing
  | entry (key value : List Char)
  | value
deriving DecidableEq, Repr

/-- The form of the text of an item. -/
def itemForm (cs : List Char) : ItemForm :=
  if cs.isEmpty then .nothing
  else if startsFlow cs then .value
  else match splitKey? cs with
    | some (key, value) => .entry key value
    | none => .value

mutual

/-- The block that starts on the first line, at its indentation. -/
def readBlock (ls : List LogicalLine) : Except ReadError (Lines Node ls) :=
  match ls with
  | [] => return ⟨(.null, []), Nat.le_refl _⟩
  | line :: more => do
    if isItem line.text then
      let ⟨(items, rest), h⟩ ← readList line.indent (line :: more)
      return ⟨(.list items, rest), h⟩
    else
      let ⟨(entries, rest), h⟩ ← readMap line.indent (line :: more)
      return ⟨(.map entries, rest), h⟩
termination_by 4 * ls.length + 1
decreasing_by all_goals simp only [List.length_cons]; omega

/-- The block on the lines deeper than `parent`, and nothing when there is none. -/
def readNested (parent : Nat) (ls : List LogicalLine) : Except ReadError (Lines Node ls) :=
  match ls with
  | [] => return ⟨(.null, []), Nat.le_refl _⟩
  | line :: more =>
    if parent < line.indent then readBlock (line :: more)
    else return ⟨(.null, line :: more), Nat.le_refl _⟩
termination_by 4 * ls.length + 2
decreasing_by simp only [List.length_cons]; omega

/-- The entries on the lines of one indentation. -/
def readMap (indent : Nat) (ls : List LogicalLine) :
    Except ReadError (Lines (List (String × Node)) ls) :=
  match ls with
  | [] => return ⟨([], []), Nat.le_refl _⟩
  | line :: more => do
    if line.indent ≠ indent then
      checkDedent indent (line :: more)
      return ⟨([], line :: more), Nat.le_refl _⟩
    else if isItem line.text then throw ⟨line.number, .itemInMapping⟩
    else
      match splitKey? line.text with
      | none => throw ⟨line.number, .notAnEntry (String.ofList line.text)⟩
      | some (key, value) =>
        if value.isEmpty then
          let ⟨(node, rest), h⟩ ← readNested indent more
          have h : rest.length ≤ more.length := h
          let ⟨(entries, left), hl⟩ ← readMap indent rest
          return ⟨((String.ofList key, node) :: entries, left),
            Nat.le_succ_of_le (Nat.le_trans hl h)⟩
        else
          let node ← parseInline value line.number
          let ⟨(entries, left), hl⟩ ← readMap indent more
          return ⟨((String.ofList key, node) :: entries, left), Nat.le_succ_of_le hl⟩
termination_by 4 * ls.length + 0
decreasing_by all_goals simp only [List.length_cons]; omega

/-- The mapping that starts with an entry on the line of its dash and goes on over deeper lines. -/
def readItemMap (indent : Nat) (first : String × Node) (ls : List LogicalLine) :
    Except ReadError (Lines Node ls) :=
  match ls with
  | [] => return ⟨(.map [first], []), Nat.le_refl _⟩
  | line :: more => do
    if indent < line.indent then
      let ⟨(entries, rest), h⟩ ← readMap line.indent (line :: more)
      return ⟨(.map (first :: entries), rest), h⟩
    else return ⟨(.map [first], line :: more), Nat.le_refl _⟩
termination_by 4 * ls.length + 1
decreasing_by simp only [List.length_cons]; omega

/-- The value of an item whose dash stands at `indent` on line `number`. -/
def readItem (indent number : Nat) (text : List Char) (ls : List LogicalLine) :
    Except ReadError (Lines Node ls) :=
  match itemForm (itemText text).1 with
  | .nothing => readNested indent ls
  | .value => do
    let node ← parseInline (itemText text).1 number
    return ⟨(node, ls), Nat.le_refl _⟩
  | .entry key value => do
    if value.isEmpty then
      let ⟨(node, rest), h⟩ ← readNested (indent + (itemText text).2) ls
      have h : rest.length ≤ ls.length := h
      let ⟨(item, left), hl⟩ ← readItemMap indent (String.ofList key, node) rest
      return ⟨(item, left), Nat.le_trans hl h⟩
    else
      let node ← parseInline value number
      readItemMap indent (String.ofList key, node) ls
termination_by 4 * ls.length + 3
decreasing_by all_goals omega

/-- The items on the lines of one indentation. -/
def readList (indent : Nat) (ls : List LogicalLine) : Except ReadError (Lines (List Node) ls) :=
  match ls with
  | [] => return ⟨([], []), Nat.le_refl _⟩
  | line :: more => do
    if line.indent ≠ indent then
      checkDedent indent (line :: more)
      return ⟨([], line :: more), Nat.le_refl _⟩
    else if !isItem line.text then throw ⟨line.number, .entryInList⟩
    else
      let ⟨(item, rest), h⟩ ← readItem indent line.number line.text more
      have h : rest.length ≤ more.length := h
      let ⟨(items, left), hl⟩ ← readList indent rest
      return ⟨(item :: items, left), Nat.le_succ_of_le (Nat.le_trans hl h)⟩
termination_by 4 * ls.length + 0
decreasing_by all_goals simp only [List.length_cons]; omega

end

/-! ## A whole script -/

/-- The tree of the logical lines of a script; a script without lines is an empty mapping. -/
def ofLines (ls : List LogicalLine) : Except ReadError Node :=
  if ls.isEmpty then return .map []
  else do
    let ⟨(node, rest), _⟩ ← readBlock ls
    match rest with
    | [] => return node
    | line :: _ => throw ⟨line.number, .dedentBelowTop⟩

/-- The tree of a script. -/
def read (source : List Char) : Except ReadError Node := ofLines (logicalLines source)

end PixelScene.Node
