import PixelScene.Node.Basic

/-!
# Values on one line

A value after a key or a dash is a list in brackets, a mapping in braces, a text in quotes, or a
bare word (`parse_inline`, `Flow`). Bare words inside lists and mappings end at a separator outside
parentheses, so a call such as `Input(Action.Jump)` is one word.

Every reader returns what is left of the text with the proof that it is no longer than before; after
a comma it is shorter, which is why the loops over items and entries end.

Behind a backslash in a text in quotes, `n` is a line break and `t` a tab, and any other sign stands
for itself (`quoted`). A value has to end with its logical line; what follows it is a fault.
-/

namespace PixelScene.Node

/-! ## Words and quoted texts -/

/--
The characters of a bare word and what follows it: the word ends at a separator outside
parentheses, or with the text. `depth` counts the parentheses that are open.
-/
def spanBare (separators : List Char) : (depth : Int) → List Char → List Char × List Char
  | _, [] => ([], [])
  | depth, c :: cs =>
    if c ≠ '(' ∧ c ≠ ')' ∧ depth ≤ 0 ∧ c ∈ separators then ([], c :: cs)
    else
      let depth' := if c = '(' then depth + 1 else if c = ')' then depth - 1 else depth
      let (word, rest) := spanBare separators depth' cs
      (c :: word, rest)

/-- What a character stands for after a backslash. -/
def unescape (c : Char) : Char := if c = 'n' then '\n' else if c = 't' then '\t' else c

/-- The characters of a quoted text up to the closing quote, and what follows it. -/
def spanQuoted (quote : Char) : List Char → Option (List Char × List Char)
  | [] => none
  | '\\' :: cs =>
    match cs with
    | [] => none
    | c :: rest => (spanQuoted quote rest).map fun r => (unescape c :: r.1, r.2)
  | c :: cs =>
    if c = quote then some ([], cs)
    else (spanQuoted quote cs).map fun r => (c :: r.1, r.2)

theorem spanBare_shorter (separators : List Char) (depth : Int) (cs : List Char) :
    (spanBare separators depth cs).2.length ≤ cs.length := by
  induction cs generalizing depth with
  | nil => simp [spanBare]
  | cons c cs ih =>
    simp only [spanBare]
    split
    · simp
    · exact Nat.le_succ_of_le (ih _)

theorem spanQuoted_shorter {quote : Char} {cs body rest : List Char}
    (h : spanQuoted quote cs = some (body, rest)) : rest.length < cs.length := by
  fun_induction spanQuoted quote cs generalizing body rest with
  | case1 => cases h
  | case2 => cases h
  | case3 c more ih =>
    obtain ⟨⟨b, r⟩, hr, he⟩ := Option.map_eq_some_iff.1 h
    have := ih hr
    simp only [Prod.mk.injEq] at he
    simp only [← he.2, List.length_cons]
    omega
  | case4 => simp_all
  | case5 c cs _ hc ih =>
    obtain ⟨⟨b, r⟩, hr, he⟩ := Option.map_eq_some_iff.1 h
    have := ih hr
    simp only [Prod.mk.injEq] at he
    simp only [← he.2, List.length_cons]
    omega

theorem trimStart_shorter (cs : List Char) : (Text.trimStart cs).length ≤ cs.length :=
  (List.dropWhile_sublist _).length_le

/-! ## Values -/

/-- What was read off the front of a text, and what is left of the text, no longer than before. -/
abbrev Within (α : Type) (cs : List Char) := { r : α × List Char // r.2.length ≤ cs.length }

/-- A quoted text after its opening quote. -/
def readQuoted (quote : Char) (cs : List Char) : Except ReadFault (Within String cs) :=
  match h : spanQuoted quote cs with
  | some (body, rest) => .ok ⟨(String.ofList body, rest), Nat.le_of_lt (spanQuoted_shorter h)⟩
  | none => .error .unterminatedString

/-- A bare word without the blanks at its ends. -/
def readBare (separators : List Char) (cs : List Char) : Within (List Char) cs :=
  let r := spanBare separators 0 cs
  ⟨(Text.trim r.1, r.2), spanBare_shorter separators 0 cs⟩

/-- What is left of a text after the blanks in front. -/
def skipBlanks (cs : List Char) : { rest : List Char // rest.length ≤ cs.length } :=
  ⟨Text.trimStart cs, trimStart_shorter cs⟩

/-- Whether a character opens and closes a quoted text. -/
def isQuote (c : Char) : Bool := c == '"' || c == '\''

/-- The key of an entry: quoted, or a bare word that ends at a colon, a comma or a brace. -/
def readKey (cs : List Char) : Except ReadFault (Within String cs) :=
  match cs with
  | [] => return ⟨("", []), Nat.le_refl _⟩
  | c :: rest =>
    if isQuote c then do
      let ⟨(key, more), h⟩ ← readQuoted c rest
      return ⟨(key, more), Nat.le_succ_of_le h⟩
    else
      let ⟨(word, more), h⟩ := readBare [':', ',', '}'] (c :: rest)
      return ⟨(String.ofList word, more), h⟩

/-- Skips blanks and a colon. -/
def readColon (cs : List Char) : Except ReadFault { rest : List Char // rest.length < cs.length } :=
  match skipBlanks cs with
  | ⟨[], _⟩ => throw .missingColon
  | ⟨c :: rest, h⟩ => if c = ':' then return ⟨rest, h⟩ else throw .missingColon

mutual

/-- A value, which a separator of its surroundings ends if it is a bare word. -/
def readValue (separators : List Char) (cs : List Char) : Except ReadFault (Within Node cs) :=
  match skipBlanks cs with
  | ⟨[], _⟩ => throw .unterminatedValue
  | ⟨c :: rest, h⟩ => do
    have hrest : rest.length < cs.length := h
    if c = '{' then
      let ⟨(entries, more), hr⟩ ← readEntries rest
      return ⟨(.map entries, more), by simp only at hr ⊢; omega⟩
    else if c = '[' then
      let ⟨(items, more), hr⟩ ← readItems rest
      return ⟨(.list items, more), by simp only at hr ⊢; omega⟩
    else if isQuote c then
      let ⟨(s, more), hr⟩ ← readQuoted c rest
      return ⟨(.text s, more), by simp only at hr ⊢; omega⟩
    else
      let ⟨(word, more), hr⟩ := readBare separators (c :: rest)
      return ⟨(scalar word, more), by simp only [List.length_cons] at hr h ⊢; omega⟩
termination_by (cs.length, 0)

/-- The value of an entry, which may be missing before a comma or a brace. -/
def readEntryValue (cs : List Char) : Except ReadFault (Within Node cs) :=
  match skipBlanks cs with
  | ⟨[], _⟩ => throw .unterminatedValue
  | ⟨c :: rest, h⟩ =>
    if c = ',' ∨ c = '}' then return ⟨(.null, c :: rest), h⟩
    else readValue [',', '}'] cs
termination_by (cs.length, 1)

/-- The entries of a mapping after its opening brace or a comma, up to the closing brace. -/
def readEntries (cs : List Char) : Except ReadFault (Within (List (String × Node)) cs) :=
  match skipBlanks cs with
  | ⟨[], _⟩ => throw .unterminatedObject
  | ⟨c :: start, h⟩ =>
    if c = '}' then return ⟨([], start), Nat.le_of_lt h⟩
    else do
      let ⟨(key, afterKey), hk⟩ ← readKey (c :: start)
      if key.isEmpty then throw .emptyKey
      let ⟨body, hb⟩ ← readColon afterKey
      have hb : body.length < cs.length := by simp only at hk; omega
      let ⟨(value, afterValue), hv⟩ ← readEntryValue body
      have hv : afterValue.length < cs.length := Nat.lt_of_le_of_lt hv hb
      match skipBlanks afterValue with
      | ⟨[], _⟩ => throw .badObjectSeparator
      | ⟨d :: more, hm⟩ =>
        have hm : more.length < afterValue.length := hm
        if d = ',' then
          let ⟨(entries, rest), hr⟩ ← readEntries more
          return ⟨((key, value) :: entries, rest), by simp only at hr ⊢; omega⟩
        else if d = '}' then return ⟨([(key, value)], more), by simp only; omega⟩
        else throw .badObjectSeparator
termination_by (cs.length, 2)

/-- The items of a list after its opening bracket or a comma, up to the closing bracket. -/
def readItems (cs : List Char) : Except ReadFault (Within (List Node) cs) :=
  match skipBlanks cs with
  | ⟨[], _⟩ => throw .unterminatedList
  | ⟨c :: start, h⟩ =>
    if c = ']' then return ⟨([], start), Nat.le_of_lt h⟩
    else do
      let ⟨(value, afterValue), hv⟩ ← readValue [',', ']'] cs
      have hv : afterValue.length ≤ cs.length := hv
      match skipBlanks afterValue with
      | ⟨[], _⟩ => throw .badListSeparator
      | ⟨d :: more, hm⟩ =>
        have hm : more.length < afterValue.length := hm
        if d = ',' then
          let ⟨(items, rest), hr⟩ ← readItems more
          return ⟨(value :: items, rest), by simp only at hr ⊢; omega⟩
        else if d = ']' then return ⟨([value], more), by simp only; omega⟩
        else throw .badListSeparator
termination_by (cs.length, 2)

end

/-! ## A whole value -/

/-- Whether a value in brackets, braces or quotes starts here. -/
def startsDelimited : List Char → Bool
  | c :: _ => c == '{' || c == '[' || isQuote c
  | [] => false

/-- The node of a text that holds one value. -/
def parseText (cs : List Char) : Except ReadFault Node :=
  if startsDelimited (Text.trimStart cs) then do
    let ⟨(node, rest), _⟩ ← readValue [] cs
    if (Text.trimStart rest).isEmpty then return node
    else throw (.trailingText (String.ofList cs))
  else return scalar (Text.trim cs)

/-- The node of a text that holds one value and stands on a given line. -/
def parseInline (cs : List Char) (line : Nat) : Except ReadError Node :=
  (parseText cs).mapError fun fault => ⟨line, fault⟩

end PixelScene.Node
