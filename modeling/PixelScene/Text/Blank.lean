/-!
# Blank characters, trimming and lines

The characters that count as white space are those of the Unicode property `White_Space`. Text is
handled as a list of characters; the `String` forms wrap the list forms.

* `isBlank_of_isWhitespace`: every character that core calls white space is blank.
* `trimStart_eq_self`, `trim_nil`: trimming leaves alone what does not start with a blank.
* `dropFront?_eq_some_iff`: dropping a front succeeds exactly on the texts that it starts.
* `cutFirst?_eq_some_iff`: a text is cut at its first mark.
* `splitAt_ne_nil`: cutting a text at a mark leaves at least one part.

Core knows four blanks only, so its own trimming would leave others in place; the engine is written
against the Unicode property, which these definitions follow.
-/

namespace PixelScene.Text

/-! ## Blank characters -/

/-- Whether a character has the Unicode property `White_Space`. -/
def isBlank (c : Char) : Bool :=
  let n := c.toNat
  (9 ≤ n && n ≤ 13) || n == 0x20 || n == 0x85 || n == 0xA0 || n == 0x1680
    || (0x2000 ≤ n && n ≤ 0x200A) || n == 0x2028 || n == 0x2029 || n == 0x202F || n == 0x205F
    || n == 0x3000

/-- Core's white space (space, tab, line feed, carriage return) is blank. -/
theorem isBlank_of_isWhitespace {c : Char} (h : c.isWhitespace = true) : isBlank c = true := by
  simp only [Char.isWhitespace, Bool.or_eq_true, decide_eq_true_eq] at h
  rcases h with ((h | h) | h) | h <;> subst h <;> decide

/-! ## Trimming -/

/-- Drops the blanks in front. -/
def trimStart (cs : List Char) : List Char := cs.dropWhile isBlank

/-- Drops the blanks at the end. -/
def trimEnd (cs : List Char) : List Char := (cs.reverse.dropWhile isBlank).reverse

/-- Drops the blanks at both ends. -/
def trim (cs : List Char) : List Char := trimEnd (trimStart cs)

/-- A text without the blanks at its ends. -/
def trimmed (s : String) : String := String.ofList (trim s.toList)

@[simp] theorem trim_nil : trim [] = [] := rfl

/-- A text that starts with a character that is not blank has nothing to drop in front. -/
theorem trimStart_eq_self {c : Char} {cs : List Char} (h : isBlank c = false) :
    trimStart (c :: cs) = c :: cs := by
  simp [trimStart, h]

/-- Whether a text holds nothing but blanks. -/
def allBlank (cs : List Char) : Bool := cs.all isBlank

/-- A text that is not empty once trimmed. -/
def nonBlank (s : String) : Bool := !(allBlank s.toList)

/-! ## Prefixes -/

/-- What follows `front`, when the text starts with it. -/
def dropFront? : (front cs : List Char) → Option (List Char)
  | [], cs => some cs
  | _ :: _, [] => none
  | f :: fs, c :: cs => if f = c then dropFront? fs cs else none

/-- The text after `front` when it starts with it, else the whole text. -/
def dropFront (front cs : List Char) : List Char := (dropFront? front cs).getD cs

/-- Dropping a front succeeds exactly on the texts that it starts. -/
theorem dropFront?_eq_some_iff {front cs rest : List Char} :
    dropFront? front cs = some rest ↔ cs = front ++ rest := by
  induction front generalizing cs with
  | nil => simp [dropFront?, eq_comm]
  | cons f fs ih =>
    cases cs with
    | nil => simp [dropFront?]
    | cons c cs =>
      by_cases h : f = c
      · simp [dropFront?, h, ih]
      · simp [dropFront?, h, Ne.symm h]

theorem dropFront_eq (front cs : List Char) :
    cs = front ++ dropFront front cs ∨ cs = dropFront front cs := by
  unfold dropFront
  cases h : dropFront? front cs with
  | none => exact .inr rfl
  | some rest => exact .inl (dropFront?_eq_some_iff.mp h)

/-! ## Cutting -/

/-- The parts before and after the last `mark`, when there is one. -/
def cutLast? (mark : Char) : List Char → Option (List Char × List Char)
  | [] => none
  | c :: cs =>
    match cutLast? mark cs with
    | some (before, after) => some (c :: before, after)
    | none => if c = mark then some ([], cs) else none

/-- The parts before and after the first `mark`, when there is one. -/
def cutFirst? (mark : Char) : List Char → Option (List Char × List Char)
  | [] => none
  | c :: cs => if c = mark then some ([], cs) else (cutFirst? mark cs).map fun p => (c :: p.1, p.2)

/-- A text is cut at its first mark. -/
theorem cutFirst?_eq_some_iff {mark : Char} {cs before after : List Char} :
    cutFirst? mark cs = some (before, after) ↔ cs = before ++ mark :: after ∧ mark ∉ before := by
  induction cs generalizing before with
  | nil => simp [cutFirst?]
  | cons c cs ih =>
    rw [cutFirst?]
    split
    case isTrue h => cases before <;> simp +contextual [h, eq_comm]
    case isFalse h =>
      rw [Option.map_eq_some_iff]
      cases before with
      | nil => simp [h]
      | cons b before =>
        simp only [Prod.exists, Prod.mk.injEq, List.cons.injEq, List.cons_append, List.mem_cons]
        grind

/-- The parts of a text between the marks; a text without marks is one part. -/
def splitAt (mark : Char) : List Char → List (List Char)
  | [] => [[]]
  | c :: cs =>
    if c = mark then [] :: splitAt mark cs
    else match splitAt mark cs with
      | [] => [[c]]
      | p :: ps => (c :: p) :: ps

theorem splitAt_ne_nil (mark : Char) (cs : List Char) : splitAt mark cs ≠ [] := by
  cases cs with
  | nil => simp [splitAt]
  | cons c cs =>
    simp only [splitAt]
    split
    · simp
    · split <;> simp

/-- The lines of a text: it is cut at every line feed. -/
def lines (cs : List Char) : List (List Char) := splitAt '\n' cs

end PixelScene.Text
