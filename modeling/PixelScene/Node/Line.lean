import PixelScene.Node.Inline

/-!
# Logical lines and keys

Blank lines and comment lines are skipped. A line that opens more brackets or braces than it closes
goes on over the following lines until they balance, and the whole is one logical line with the
number and the indentation of its first line.

* `logicalLines` makes this cut (`logical_lines`), `balance` counts brackets and braces outside
  quotes (`bracket_balance`).
* `splitKey?` cuts `key: value` at the first colon outside quotes and brackets that a blank or the
  end follows (`split_key`).

Indentation counts a tab as two and any other blank as one. A quote opens wherever it stands, also
in the middle of a word, and closes with its line: counting starts anew on the next one.
-/

namespace PixelScene

/-- A line of a script that may span several physical lines. -/
structure LogicalLine where
  number : Nat
  indent : Nat
  text : List Char
deriving DecidableEq, Repr

namespace LogicalLine

/-! ## Brackets -/

/-- How a character outside quotes changes the depth of brackets and braces. -/
def bracketStep (c : Char) : Int :=
  if c = '{' ∨ c = '[' then 1 else if c = '}' ∨ c = ']' then -1 else 0

/-- The state of quoting after a character that stands outside quotes. -/
def openQuote (c : Char) : Option Char := if Node.isQuote c then some c else none

/--
The brackets and braces opened less those closed, outside quotes. `quote` is the quote that is
open at the start; inside quotes a backslash takes the next character with it.
-/
def balance : (quote : Option Char) → List Char → Int
  | _, [] => 0
  | none, c :: cs => bracketStep c + balance (openQuote c) cs
  | some _, ['\\'] => 0
  | some q, '\\' :: _ :: cs => balance (some q) cs
  | some q, c :: cs => if c = q then balance none cs else balance (some q) cs

/-! ## Cutting a source into lines -/

/-- Whether a trimmed line is empty or a comment. -/
def isSkipped (cs : List Char) : Bool :=
  cs.isEmpty || ['#'].isPrefixOf cs || ['/', '/'].isPrefixOf cs

/-- How far a blank moves the text of its line: a tab by two columns, any other blank by one. -/
def blankWidth (c : Char) : Nat := if c = '\t' then 2 else 1

/-- The indentation of a line. -/
def indentOf : List Char → Nat
  | [] => 0
  | c :: cs => if Text.isBlank c then blankWidth c + indentOf cs else 0

/-- The first part of a logical line. -/
def start (number : Nat) (raw : List Char) : LogicalLine :=
  ⟨number, indentOf raw, Text.trim raw⟩

/-- A logical line continued by a trimmed physical line. -/
def extend (line : LogicalLine) (cs : List Char) : LogicalLine :=
  { line with text := line.text ++ ' ' :: cs }

/-- The logical lines of numbered physical lines; `pending` is a line with its open brackets. -/
def gather : (pending : Option (LogicalLine × Int)) → List (Nat × List Char) → List LogicalLine
  | none, [] => []
  | some (line, _), [] => [line]
  | pending, (number, raw) :: more =>
    let text := Text.trim raw
    if isSkipped text then gather pending more
    else
      let line := match pending with
        | some (line, _) => line.extend text
        | none => start number raw
      let depth := (pending.map Prod.snd).getD 0 + balance none text
      if 0 < depth then gather (some (line, depth)) more else line :: gather none more

/-- Physical lines with their numbers, counted from one. -/
def numbered (lines : List (List Char)) : List (Nat × List Char) :=
  lines.mapIdx fun i line => (i + 1, line)

end LogicalLine

/-- The logical lines of a source. -/
def logicalLines (source : List Char) : List LogicalLine :=
  LogicalLine.gather none (LogicalLine.numbered (Text.lines source))

namespace Node

/-! ## Keys -/

/-- How a character outside quotes changes the depth of brackets, braces and parentheses. -/
def nestingStep (c : Char) : Int :=
  if c = '{' ∨ c = '[' ∨ c = '(' then 1 else if c = '}' ∨ c = ']' ∨ c = ')' then -1 else 0

/-- Whether a blank, or nothing, comes next. -/
def endsWord : List Char → Bool
  | [] => true
  | c :: _ => Text.isBlank c

/--
The text before and after the first colon outside quotes and brackets that ends a word, when there
is one. `quote` is the quote that is open and `depth` counts the brackets that are.
-/
def cutColon? : (quote : Option Char) → (depth : Int) → List Char → Option (List Char × List Char)
  | _, _, [] => none
  | none, depth, c :: cs =>
    if c = ':' ∧ depth = 0 ∧ endsWord cs then some ([], cs)
    else
      (cutColon? (LogicalLine.openQuote c) (depth + nestingStep c) cs).map fun r => (c :: r.1, r.2)
  | some _, _, ['\\'] => none
  | some q, depth, '\\' :: c :: cs =>
    (cutColon? (some q) depth cs).map fun r => ('\\' :: c :: r.1, r.2)
  | some q, depth, c :: cs =>
    (cutColon? (if c = q then none else some q) depth cs).map fun r => (c :: r.1, r.2)

/-- A text without the quotes around it, when it has the same quote at both ends. -/
def unquote (cs : List Char) : List Char :=
  match cs with
  | c :: d :: more =>
    if isQuote c ∧ (d :: more).getLast? = some c then (d :: more).dropLast else cs
  | _ => cs

/-- The key and the value of an entry line; a line without a key, or with an empty one, has none. -/
def splitKey? (cs : List Char) : Option (List Char × List Char) :=
  match cutColon? none 0 cs with
  | none => none
  | some (before, after) =>
    let key := unquote (Text.trim before)
    if key.isEmpty then none else some (key, Text.trim after)

/-- Whether a line is an item of a list: a dash alone, or a dash and a space. -/
def isItem (cs : List Char) : Bool := cs == ['-'] || ['-', ' '].isPrefixOf cs

/-- Whether a value starts with a brace or a bracket. -/
def startsFlow : List Char → Bool
  | c :: _ => c == '{' || c == '['
  | [] => false

end Node

end PixelScene
