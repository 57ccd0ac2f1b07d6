import Mathlib
import PixelScene.Expression.Token
import PixelScene.Proofs.Node.Word
import PixelScene.Proofs.Number.Digits

/-!
# Spellings of tokens

A `Lexeme` is a token together with its spelling: a number keeps its digits, a variable whether it
is written `$x` or `State.$x`. A text is `Spaced` when it puts some lexemes one after the other,
with any blanks around them.

The scanner takes the longest token that it can, so a lexeme is read as it was meant only if what
comes next does not go on with it: `Lexeme.EndsBefore`. Blanks end every lexeme; lexemes that are
`Apart` end before each other without blanks.

* `Lexeme.read_text`: a lexeme that ends before the rest of the text is read off the front of it.
* `Spaced.scans`: lexemes that are apart are read from every text that they are spaced in.

Reading a token looks at one character or two and takes what belongs to it. Words are runs of word
characters, numbers runs of digits and points; `$` and `State.` begin a name. So of two lexemes that
are written without a blank between them only the first one is in danger, and only if the second
goes on with its characters.
-/

namespace PixelScene

/-! ## Numbers and names -/

/-- A number as it is written: digits, which a point and more digits may follow. -/
structure Literal where
  whole : List Char
  part : Option (List Char)
  whole_ne_nil : whole ≠ []
  whole_isDigit : ∀ c ∈ whole, Number.isDigit c = true
  part_isDigit : ∀ c ∈ part.getD [], Number.isDigit c = true

namespace Literal

/-- The characters from the point on. -/
def pointed (l : Literal) : List Char :=
  match l.part with
  | none => []
  | some digits => '.' :: digits

/-- The characters of a number. -/
def text (l : Literal) : List Char := l.whole ++ l.pointed

/-- The double nearest to what the digits denote. -/
def value (l : Literal) : Float :=
  let digits := l.part.getD []
  Number.Decimal.toFloat ⟨false, Number.digitsValue 0 (l.whole ++ digits), -digits.length⟩

end Literal

/-- The name of a variable: at least one ASCII letter, digit or underscore. -/
structure Name where
  chars : List Char
  chars_ne_nil : chars ≠ []
  chars_isNameChar : ∀ c ∈ chars, isNameChar c = true

namespace Name

/-- The name as a string. -/
def text (n : Name) : String := String.ofList n.chars

end Name

/-- The two ways to refer to a variable. -/
inductive Reference where
  | dollar
  | state
deriving DecidableEq, Repr

namespace Reference

/-- What stands in front of the name. -/
def text : Reference → List Char
  | dollar => ['$']
  | state => ['S', 't', 'a', 't', 'e', '.', '$']

end Reference

/-! ## Lexemes -/

/-- A token as it is written. -/
inductive Lexeme where
  | literal (l : Literal)
  | reference (r : Reference) (name : Name)
  | sign (s : Symbol)
  | openParen
  | closeParen

namespace Lexeme

/-- The characters of a lexeme. -/
def text : Lexeme → List Char
  | literal l => l.text
  | reference r name => r.text ++ name.chars
  | sign s => s.text.toList
  | openParen => ['(']
  | closeParen => [')']

/-- The token that a lexeme spells. -/
def token : Lexeme → Token
  | literal l => .number l.value
  | reference _ name => .variable name.text
  | sign s => .symbol s
  | openParen => .openParen
  | closeParen => .closeParen

/-- The next character, if there is one, does not go on with the lexeme. -/
def EndsBefore (l : Lexeme) (next : Option Char) : Prop :=
  match l with
  | literal _ => ∀ c ∈ next, Token.isNumberChar c = false
  | reference _ _ => ∀ c ∈ next, isNameChar c = false
  | sign _ => next ≠ some '='
  | openParen | closeParen => True

/-- Each lexeme ends before the one that follows it. -/
def Apart (ls : List Lexeme) : Prop := ls.IsChain fun l next => l.EndsBefore next.text.head?

end Lexeme

/-! ## Characters -/

open Node (isPlain isPlain_of_isDigit isBlank_of_isPlain)

theorem isPlain_of_isNameChar {c : Char} (h : isNameChar c = true) : isPlain c = true := by
  simp only [isNameChar, Bool.or_eq_true] at h
  rcases h with h | h <;> simp [isPlain, Node.isKeyChar, h]

theorem isPlain_of_isNumberChar {c : Char} (h : Token.isNumberChar c = true) :
    isPlain c = true := by
  simp only [Token.isNumberChar, Bool.or_eq_true] at h
  rcases h with h | h
  · exact isPlain_of_isDigit h
  · simp [isPlain, Node.isKeyChar, h]

/-- A blank belongs to no class of plain characters. -/
theorem eq_false_of_isBlank {p : Char → Bool} (hp : ∀ {c}, p c = true → isPlain c = true) {c : Char}
    (h : Text.isBlank c = true) : p c = false := by
  by_contra hne
  have hsolid := isBlank_of_isPlain (hp (Bool.of_not_eq_false hne))
  exact absurd (h.symm.trans hsolid) nofun

/-! ## Reading a lexeme -/

namespace Literal

theorem text_isNumberChar (l : Literal) : ∀ c ∈ l.text, Token.isNumberChar c = true := by
  intro c hc
  have hdigit : Number.isDigit c = true ∨ c = '.' := by
    rcases List.mem_append.mp hc with hwhole | hpointed
    · exact .inl (l.whole_isDigit c hwhole)
    · have hpart := l.part_isDigit
      unfold pointed at hpointed
      cases hl : l.part with
      | none =>
        rw [hl] at hpointed
        exact absurd hpointed List.not_mem_nil
      | some digits =>
        rw [hl] at hpointed hpart
        rcases List.mem_cons.mp hpointed with hpoint | hdigits
        · exact .inr hpoint
        · exact .inl (hpart c hdigits)
  simpa [Token.isNumberChar] using hdigit

theorem spanPlain?_text (l : Literal) :
    Number.spanPlain? l.text = some (l.whole, l.part.getD [], []) := by
  have hpart := l.part_isDigit
  have hwhole : l.whole.isEmpty = false := List.isEmpty_eq_false_iff.mpr l.whole_ne_nil
  have hstop : ∀ c ∈ l.pointed.head?, Number.isDigit c = false := by
    unfold pointed
    cases l.part with
    | none => exact fun c hc => absurd hc (Option.not_mem_none c)
    | some digits =>
      intro c hc
      obtain rfl : c = '.' := (Option.mem_some_iff.mp hc).symm
      rfl
  have hspan : Number.spanDigits l.text = (l.whole, l.pointed) :=
    spanDigits_append l.whole_isDigit hstop
  rw [Number.spanPlain?, hspan]
  unfold pointed
  cases hl : l.part with
  | none => simp [hwhole]
  | some digits =>
    rw [hl] at hpart
    have hdigits : Number.spanDigits digits = (digits, []) := by
      have hspan : Number.spanDigits (digits ++ []) = (digits, []) :=
        spanDigits_append hpart fun c hc => absurd hc (Option.not_mem_none c)
      rwa [List.append_nil] at hspan
    simp [hdigits, hwhole]

theorem plainNumber?_text (l : Literal) : Number.plainNumber? l.text = some l.value := by
  rw [Number.plainNumber?, l.spanPlain?_text]
  rfl

theorem exists_cons (l : Literal) : ∃ c more, l.text = c :: more ∧ Number.isDigit c = true := by
  obtain ⟨c, more, hwhole⟩ := List.exists_cons_of_ne_nil l.whole_ne_nil
  refine ⟨c, more ++ l.pointed, by rw [text, hwhole]; rfl, l.whole_isDigit c ?_⟩
  rw [hwhole]
  exact List.mem_cons_self

end Literal

theorem Name.readVariable_append (n : Name) (missing : ExprFault) {rest : List Char}
    (h : ∀ c ∈ rest.head?, isNameChar c = false) :
    Token.readVariable missing (n.chars ++ rest) = .ok (.variable n.text, rest) := by
  rw [Token.readVariable, Token.spanName, takeWhile_append_of_stop n.chars_isNameChar h,
    dropWhile_append_of_stop n.chars_isNameChar h]
  obtain ⟨c, more, hchars⟩ := List.exists_cons_of_ne_nil n.chars_ne_nil
  rw [Name.text, hchars]

/-- The signs that a `=` would go on with are read alone before anything else. -/
theorem readSign_alone {rest : List Char} (h : ∀ more, rest ≠ '=' :: more) :
    Token.readSign '<' rest = .ok (.symbol .less, rest) ∧
      Token.readSign '>' rest = .ok (.symbol .greater, rest) ∧
      Token.readSign '!' rest = .ok (.symbol .bang, rest) := by
  refine ⟨?_, ?_, ?_⟩ <;> rw [Token.readSign] <;> exact h

namespace Lexeme

/-- A lexeme that ends before the rest of a text is read off the front of it. -/
theorem read_text (l : Lexeme) {rest : List Char} (h : l.EndsBefore rest.head?) :
    ∃ c more, l.text ++ rest = c :: more ∧ Text.isBlank c = false ∧
      Token.read c more = .ok (l.token, rest) := by
  cases l with
  | literal l =>
    obtain ⟨c, more, htext, hc⟩ := l.exists_cons
    refine ⟨c, more ++ rest, by rw [text, htext]; rfl,
      isBlank_of_isPlain (isPlain_of_isDigit hc), ?_⟩
    have hstarts : Token.startsNumber c (more ++ rest) = true := by simp [Token.startsNumber, hc]
    have hrun : c :: (more ++ rest) = l.text ++ rest := by rw [htext]; rfl
    rw [Token.read, if_pos hstarts, hrun, takeWhile_append_of_stop l.text_isNumberChar h,
      dropWhile_append_of_stop l.text_isNumberChar h, l.plainNumber?_text]
    rfl
  | reference r name =>
    cases r with
    | dollar =>
      refine ⟨'$', name.chars ++ rest, rfl, rfl, ?_⟩
      exact name.readVariable_append .missingName h
    | state =>
      refine ⟨'S', _, rfl, rfl, ?_⟩
      exact name.readVariable_append .missingStateName h
  | sign s =>
    have hnext : ∀ more, rest ≠ '=' :: more := fun more heq => h (congrArg List.head? heq)
    obtain ⟨hless, hgreater, hbang⟩ := readSign_alone hnext
    cases s with
    | less => exact ⟨'<', rest, rfl, rfl, hless⟩
    | greater => exact ⟨'>', rest, rfl, rfl, hgreater⟩
    | bang => exact ⟨'!', rest, rfl, rfl, hbang⟩
    | _ => exact ⟨_, _, rfl, rfl, rfl⟩
  | openParen | closeParen => exact ⟨_, rest, rfl, rfl, rfl⟩

theorem text_ne_nil (l : Lexeme) : l.text ≠ [] := by
  cases l with
  | literal l =>
    obtain ⟨c, more, htext, -⟩ := l.exists_cons
    simp [text, htext]
  | reference r name => simp [text, name.chars_ne_nil]
  | sign s => cases s <;> decide
  | openParen | closeParen => exact List.cons_ne_nil _ _

theorem endsBefore_none (l : Lexeme) : l.EndsBefore none := by
  cases l <;> simp [EndsBefore]

theorem endsBefore_of_isBlank (l : Lexeme) {c : Char} (h : Text.isBlank c = true) :
    l.EndsBefore (some c) := by
  cases l with
  | literal l => simpa [EndsBefore] using eq_false_of_isBlank isPlain_of_isNumberChar h
  | reference r name => simpa [EndsBefore] using eq_false_of_isBlank isPlain_of_isNameChar h
  | sign s =>
    have hne : c ≠ '=' := by
      rintro rfl
      exact absurd h (by decide)
    simpa [EndsBefore] using hne
  | openParen | closeParen => trivial

end Lexeme

/-! ## Scanning -/

/-- The scanner reads the tokens from the text, wherever they stand. -/
def Scans (cs : List Char) (ts : List Token) : Prop :=
  ∀ total, ∃ ls, Token.scan total cs = .ok ls ∧ ls.map Located.token = ts

theorem scans_nil : Scans [] [] := fun total => ⟨[], by rw [Token.scan.eq_def], rfl⟩

theorem Scans.blanks {b cs : List Char} {ts : List Token} (hb : Text.Blanks b)
    (h : Scans cs ts) : Scans (b ++ cs) ts := by
  induction b with
  | nil => exact h
  | cons c b ih =>
    intro total
    obtain ⟨hc, hb⟩ := List.forall_mem_cons.mp hb
    rw [List.cons_append, Token.scan.eq_def]
    dsimp only
    rw [if_pos hc]
    exact ih hb total

theorem Scans.token {c : Char} {cs rest : List Char} {t : Token} {ts : List Token}
    (hc : Text.isBlank c = false) (hread : Token.read c cs = .ok (t, rest))
    (h : Scans rest ts) : Scans (c :: cs) (t :: ts) := by
  intro total
  obtain ⟨ls, hscan, hls⟩ := h total
  refine ⟨⟨total - (c :: cs).length, t⟩ :: ls, ?_, congrArg (t :: ·) hls⟩
  rw [Token.scan.eq_def]
  dsimp only
  rw [if_neg (by simp [hc])]
  split
  · rename_i heq
    rw [hread] at heq
    cases heq
  · rename_i heq
    rw [hread] at heq
    cases heq
    rw [hscan]
    rfl

/-- The text consists of the lexemes, in order, with any blanks around them. -/
inductive Spaced : List Lexeme → List Char → Prop where
  | nil {b : List Char} (blanks : Text.Blanks b) : Spaced [] b
  | cons {b cs : List Char} {ls : List Lexeme} (l : Lexeme) (blanks : Text.Blanks b)
      (more : Spaced ls cs) : Spaced (l :: ls) (b ++ l.text ++ cs)

namespace Spaced

open Text (Blanks isBlank)

variable {ls : List Lexeme} {cs : List Char}

theorem blanks_append {b : List Char} (hb : Blanks b) (h : Spaced ls cs) :
    Spaced ls (b ++ cs) := by
  have happend : ∀ {b' : List Char}, Blanks b' → Blanks (b ++ b') :=
    fun hb' => List.forall_mem_append.mpr ⟨hb, hb'⟩
  cases h with
  | nil blanks => exact .nil (happend blanks)
  | cons l blanks more =>
    rw [← List.append_assoc, ← List.append_assoc]
    exact .cons l (happend blanks) more

/-- A spaced text starts with a blank or with its first lexeme. -/
theorem endsBefore {l : Lexeme} (h : Spaced ls cs)
    (hl : ∀ next ∈ ls.head?, l.EndsBefore next.text.head?) : l.EndsBefore cs.head? := by
  cases h with
  | nil blanks =>
    cases cs with
    | nil => exact l.endsBefore_none
    | cons c b => exact l.endsBefore_of_isBlank (blanks c List.mem_cons_self)
  | @cons b more ls next blanks =>
    cases b with
    | nil =>
      -- without blanks, the first character is that of the next lexeme
      obtain ⟨c, text, htext⟩ := List.exists_cons_of_ne_nil next.text_ne_nil
      have hnext := hl next rfl
      rw [htext] at hnext ⊢
      exact hnext
    | cons c b => exact l.endsBefore_of_isBlank (blanks c List.mem_cons_self)

/-- **Lexemes that are apart are read from every text that they are spaced in.** -/
theorem scans (h : Spaced ls cs) (hls : Lexeme.Apart ls) : Scans cs (ls.map Lexeme.token) := by
  induction h with
  | @nil b blanks =>
    have hscans := scans_nil.blanks blanks
    rwa [List.append_nil] at hscans
  | @cons b cs ls l blanks more ih =>
    have hends : l.EndsBefore cs.head? := more.endsBefore fun next hnext =>
      hls.rel_head? hnext
    obtain ⟨c, rest, htext, hc, hread⟩ := l.read_text hends
    rw [List.append_assoc, htext]
    exact (Scans.token hc hread (ih hls.tail)).blanks blanks

end Spaced

end PixelScene
