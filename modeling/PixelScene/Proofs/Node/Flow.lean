import PixelScene.Proofs.Node.Inline
import PixelScene.Proofs.Node.Quote
import PixelScene.Proofs.Node.Word

/-!
# Values in flow form

`FlowText n v` says that `v` is a way to write the node `n` on one line: lists in brackets, mappings
in braces, texts in double quotes and everything else as a bare word, with any blanks around the
signs. A comma may follow the last element. A key is quoted, or bare when it is a word of key
characters, and a null value of an entry may be left out.

* `FlowRules.holds`: induction over a value and the entries in it.
* `FlowText.balanced`: a value closes every bracket that it opens, so it does not go on over the
  next line.

These are values as people write them, and more: any blanks, a comma after the last element, words
or quotes. Duplicate keys are allowed, as the tree keeps them. A node that has an empty key has no
such text, because the reader refuses empty keys in braces; the same goes for numbers that no word
stands for, those that are not finite.
-/

namespace PixelScene.Node

open LogicalLine (balance)
open Text (Blanks StartsSolid EndsSolid trimStart)

/-! ## Writing -/

/-- A word that may be a key without quotes. -/
structure KeyWord (cs : List Char) : Prop where
  ne_nil : cs ≠ []
  keyChars : ∀ c ∈ cs, isKeyChar c = true

theorem KeyWord.plain {cs : List Char} (h : KeyWord cs) : Plain cs :=
  ⟨h.ne_nil, fun c hc => isPlain_of_isKeyChar (h.keyChars c hc)⟩

/-- The ways to write a key. -/
inductive KeyText : String → List Char → Prop where
  | quoted {key : String} (ne_empty : key ≠ "") : KeyText key (quote key.toList)
  | bare {key : String} (word : KeyWord key.toList) : KeyText key key.toList

/-- Elements with commas between them up to the closing sign, with any blanks around them. -/
inductive Separated {α : Type} (Writes : α → List Char → Prop) (close : Char) :
    List α → List Char → Prop where
  | close {b : List Char} (blanks : Blanks b) : Separated Writes close [] (b ++ [close])
  | last {x : α} {b v b' : List Char} (front : Blanks b) (element : Writes x v)
      (back : Blanks b') : Separated Writes close [x] (b ++ v ++ b' ++ [close])
  | comma {x : α} {xs : List α} {b v b' rest : List Char} (front : Blanks b)
      (element : Writes x v) (back : Blanks b') (more : Separated Writes close xs rest) :
      Separated Writes close (x :: xs) (b ++ v ++ b' ++ ',' :: rest)

mutual

/-- The ways to write a node in flow form. -/
inductive FlowText : Node → List Char → Prop where
  | bare {n : Node} {w : List Char} (word : BareText n w) : FlowText n w
  | quoted (s : String) : FlowText (.text s) (quote s.toList)
  | list {items : List Node} {body : List Char} (inner : Separated FlowText ']' items body) :
      FlowText (.list items) ('[' :: body)
  | map {entries : List (String × Node)} {body : List Char}
      (inner : Separated EntryText '}' entries body) : FlowText (.map entries) ('{' :: body)

/-- The ways to write an entry of a mapping in flow form. -/
inductive EntryText : String × Node → List Char → Prop where
  | value {key : String} {n : Node} {k b b' v : List Char} (name : KeyText key k)
      (front : Blanks b) (back : Blanks b') (value : FlowText n v) :
      EntryText (key, n) (k ++ b ++ ':' :: (b' ++ v))
  | missing {key : String} {k b : List Char} (name : KeyText key k) (front : Blanks b) :
      EntryText (key, .null) (k ++ b ++ [':'])

end

/-! ## Induction -/

/-- What is kept from the parts of a value in flow form to the whole: `P` holds of values and `Q` of
entries. -/
structure FlowRules (P : Node → List Char → Prop) (Q : String × Node → List Char → Prop) :
    Prop where
  bare {n : Node} {w : List Char} : BareText n w → P n w
  quoted (s : String) : P (.text s) (quote s.toList)
  list {items : List Node} {body : List Char} :
    Separated P ']' items body → P (.list items) ('[' :: body)
  map {entries : List (String × Node)} {body : List Char} :
    Separated Q '}' entries body → P (.map entries) ('{' :: body)
  value {key : String} {n : Node} {k b b' v : List Char} :
    KeyText key k → Blanks b → Blanks b' → P n v → Q (key, n) (k ++ b ++ ':' :: (b' ++ v))
  missing {key : String} {k b : List Char} :
    KeyText key k → Blanks b → Q (key, .null) (k ++ b ++ [':'])

namespace FlowRules

variable {P : Node → List Char → Prop} {Q : String × Node → List Char → Prop}

mutual

/-- Induction over a value in flow form. -/
theorem holds (rules : FlowRules P Q) {n : Node} {v : List Char} (h : FlowText n v) : P n v := by
  cases h with
  | bare word => exact rules.bare word
  | quoted s => exact rules.quoted s
  | list inner => exact rules.list (rules.items inner)
  | map inner => exact rules.map (rules.entries inner)

theorem items (rules : FlowRules P Q) {items : List Node} {body : List Char}
    (h : Separated FlowText ']' items body) : Separated P ']' items body := by
  cases h with
  | close blanks => exact .close blanks
  | last front element back => exact .last front (rules.holds element) back
  | comma front element back more =>
    exact .comma front (rules.holds element) back (rules.items more)

theorem entries (rules : FlowRules P Q) {entries : List (String × Node)} {body : List Char}
    (h : Separated EntryText '}' entries body) : Separated Q '}' entries body := by
  cases h with
  | close blanks => exact .close blanks
  | last front element back => exact .last front (rules.entry element) back
  | comma front element back more =>
    exact .comma front (rules.entry element) back (rules.entries more)

theorem entry (rules : FlowRules P Q) {e : String × Node} {v : List Char} (h : EntryText e v) :
    Q e v := by
  cases h with
  | value name front back v => exact rules.value name front back (rules.holds v)
  | missing name front => exact rules.missing name front

end

end FlowRules

/-! ## Ends -/

theorem quote_endsSolid (cs : List Char) : EndsSolid (quote cs) := ⟨'"' :: escape cs, '"', rfl, rfl⟩

theorem Separated.endsSolid {α : Type} {Writes : α → List Char → Prop} {close : Char} {xs : List α}
    {body : List Char} (hclose : Text.isBlank close = false)
    (h : Separated Writes close xs body) : EndsSolid body := by
  induction h with
  | close blanks => exact ⟨_, close, rfl, hclose⟩
  | last front element back => exact ⟨_, close, rfl, hclose⟩
  | comma front element back more ih => exact (ih.cons ',').append _

/-- No blank ends a value in flow form. -/
theorem FlowText.endsSolid {n : Node} {v : List Char} (h : FlowText n v) : EndsSolid v := by
  cases h with
  | bare word => exact word.plain.endsSolid
  | quoted s => exact quote_endsSolid s.toList
  | list inner => exact (inner.endsSolid rfl).cons '['
  | map inner => exact (inner.endsSolid rfl).cons '{'

/-! ## Brackets -/

/-- A text that opens as many brackets and braces as it closes, whatever follows it. -/
def Balanced (v : List Char) : Prop := ∀ rest, balance none (v ++ rest) = balance none rest

namespace Balanced

variable {v v' : List Char}

theorem of_inert (h : ∀ c ∈ v, Inert c) : Balanced v := balance_append_of_inert h

theorem of_blanks (h : Blanks v) : Balanced v := of_inert fun c hc => inert_of_isBlank (h c hc)

theorem of_plain (h : Plain v) : Balanced v := of_inert fun c hc => inert_of_isPlain (h.plain c hc)

theorem append (h : Balanced v) (h' : Balanced v') : Balanced (v ++ v') := by
  intro rest
  rw [List.append_assoc, h, h']

theorem cons {c : Char} (hc : Inert c) (h : Balanced v) : Balanced (c :: v) :=
  append (of_inert (List.forall_mem_singleton.mpr hc)) h

end Balanced

theorem KeyText.balanced {key : String} {k : List Char} (h : KeyText key k) : Balanced k := by
  cases h with
  | quoted _ => exact balance_quote key.toList
  | bare word => exact .of_plain word.plain

/-- Up to the closing sign nothing but that sign counts. -/
theorem Separated.balance_append {α : Type} {close : Char} {xs : List α} {body : List Char}
    (h : Separated (fun _ => Balanced) close xs body) (hclose : isQuote close = false)
    (rest : List Char) :
    balance none (body ++ rest) = LogicalLine.bracketStep close + balance none rest := by
  have hstep : ∀ rest, balance none (close :: rest) =
      LogicalLine.bracketStep close + balance none rest := by
    intro rest
    rw [balance, LogicalLine.openQuote, hclose]
    rfl
  induction h with
  | close blanks => rw [List.append_assoc, Balanced.of_blanks blanks, List.singleton_append, hstep]
  | last front element back =>
    have hbefore := ((Balanced.of_blanks front).append element).append (.of_blanks back)
    rw [List.append_assoc, hbefore, List.singleton_append, hstep]
  | comma front element back _ ih =>
    have hbefore := ((Balanced.of_blanks front).append element).append (.of_blanks back)
    have hcomma : Balanced [','] := .of_inert (List.forall_mem_singleton.mpr (by decide))
    rw [List.append_assoc, hbefore, ← List.singleton_append, List.append_assoc, hcomma, ih]

/-- The sign in front of the elements counts against the closing one. -/
theorem Separated.balanced {α : Type} {opening close : Char} {xs : List α} {body : List Char}
    (h : Separated (fun _ => Balanced) close xs body) (hopening : isQuote opening = false)
    (hclose : isQuote close = false)
    (hstep : LogicalLine.bracketStep opening + LogicalLine.bracketStep close = 0) :
    Balanced (opening :: body) := by
  intro rest
  have hopen : LogicalLine.openQuote opening = none := by
    rw [LogicalLine.openQuote, hopening]
    rfl
  rw [List.cons_append, balance, hopen, h.balance_append hclose, ← Int.add_assoc, hstep,
    Int.zero_add]

theorem flowRules_balanced : FlowRules (fun _ => Balanced) (fun _ => Balanced) where
  bare word := .of_plain word.plain
  quoted s := balance_quote s.toList
  list inner := inner.balanced rfl rfl (by decide)
  map inner := inner.balanced rfl rfl (by decide)
  value name front back value :=
    (name.balanced.append (.of_blanks front)).append
      (.cons (by decide) ((Balanced.of_blanks back).append value))
  missing name front := (name.balanced.append (.of_blanks front)).append
    (.of_inert (List.forall_mem_singleton.mpr (by decide)))

/-- **A value in flow form closes every bracket that it opens.** -/
theorem FlowText.balanced {n : Node} {v : List Char} (h : FlowText n v) : Balanced v :=
  flowRules_balanced.holds h

end PixelScene.Node
