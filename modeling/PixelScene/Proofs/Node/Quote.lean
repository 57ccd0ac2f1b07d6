import PixelScene.Node.Line

/-!
# Quoted texts

A text is written in double quotes with a backslash before backslashes and double quotes, and with
`\n` and `\t` for a line feed and a tab: `quote`. Every other character stands for itself.

* `spanQuoted_escape`: reading takes back the text.
* `balance_quote`, `cutColon?_quote`: brackets and colons in quotes count neither for the lines
  that a value spans nor for where a key ends.

Writing is the inverse that the engine does not have: it only reads quoted texts (`quoted`). Any
text can be written this way on one line, line breaks included, since a line break is written with a
letter.
-/

namespace PixelScene.Node

open LogicalLine (balance)

/-! ## Writing -/

/-- How a character is written in double quotes. -/
def escapeChar (c : Char) : List Char :=
  if c = '\\' then ['\\', '\\']
  else if c = '"' then ['\\', '"']
  else if c = '\n' then ['\\', 'n']
  else if c = '\t' then ['\\', 't']
  else [c]

/-- How a text is written between double quotes. -/
def escape (cs : List Char) : List Char := cs.flatMap escapeChar

/-- A text in double quotes. -/
def quote (cs : List Char) : List Char := '"' :: escape cs ++ ['"']

/-- A character is written as a backslash and a character that stands for it, or as itself. -/
theorem escapeChar_cases (c : Char) :
    (∃ d, escapeChar c = ['\\', d] ∧ unescape d = c ∧ d ≠ '\n') ∨
      (escapeChar c = [c] ∧ c ≠ '\\' ∧ c ≠ '"' ∧ c ≠ '\n') := by
  by_cases hb : c = '\\'
  · subst hb
    exact .inl ⟨'\\', rfl, rfl, by decide⟩
  by_cases hq : c = '"'
  · subst hq
    exact .inl ⟨'"', rfl, rfl, by decide⟩
  by_cases hn : c = '\n'
  · subst hn
    exact .inl ⟨'n', rfl, rfl, by decide⟩
  by_cases ht : c = '\t'
  · subst ht
    exact .inl ⟨'t', rfl, rfl, by decide⟩
  · exact .inr ⟨by simp [escapeChar, hb, hq, hn, ht], hb, hq, hn⟩

theorem escape_cons (c : Char) (cs : List Char) :
    escape (c :: cs) = escapeChar c ++ escape cs := rfl

/-- A quoted text stands on one line. -/
theorem not_mem_quote (cs : List Char) : '\n' ∉ quote cs := by
  have hescape : '\n' ∉ escape cs := by
    intro h
    obtain ⟨c, -, hc⟩ := List.mem_flatMap.mp h
    rcases escapeChar_cases c with ⟨d, heq, -, hd⟩ | ⟨heq, -, -, hc'⟩
    · rw [heq] at hc
      simp [Ne.symm hd] at hc
    · rw [heq] at hc
      exact hc' (List.mem_singleton.mp hc).symm
  simp [quote, hescape]

/-! ## Reading -/

/-- Reading up to the closing quote takes back the text. -/
theorem spanQuoted_escape (cs rest : List Char) :
    spanQuoted '"' (escape cs ++ '"' :: rest) = some (cs, rest) := by
  induction cs with
  | nil => rfl
  | cons c cs ih =>
    rw [escape_cons, List.append_assoc]
    rcases escapeChar_cases c with ⟨d, heq, hd, -⟩ | ⟨heq, hb, hq, -⟩
    · rw [heq, List.cons_append, List.cons_append, List.nil_append, spanQuoted, ih, ← hd]
      rfl
    · rw [heq, List.singleton_append, spanQuoted, if_neg hq, ih]
      · rfl
      · exact hb

/-! ## Brackets and colons -/

theorem balance_some_cons {q c : Char} (hc : c ≠ '\\') (cs : List Char) :
    balance (some q) (c :: cs) = if c = q then balance none cs else balance (some q) cs := by
  rw [balance]
  · exact fun h _ => hc h
  · exact fun _ _ h _ => hc h

theorem cutColon?_some_cons {q c : Char} (hc : c ≠ '\\') (depth : Int) (cs : List Char) :
    cutColon? (some q) depth (c :: cs) =
      (cutColon? (if c = q then none else some q) depth cs).map fun r => (c :: r.1, r.2) := by
  rw [cutColon?]
  · exact fun h _ => hc h
  · exact fun _ _ h _ => hc h

theorem balance_escape (cs rest : List Char) :
    balance (some '"') (escape cs ++ '"' :: rest) = balance none rest := by
  induction cs with
  | nil => rfl
  | cons c cs ih =>
    rw [escape_cons, List.append_assoc]
    rcases escapeChar_cases c with ⟨d, heq, -, -⟩ | ⟨heq, hb, hq, -⟩
    · rw [heq]
      exact ih
    · rw [heq, List.singleton_append, balance_some_cons hb, if_neg hq, ih]

/-- A quoted text opens and closes no brackets. -/
theorem balance_quote (cs rest : List Char) :
    balance none (quote cs ++ rest) = balance none rest := by
  have hquote : quote cs ++ rest = '"' :: (escape cs ++ '"' :: rest) := by simp [quote]
  rw [hquote, balance, ← balance_escape cs rest]
  exact Int.zero_add _

theorem cutColon?_escape (depth : Int) (cs rest : List Char) :
    cutColon? (some '"') depth (escape cs ++ '"' :: rest) =
      (cutColon? none depth rest).map fun r => (escape cs ++ '"' :: r.1, r.2) := by
  induction cs with
  | nil => rfl
  | cons c cs ih =>
    rw [escape_cons, List.append_assoc]
    rcases escapeChar_cases c with ⟨d, heq, -, -⟩ | ⟨heq, hb, hq, -⟩
    · rw [heq, List.cons_append, List.cons_append, List.nil_append, cutColon?, ih, Option.map_map]
      rfl
    · rw [heq, List.singleton_append, cutColon?_some_cons hb, if_neg hq, ih, Option.map_map]
      rfl

/-- No key ends in a quoted text. -/
theorem cutColon?_quote (depth : Int) (cs rest : List Char) :
    cutColon? none depth (quote cs ++ rest) =
      (cutColon? none depth rest).map fun r => (quote cs ++ r.1, r.2) := by
  have hquote : ∀ ds, quote cs ++ ds = '"' :: (escape cs ++ '"' :: ds) := by simp [quote]
  have hdepth : depth + nestingStep '"' = depth := Int.add_zero depth
  have hopen : LogicalLine.openQuote '"' = some '"' := rfl
  rw [hquote, cutColon?, if_neg (by simp), hdepth, hopen, cutColon?_escape, Option.map_map]
  simp only [hquote]
  rfl

end PixelScene.Node
