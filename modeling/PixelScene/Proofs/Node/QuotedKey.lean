import PixelScene.Proofs.Node.LayoutReading
import PixelScene.Proofs.Number.Decimal

/-!
# Keys in quotes

A key in quotes stands on a line of its own, as in `"a: b": 1`, or between braces, as in
`{"a: b": 1}`. Both readers skip over backslashes to find where the key ends. The one for braces
also takes them out of the key; a line only loses its quotes, so that its key is the text as it is
written.

* `escape_eq_self_iff`: a text is written as itself unless one of its characters needs a backslash.
* `read_quotedKey`, `parseInline_quotedKey`: what the two readers make of a quoted key and a value.
* `quotedKey_agrees_iff`: they agree on the keys that are written as themselves, and on no others.

A key on a line is cut at its colon and then loses its quotes (`split_key`, `unquote`). A key in
braces is read as any text in quotes (`quoted`). So `"a\"b"` is three characters in braces and four
on a line. Nothing is assumed of the key; the value may be anything that stands on a line.
-/

namespace PixelScene.Node

/-! ## Texts that are written as themselves -/

/-- The characters with a backslash in front. -/
def escaped : List Char := ['\\', '"', '\n', '\t']

theorem length_escapeChar (c : Char) : (escapeChar c).length = if c ∈ escaped then 2 else 1 := by
  split
  · rename_i hc
    simp only [escaped, List.mem_cons, List.not_mem_nil, or_false] at hc
    rcases hc with rfl | rfl | rfl | rfl <;> rfl
  · rename_i hc
    simp only [escaped, List.mem_cons, List.not_mem_nil, or_false, not_or] at hc
    simp [escapeChar, hc]

theorem escapeChar_eq_self {c : Char} (hc : c ∉ escaped) : escapeChar c = [c] := by
  simp only [escaped, List.mem_cons, List.not_mem_nil, or_false, not_or] at hc
  simp [escapeChar, hc]

/-- Writing a text makes it no shorter. -/
theorem length_le_escape (cs : List Char) : cs.length ≤ (escape cs).length := by
  induction cs with
  | nil => exact Nat.le_refl 0
  | cons c cs ih =>
    have hc : 1 ≤ (escapeChar c).length := by
      rw [length_escapeChar]
      split <;> decide
    rw [escape_cons, List.length_append, List.length_cons]
    omega

/-- A text is written as itself unless one of its characters needs a backslash. -/
theorem escape_eq_self_iff {cs : List Char} : escape cs = cs ↔ ∀ c ∈ cs, c ∉ escaped := by
  induction cs with
  | nil => exact ⟨fun _ => List.forall_mem_nil _, fun _ => rfl⟩
  | cons c cs ih =>
    rw [List.forall_mem_cons, ← ih, escape_cons]
    constructor
    · intro h
      have hc : c ∉ escaped := by
        intro hc
        -- two characters for one cannot be made up for by the others
        have hlength := congrArg List.length h
        rw [List.length_append, length_escapeChar, if_pos hc, List.length_cons] at hlength
        have hmore := length_le_escape cs
        omega
      rw [escapeChar_eq_self hc] at h
      exact ⟨hc, (List.cons.inj h).2⟩
    · rintro ⟨hc, h⟩
      rw [escapeChar_eq_self hc, h, List.singleton_append]

theorem escape_ne_nil {cs : List Char} (h : cs ≠ []) : escape cs ≠ [] := by
  have hlength := length_le_escape cs
  have hpos := List.length_pos_of_ne_nil h
  exact List.ne_nil_of_length_pos (Nat.lt_of_lt_of_le hpos hlength)

/-! ## A key in quotes on a line -/

theorem unquote_quote (cs : List Char) : unquote (quote cs) = escape cs := by
  have hquote : quote cs = '"' :: (escape cs ++ ['"']) := rfl
  have hlast : (escape cs ++ ['"']).getLast? = some '"' := List.getLast?_concat
  have hfront : (escape cs ++ ['"']).dropLast = escape cs := List.dropLast_concat
  rw [hquote]
  cases hmore : escape cs ++ ['"'] with
  | nil => exact absurd hmore (List.append_ne_nil_of_right_ne_nil _ (List.cons_ne_nil _ _))
  | cons d more =>
    rw [hmore] at hlast hfront
    rw [unquote, if_pos ⟨rfl, hlast⟩, hfront]

variable {key : String} {n : Node} {v : List Char}

/-- A quoted key on a line is the text as it is written. -/
theorem splitKey?_quotedKey {k : List Char} (hk : k ≠ []) (hv : WholeLine v) :
    splitKey? (quote k ++ ':' :: ' ' :: v) = some (escape k, v) := by
  have hcut : cutColon? none 0 (quote k ++ ':' :: ' ' :: v) = some (quote k, ' ' :: v) := by
    rw [cutColon?_quote, cutColon?_colon rfl, Option.map_some, List.append_nil]
  have hkey : Text.trim (quote k) = quote k :=
    Text.trim_eq_self ⟨'"', _, rfl, rfl⟩ (quote_endsSolid k)
  rw [splitKey?, hcut]
  simp only [hkey, unquote_quote, hv.trim_space, List.isEmpty_iff, escape_ne_nil hk, if_false]

theorem wholeLine_quotedKey (k : List Char) (hv : WholeLine v) :
    WholeLine (quote k ++ ':' :: ' ' :: v) where
  starts := ⟨'"', _, rfl, rfl⟩
  ends := ((hv.ends.cons ' ').cons ':').append (quote k)
  oneLine := by simp [not_mem_quote, hv.oneLine]
  kept := isSkipped_cons (by decide) (by decide) _
  closed := by
    rw [balance_quote, balance_cons_of_inert (by decide), balance_cons_of_inert (by decide)]
    exact hv.closed

/-- A line with a quoted key holds its value under the text of the key as it is written. -/
theorem read_quotedKey (hkey : key ≠ "") (value : FlowText n v) (oneLine : '\n' ∉ v) :
    read (quote key.toList ++ ':' :: ' ' :: v) =
      .ok (.map [(String.ofList (escape key.toList), n)]) := by
  have hchars : key.toList ≠ [] := mt String.toList_eq_nil_iff.mp hkey
  have hv : WholeLine v := value.wholeLine oneLine
  have hsome : v ≠ [] := by
    obtain ⟨c, more, rfl, -⟩ := hv.starts
    exact List.cons_ne_nil c more
  have hend : Yields (readMap 0 []) ([], []) := readsEntries_nil [] [] rfl dedents_nil
  rw [read, (wholeLine_quotedKey key.toList hv).logicalLines_eq]
  exact ofLines_entry (isItem_cons (by decide) _) (splitKey?_quotedKey hchars hv) hsome
    (value.parseInline_eq 1) hend

/-- Between braces, a quoted key is the text that was put in quotes. -/
theorem parseInline_quotedKey (hkey : key ≠ "") (value : FlowText n v) (line : Nat) :
    parseInline ('{' :: quote key.toList ++ ':' :: ' ' :: v ++ ['}']) line =
      .ok (.map [(key, n)]) := by
  have hentry : EntryText (key, n) (quote key.toList ++ [] ++ ':' :: ([' '] ++ v)) :=
    .value (.quoted hkey) Text.blanks_nil Text.blanks_space value
  have hmap : FlowText (.map [(key, n)]) _ := .map (.last Text.blanks_nil hentry Text.blanks_nil)
  have hread := hmap.parseInline_eq line
  simpa using hread

/-! ## The two readings -/

theorem key_eq_of_read {source : List Char} {other : String}
    (h : read source = .ok (.map [(key, n)])) (h' : read source = .ok (.map [(other, n)])) :
    key = other := by
  have hentries := Node.map.inj (Except.ok.inj (h.symm.trans h'))
  exact (Prod.mk.inj (List.cons.inj hentries).1).1

/-- The digit one is a way to write the number. -/
theorem flowText_one : FlowText (.number (Number.ofInt 1)) ['1'] := by
  have hbits : Number.Decimal.bits Number.double ⟨false, 1, 0⟩ =
      Number.double.encode (.finite false 1 0) := by decide +kernel
  have hone : Number.Decimal.toFloat ⟨false, 1, 0⟩ = Number.ofInt 1 :=
    congrArg (fun bits => Float.ofBits (UInt64.ofNat bits)) hbits
  have hnumber : Number.number? ['1'] = some (Number.ofInt 1) := by
    rw [← hone]
    rfl
  have hvalue : Number.Decimal.value ⟨false, 1, 0⟩ = 1 := by norm_num [Number.Decimal.value]
  have hfinite : (Number.exact (Number.ofInt 1)).isFinite = true := by
    rw [← hone]
    refine Number.isFinite_toFloat ?_
    rw [hvalue]
    exact one_lt_zpow₀ one_lt_two (by decide)
  refine .bare (.number ?_)
  rw [scalar, if_neg (by decide), if_neg (by decide), if_neg (by decide), numberOrText, hnumber]
  simp only [hfinite, Bool.and_true]
  rfl

/-- **A quoted key means the same on a line and between braces exactly when none of its characters
needs a backslash.** Both readings succeed, for every key; braces give the key itself, and a line
gives the text between the quotes. -/
theorem quotedKey_agrees_iff (hkey : key ≠ "") (line : Nat) :
    parseInline ('{' :: quote key.toList ++ ": 1\x7d".toList) line =
      .ok (.map [(key, .number (Number.ofInt 1))]) ∧
    read (quote key.toList ++ ": 1".toList) =
      .ok (.map [(String.ofList (escape key.toList), .number (Number.ofInt 1))]) ∧
    (read (quote key.toList ++ ": 1".toList) = .ok (.map [(key, .number (Number.ofInt 1))]) ↔
      ∀ c ∈ key.toList, c ≠ '\\' ∧ c ≠ '"' ∧ c ≠ '\n' ∧ c ≠ '\t') := by
  have hinline := parseInline_quotedKey hkey flowText_one line
  have hread := read_quotedKey hkey flowText_one (by decide)
  rw [List.append_assoc] at hinline
  refine ⟨hinline, hread, ?_⟩
  have hsame : (∀ c ∈ key.toList, c ≠ '\\' ∧ c ≠ '"' ∧ c ≠ '\n' ∧ c ≠ '\t') ↔
      String.ofList (escape key.toList) = key := by
    rw [← String.toList_inj, String.toList_ofList, escape_eq_self_iff]
    simp only [escaped, List.mem_cons, List.not_mem_nil, or_false, not_or]
  rw [hsame]
  constructor
  · exact key_eq_of_read hread
  · intro h
    rw [h] at hread
    exact hread

theorem quotedKey_agrees_iff_colon :
    "a: [b" ≠ "" ∧
      parseInline "\x7b\"a: [b\": 1\x7d".toList 1 =
        .ok (.map [("a: [b", .number (Number.ofInt 1))]) ∧
      read "\"a: [b\": 1".toList = .ok (.map [("a: [b", .number (Number.ofInt 1))]) := by
  have hkey : "a: [b" ≠ "" := by decide
  have hbraces : "\x7b\"a: [b\": 1\x7d".toList =
      '{' :: quote "a: [b".toList ++ ": 1\x7d".toList := by decide
  have hline : "\"a: [b\": 1".toList = quote "a: [b".toList ++ ": 1".toList := by decide
  have hplain : ∀ c ∈ "a: [b".toList, c ≠ '\\' ∧ c ≠ '"' ∧ c ≠ '\n' ∧ c ≠ '\t' := by simp
  obtain ⟨hinline, -, hread⟩ := quotedKey_agrees_iff hkey 1
  rw [hbraces, hline]
  exact ⟨hkey, hinline, hread.mpr hplain⟩

/-- On a line the key `a"b` keeps the backslash that it is written with. -/
theorem quotedKey_keeps_backslash :
    parseInline "\x7b\"a\\\"b\": 1\x7d".toList 1 =
        .ok (.map [("a\"b", .number (Number.ofInt 1))]) ∧
      read "\"a\\\"b\": 1".toList = .ok (.map [("a\\\"b", .number (Number.ofInt 1))]) ∧
      read "\"a\\\"b\": 1".toList ≠ .ok (.map [("a\"b", .number (Number.ofInt 1))]) := by
  have hkey : "a\"b" ≠ "" := by decide
  have hbraces : "\x7b\"a\\\"b\": 1\x7d".toList =
      '{' :: quote "a\"b".toList ++ ':' :: ' ' :: ['1'] ++ ['}'] := by decide
  have hline : "\"a\\\"b\": 1".toList = quote "a\"b".toList ++ ':' :: ' ' :: ['1'] := by decide
  have hwritten : "a\\\"b" = String.ofList (escape "a\"b".toList) := by decide
  have hread := read_quotedKey hkey flowText_one (by decide)
  rw [hbraces, hline, hwritten]
  refine ⟨parseInline_quotedKey hkey flowText_one 1, hread, fun hsame => ?_⟩
  exact absurd (key_eq_of_read hread hsame) (by decide)

end PixelScene.Node
