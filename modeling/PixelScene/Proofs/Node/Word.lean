import PixelScene.Node.Line
import PixelScene.Proofs.Text.Trim

/-!
# Bare words

A value that is no text, list or mapping is written as a bare word: `BareText`. Its characters are
plain (`BareText.plain`), so they are none of the signs that end a word, open a quote or a bracket,
or cut a key from its value.

* `Plain.spanBare`: a plain word before a separator is read as that word.
* `balance_append_of_inert`, `cutColon?_append_of_isPlain`: plain characters count neither for the
  lines that a value spans nor for where a key ends.
* `plain_of_scalar_number`: every word that is read as a number is plain.

Words stand for flags, null, numbers and plain texts, and which of these a word is comes out of
`scalar`. What it may consist of is more than letters: a call with parentheses and commas is one
word. The signs that it must not have depend on where it stands.
-/

namespace PixelScene.Node

open LogicalLine (balance)

/-! ## Plain characters -/

/-- Whether a character may stand in a key that is written without quotes. -/
def isKeyChar (c : Char) : Bool := c.isAlphanum || c == '_' || c == '.' || c == '$'

/-- Whether a character may stand in a key or in a number. -/
def isPlain (c : Char) : Bool := isKeyChar c || c == '+' || c == '-'

/-- A word of plain characters. -/
structure Plain (cs : List Char) : Prop where
  ne_nil : cs ≠ []
  plain : ∀ c ∈ cs, isPlain c = true

theorem ne_of_isPlain {c d : Char} (hc : isPlain c = true) (hd : isPlain d = false) : c ≠ d := by
  rintro rfl
  rw [hc] at hd
  cases hd

theorem isAlphanum_bounds {c : Char} (h : c.isAlphanum = true) :
    48 ≤ c.toNat ∧ c.toNat ≤ 122 := by
  have hcases : (c.isUpper || c.isLower || c.isDigit) = true := h
  rw [Bool.or_eq_true, Bool.or_eq_true] at hcases
  rcases hcases with (hupper | hlower) | hdigit
  · have hbounds : 65 ≤ c.toNat ∧ c.toNat ≤ 90 := of_decide_eq_true hupper
    omega
  · obtain ⟨hlow, hhigh⟩ := (Bool.and_eq_true ..).mp hlower
    have hbounds : 97 ≤ c.toNat ∧ c.toNat ≤ 122 := ⟨of_decide_eq_true hlow, of_decide_eq_true hhigh⟩
    omega
  · obtain ⟨hlow, hhigh⟩ := (Bool.and_eq_true ..).mp hdigit
    have hbounds : 48 ≤ c.toNat ∧ c.toNat ≤ 57 := ⟨of_decide_eq_true hlow, of_decide_eq_true hhigh⟩
    omega

/-- Plain characters are visible ASCII characters. -/
theorem isPlain_bounds {c : Char} (h : isPlain c = true) : 33 ≤ c.toNat ∧ c.toNat < 127 := by
  simp only [isPlain, isKeyChar, Bool.or_eq_true, beq_iff_eq] at h
  rcases h with ((((h | h) | h) | h) | h) | h
  · have hbounds := isAlphanum_bounds h
    omega
  all_goals subst h; decide

theorem isBlank_of_isPlain {c : Char} (h : isPlain c = true) : Text.isBlank c = false := by
  obtain ⟨hlow, hhigh⟩ := isPlain_bounds h
  simp [Text.isBlank]
  omega

theorem isPlain_of_isKeyChar {c : Char} (h : isKeyChar c = true) : isPlain c = true := by
  simp [isPlain, h]

theorem isPlain_of_isDigit {c : Char} (h : Number.isDigit c = true) : isPlain c = true := by
  have hdigit : c.isDigit = true := by
    simpa [Number.isDigit, Char.isDigit, Char.le_def] using h
  simp [isPlain, isKeyChar, Char.isAlphanum, hdigit]

theorem isPlain_of_toLower {c : Char} (h : c.toLower.isAlpha = true) : isPlain c = true := by
  have halpha : c.isAlpha = true := by
    by_cases hupper : c.isUpper = true
    · have hletter : (c.isUpper || c.isLower) = true := by rw [hupper, Bool.true_or]
      exact hletter
    · have hlower : c.toLower = c := dif_neg fun hbounds => hupper (decide_eq_true hbounds)
      rwa [hlower] at h
  simp [isPlain, isKeyChar, Char.isAlphanum, halpha]

/-! ## Plain words -/

namespace Plain

variable {w : List Char}

theorem startsSolid (h : Plain w) : Text.StartsSolid w := by
  obtain ⟨c, more, rfl⟩ := List.exists_cons_of_ne_nil h.ne_nil
  exact ⟨c, more, rfl, isBlank_of_isPlain (h.plain c List.mem_cons_self)⟩

theorem endsSolid (h : Plain w) : Text.EndsSolid w := by
  have hlast := List.dropLast_concat_getLast h.ne_nil
  exact ⟨w.dropLast, w.getLast h.ne_nil, hlast.symm,
    isBlank_of_isPlain (h.plain _ (List.getLast_mem h.ne_nil))⟩

theorem not_mem {c : Char} (h : Plain w) (hc : isPlain c = false) : c ∉ w :=
  fun hmem => ne_of_isPlain (h.plain c hmem) hc rfl

/-- The head of what starts with a plain word. -/
theorem exists_cons (h : Plain w) : ∃ c more, w = c :: more ∧ isPlain c = true := by
  obtain ⟨c, more, rfl⟩ := List.exists_cons_of_ne_nil h.ne_nil
  exact ⟨c, more, rfl, h.plain c List.mem_cons_self⟩

end Plain

/-- A character that neither opens a quote nor opens or closes a bracket. -/
def Inert (c : Char) : Prop := isQuote c = false ∧ LogicalLine.bracketStep c = 0

instance (c : Char) : Decidable (Inert c) := inferInstanceAs (Decidable (_ ∧ _))

theorem inert_of_ne {c : Char}
    (h : ∀ d ∈ ['"', '\'', '{', '[', '}', ']'], c ≠ d) : Inert c := by
  simp only [List.forall_mem_cons] at h
  obtain ⟨hdouble, hsingle, hbrace, hbracket, hbrace', hbracket', -⟩ := h
  exact ⟨by simp [isQuote, hdouble, hsingle],
    by simp [LogicalLine.bracketStep, hbrace, hbracket, hbrace', hbracket']⟩

theorem inert_of_isPlain {c : Char} (h : isPlain c = true) : Inert c := by
  have hall : (['"', '\'', '{', '[', '}', ']'].all fun d => !isPlain d) = true := rfl
  refine inert_of_ne fun d hd => ne_of_isPlain h ?_
  simpa using List.all_eq_true.mp hall d hd

theorem inert_of_isBlank {c : Char} (h : Text.isBlank c = true) : Inert c := by
  have hall : (['"', '\'', '{', '[', '}', ']'].all fun d => !Text.isBlank d) = true := rfl
  refine inert_of_ne fun d hd => ?_
  rintro rfl
  have hsolid := List.all_eq_true.mp hall c hd
  rw [h] at hsolid
  cases hsolid

theorem balance_cons_of_inert {c : Char} (h : Inert c) (cs : List Char) :
    balance none (c :: cs) = balance none cs := by
  obtain ⟨hquote, hstep⟩ := h
  have hopen : LogicalLine.openQuote c = none := by
    rw [LogicalLine.openQuote, hquote]
    rfl
  rw [balance, hopen, hstep, Int.zero_add]

theorem balance_append_of_inert {cs : List Char} (h : ∀ c ∈ cs, Inert c) (rest : List Char) :
    balance none (cs ++ rest) = balance none rest := by
  induction cs with
  | nil => rfl
  | cons c cs ih =>
    obtain ⟨hc, hcs⟩ := List.forall_mem_cons.mp h
    rw [List.cons_append, balance_cons_of_inert hc, ih hcs]

theorem cutColon?_append_of_isPlain {w : List Char} (h : ∀ c ∈ w, isPlain c = true)
    (depth : Int) (rest : List Char) : cutColon? none depth (w ++ rest) =
      (cutColon? none depth rest).map fun r => (w ++ r.1, r.2) := by
  induction w with
  | nil => simp
  | cons c w ih =>
    obtain ⟨hc, hw⟩ := List.forall_mem_cons.mp h
    have hne : ∀ d, isPlain d = false → c ≠ d := fun d => ne_of_isPlain hc
    have hopen : LogicalLine.openQuote c = none := by
      simp [LogicalLine.openQuote, isQuote, hne '"' rfl, hne '\'' rfl]
    have hstep : nestingStep c = 0 := by
      simp [nestingStep, hne '{' rfl, hne '[' rfl, hne '(' rfl, hne '}' rfl, hne ']' rfl,
        hne ')' rfl]
    have hcolon : ¬ (c = ':' ∧ depth = 0 ∧ endsWord (w ++ rest) = true) :=
      fun hand => hne ':' rfl hand.1
    rw [List.cons_append, cutColon?, if_neg hcolon, hopen, hstep, Int.add_zero, ih hw,
      Option.map_map]
    rfl

/-! ## Where a bare word ends -/

/-- Signs that may end a bare word: they stand neither in a word nor among the blanks after it. -/
def Separators (separators : List Char) : Prop :=
  ∀ d ∈ separators, isPlain d = false ∧ Text.isBlank d = false ∧ d ≠ '(' ∧ d ≠ ')'

instance (separators : List Char) : Decidable (Separators separators) :=
  List.decidableBAll (fun d => isPlain d = false ∧ Text.isBlank d = false ∧ d ≠ '(' ∧ d ≠ ')')
    separators

theorem separators_key : Separators [':', ',', '}'] := by decide

theorem separators_entry : Separators [',', '}'] := by decide

theorem separators_item : Separators [',', ']'] := by decide

theorem spanBare_append {separators cs : List Char}
    (h : ∀ c ∈ cs, c ∉ separators ∧ c ≠ '(' ∧ c ≠ ')') (rest : List Char) :
    spanBare separators 0 (cs ++ rest) =
      (cs ++ (spanBare separators 0 rest).1, (spanBare separators 0 rest).2) := by
  induction cs with
  | nil => rfl
  | cons c cs ih =>
    obtain ⟨⟨hsep, hopen, hclose⟩, hcs⟩ := List.forall_mem_cons.mp h
    have hstop : ¬ (c ≠ '(' ∧ c ≠ ')' ∧ (0 : Int) ≤ 0 ∧ c ∈ separators) :=
      fun hand => hsep hand.2.2.2
    simp only [List.cons_append, spanBare, if_neg hstop, if_neg hopen, if_neg hclose, ih hcs]

/-- A plain word and the blanks after it are what stands before the separator that ends it. -/
theorem Plain.spanBare {separators w b rest : List Char} {d : Char} (hw : Plain w)
    (hb : Text.Blanks b) (hseps : Separators separators) (hd : d ∈ separators) :
    spanBare separators 0 (w ++ b ++ d :: rest) = (w ++ b, d :: rest) := by
  obtain ⟨-, -, hopen, hclose⟩ := hseps d hd
  have hstop : Node.spanBare separators 0 (d :: rest) = ([], d :: rest) := by
    rw [Node.spanBare, if_pos ⟨hopen, hclose, Int.le_refl 0, hd⟩]
  have hinside : ∀ c ∈ w ++ b, c ∉ separators ∧ c ≠ '(' ∧ c ≠ ')' := by
    intro c hc
    rcases List.mem_append.mp hc with hc | hc
    · have hplain := hw.plain c hc
      refine ⟨fun hsep => ?_, ne_of_isPlain hplain rfl, ne_of_isPlain hplain rfl⟩
      exact ne_of_isPlain hplain (hseps c hsep).1 rfl
    · have hblank := hb c hc
      refine ⟨fun hsep => ?_, ?_, ?_⟩
      · rw [(hseps c hsep).2.1] at hblank
        cases hblank
      · rintro rfl
        exact absurd hblank (by decide)
      · rintro rfl
        exact absurd hblank (by decide)
  rw [spanBare_append hinside, hstop, List.append_nil]

/-! ## The words for values -/

/-- The bare word for a node that is no text, list or mapping. -/
inductive BareText : Node → List Char → Prop where
  | null : BareText .null "null".toList
  | bool (b : Bool) : BareText (.bool b) (if b then "true" else "false").toList
  | number {x : Float} {w : List Char} (reads : scalar w = .number x) : BareText (.number x) w

theorem BareText.scalar_eq {n : Node} {w : List Char} (h : BareText n w) : scalar w = n := by
  cases h with
  | null => rfl
  | bool b => cases b <;> rfl
  | number reads => exact reads

theorem isPlain_of_spanSign {cs : List Char}
    (h : ∀ c ∈ (Number.spanSign cs).2, isPlain c = true) : ∀ c ∈ cs, isPlain c = true := by
  unfold Number.spanSign at h
  split at h
  · exact List.forall_mem_cons.mpr ⟨rfl, h⟩
  · exact List.forall_mem_cons.mpr ⟨rfl, h⟩
  · exact h

theorem isPlain_of_spanDigits {cs : List Char}
    (h : ∀ c ∈ (Number.spanDigits cs).2, isPlain c = true) : ∀ c ∈ cs, isPlain c = true := by
  have hdigits : ∀ c ∈ cs.takeWhile Number.isDigit, isPlain c = true :=
    fun c hc => isPlain_of_isDigit (List.mem_takeWhile_imp hc)
  rw [← List.takeWhile_append_dropWhile (p := Number.isDigit) (l := cs)]
  exact List.forall_mem_append.mpr ⟨hdigits, h⟩

theorem isPlain_of_spanPlain? {cs whole part rest : List Char}
    (h : Number.spanPlain? cs = some (whole, part, rest)) (hrest : ∀ c ∈ rest, isPlain c = true) :
    ∀ c ∈ cs, isPlain c = true := by
  refine isPlain_of_spanDigits ?_
  simp only [Number.spanPlain?] at h
  split at h
  · rename_i more hpoint
    rw [hpoint]
    refine List.forall_mem_cons.mpr ⟨rfl, isPlain_of_spanDigits ?_⟩
    split at h
    · cases h
    · simp only [Option.some.injEq, Prod.mk.injEq] at h
      rwa [h.2.2]
  · split at h
    · cases h
    · simp only [Option.some.injEq, Prod.mk.injEq] at h
      rwa [h.2.2]

theorem isPlain_of_exponent? {cs : List Char} {e : Int} (h : Number.exponent? cs = some e) :
    ∀ c ∈ cs, isPlain c = true := by
  match cs with
  | [] => exact List.forall_mem_nil _
  | c :: cs =>
    simp only [Number.exponent?] at h
    split at h
    · rename_i hc
      split at h
      · cases h
      · rename_i hdigits
        simp only [Bool.or_eq_true, not_or, Bool.not_eq_true] at hdigits
        have hall := List.all_eq_true.mp (by simpa using hdigits.2)
        refine List.forall_mem_cons.mpr ⟨?_, isPlain_of_spanSign fun d hd => ?_⟩
        · rcases hc with rfl | rfl <;> rfl
        · exact isPlain_of_isDigit (hall d hd)
    · cases h

theorem isPlain_of_unsigned? {negative : Bool} {cs : List Char} {d : Number.Decimal}
    (h : Number.unsigned? negative cs = some d) : ∀ c ∈ cs, isPlain c = true := by
  obtain ⟨⟨whole, part, rest⟩, hspan, h⟩ := Option.bind_eq_some_iff.mp h
  obtain ⟨e, he, -⟩ := Option.bind_eq_some_iff.mp h
  exact isPlain_of_spanPlain? hspan (isPlain_of_exponent? he)

theorem isPlain_of_isWord {words : List String} {cs : List Char}
    (hwords : (words.all fun word => word.toList.all Char.isAlpha) = true)
    (h : Number.isWord words cs = true) : ∀ c ∈ cs, isPlain c = true := by
  intro c hc
  have hletters := List.all_eq_true.mp hwords _ (List.contains_iff_mem.mp h)
  rw [String.toList_ofList] at hletters
  exact isPlain_of_toLower (List.all_eq_true.mp hletters _ (List.mem_map_of_mem hc))

theorem isPlain_of_number? {cs : List Char} {x : Float} (h : Number.number? cs = some x) :
    ∀ c ∈ cs, isPlain c = true := by
  refine isPlain_of_spanSign ?_
  simp only [Number.number?] at h
  split at h
  · rename_i hword
    exact isPlain_of_isWord (by decide) hword
  · split at h
    · rename_i hword
      exact isPlain_of_isWord (by decide) hword
    · obtain ⟨d, hd, -⟩ := Option.map_eq_some_iff.mp h
      exact isPlain_of_unsigned? hd

/-- A word that is read as a number is plain. -/
theorem plain_of_scalar_number {w : List Char} {x : Float} (h : scalar w = .number x) :
    Plain w := by
  have hne : w ≠ [] := by
    rintro rfl
    cases h
  have hnumber : ∃ y, Number.number? w = some y := by
    unfold scalar at h
    split at h
    · cases h
    · split at h
      · cases h
      · split at h
        · cases h
        · unfold numberOrText at h
          split at h
          · exact ⟨_, ‹_›⟩
          · cases h
  obtain ⟨y, hy⟩ := hnumber
  exact ⟨hne, isPlain_of_number? hy⟩

theorem BareText.plain {n : Node} {w : List Char} (h : BareText n w) : Plain w := by
  cases h with
  | null => exact ⟨by decide, List.all_eq_true.mp (by decide)⟩
  | bool b => cases b <;> exact ⟨by decide, List.all_eq_true.mp (by decide)⟩
  | number reads => exact plain_of_scalar_number reads

end PixelScene.Node
