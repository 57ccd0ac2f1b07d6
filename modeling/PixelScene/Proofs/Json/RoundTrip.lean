import PixelScene.Proofs.Json.Numeral

/-!
# Reading what was written

The text of a JSON value is read again, whatever its texts and numbers are and however it is laid
out. What comes back is the value itself, except for its numbers: a number that is not finite comes
back as null, a single comes back as a double, and an integer of more than 64 bits does too.

* `string?_quote`: texts come back as they are, whatever characters they have.
* `reread`: what becomes of a value. Finite doubles and integers of 64 bits stay what they are.
* `parse?_prettyText`: a value whose lists and objects are not nested too deeply is read as what
  `reread` says.

Layout is left open: the induction is over the value, and between any two of its parts there may be
blanks. Both printers are instances. Nesting is the only thing that can make a written value
unreadable, since the library reads no deeper than a fixed number of lists and objects.
-/

namespace PixelScene.Json

open Number (isDigit natDigits)

/-! ## Texts -/

section Texts

variable {rest : List Char}

theorem hexValue?_hexDigit {n : Nat} (h : n < 16) : hexValue? (hexDigit n) = some n := by
  revert n
  decide

theorem hexDigit_mod (n : Nat) : hexDigit n = hexDigit (n % 16) := by
  rw [hexDigit, hexDigit, Nat.mod_mod]

/-- The digits of a control character are read as that character. -/
theorem escapedUnit?_hexDigits {c : Char} (h : c.toNat < 0x20) :
    escapedUnit? ('0' :: '0' :: hexDigit (c.toNat / 16) :: hexDigit c.toNat :: rest) =
      some (c, rest) := by
  have hzero : hexValue? '0' = some 0 := rfl
  have hunit : unit? ('0' :: '0' :: hexDigit (c.toNat / 16) :: hexDigit c.toNat :: rest) =
      some (c.toNat, rest) := by
    rw [hexDigit_mod c.toNat, unit?, hzero, hexValue?_hexDigit (by omega : c.toNat / 16 < 16),
      hexValue?_hexDigit (Nat.mod_lt c.toNat (by decide))]
    simp only [Option.bind_eq_bind, Option.bind_some, Option.pure_def, Option.some.injEq,
      Prod.mk.injEq, and_true]
    omega
  have hlow : isLowUnit c.toNat = false := by
    simp only [isLowUnit, Bool.and_eq_false_iff, decide_eq_false_iff_not]
    omega
  have hhigh : isHighUnit c.toNat = false := by
    simp only [isHighUnit, Bool.and_eq_false_iff, decide_eq_false_iff_not]
    omega
  rw [escapedUnit?, hunit]
  simp only [Option.bind_eq_bind, Option.bind_some, hlow, hhigh, Bool.false_eq_true, if_false,
    Char.ofNat_toNat, Option.pure_def]

/-- A character is written as it is, or as a backslash and something that stands for it. -/
theorem escape_eq (c : Char) :
    (∃ body, escape c = '\\' :: body ∧ ∀ rest, escaped? (body ++ rest) = some (c, rest)) ∨
      (escape c = [c] ∧ c ≠ '"' ∧ c ≠ '\\' ∧ ¬ c.toNat < 0x20) := by
  unfold escape
  split_ifs with hquote hslash hfeed hreturn htab hback hform hcontrol
  · exact .inl ⟨_, rfl, fun rest => by rw [hquote]; rfl⟩
  · exact .inl ⟨_, rfl, fun rest => by rw [hslash]; rfl⟩
  · exact .inl ⟨_, rfl, fun rest => by rw [hfeed]; rfl⟩
  · exact .inl ⟨_, rfl, fun rest => by rw [hreturn]; rfl⟩
  · exact .inl ⟨_, rfl, fun rest => by rw [htab]; rfl⟩
  · exact .inl ⟨_, rfl, fun rest => by rw [← Char.ofNat_toNat c, hback]; rfl⟩
  · exact .inl ⟨_, rfl, fun rest => by rw [← Char.ofNat_toNat c, hform]; rfl⟩
  · exact .inl ⟨_, rfl, fun rest => escapedUnit?_hexDigits hcontrol⟩
  · exact .inr ⟨rfl, hquote, hslash, hcontrol⟩

theorem stringBody_escape (fuel : Nat) (seen : List Char) (c : Char) :
    stringBody (fuel + 1) seen (escape c ++ rest) = stringBody fuel (c :: seen) rest := by
  obtain ⟨body, heq, hread⟩ | ⟨heq, hquote, hslash, hcontrol⟩ := escape_eq c
  · rw [heq, List.cons_append, stringBody, hread]
    rfl
  · rw [heq, List.cons_append, List.nil_append, stringBody, if_neg hcontrol]
    · exact hquote
    · exact hslash

/-- The body of a text is read up to the closing quote. -/
theorem stringBody_flatMap (cs : List Char) {fuel : Nat} (hfuel : cs.length < fuel)
    (seen : List Char) :
    stringBody fuel seen (cs.flatMap escape ++ '"' :: rest) = some (seen.reverse ++ cs, rest) := by
  induction cs generalizing fuel seen with
  | nil =>
    obtain ⟨fuel, rfl⟩ := Nat.exists_eq_add_of_lt hfuel
    rw [List.append_nil]
    rfl
  | cons c cs ih =>
    rw [List.length_cons] at hfuel
    obtain ⟨fuel, rfl⟩ : ∃ n, fuel = n + 1 := ⟨fuel - 1, by omega⟩
    rw [List.flatMap_cons, List.append_assoc, stringBody_escape, ih (by omega),
      List.reverse_cons, List.append_assoc]
    rfl

theorem length_le_flatMap_escape (cs : List Char) : cs.length ≤ (cs.flatMap escape).length := by
  induction cs with
  | nil => exact Nat.le_refl 0
  | cons c cs ih =>
    have hpos : 1 ≤ (escape c).length := by
      obtain ⟨body, heq, -⟩ | ⟨heq, -⟩ := escape_eq c
      · rw [heq, List.length_cons]
        omega
      · rw [heq]
        exact Nat.le_refl 1
    rw [List.flatMap_cons, List.length_append, List.length_cons]
    omega

/-- Every text comes back from its quotes as it was. -/
theorem string?_quote (s : String) :
    string? (s.toList.flatMap escape ++ '"' :: rest) = some (s, rest) := by
  have hlength := length_le_flatMap_escape s.toList
  rw [string?, stringBody_flatMap s.toList]
  · exact congrArg (fun t => some (t, rest)) String.ofList_toList
  · rw [List.length_append, List.length_cons]
    omega

end Texts

/-! ## What becomes of a value -/

mutual

/-- The value that is read of the text of a value. -/
def reread : Json → Json
  | integer n => wholeNumber (n < 0) n.natAbs
  | real x =>
    match Number.exact x with
    | .finite .. => real x
    | _ => null
  | single x =>
    match Number.exactSingle x with
    | .finite negative m e =>
      real (Number.shortestDecimal .even Number.single negative m e).toFloat
    | _ => null
  | list items => list (rereadItems items)
  | object fields => object (rereadFields fields)
  | v => v

/-- The items that are read of a list. -/
def rereadItems : List Json → List Json
  | [] => []
  | v :: vs => reread v :: rereadItems vs

/-- The fields that are read of an object. -/
def rereadFields : List (String × Json) → List (String × Json)
  | [] => []
  | (k, v) :: fs => (k, reread v) :: rereadFields fs

end

theorem rereadItems_eq (vs : List Json) : rereadItems vs = vs.map reread := by
  induction vs with
  | nil => rfl
  | cons v vs ih => rw [rereadItems, ih, List.map_cons]

theorem rereadFields_eq (fs : List (String × Json)) :
    rereadFields fs = fs.map fun f => (f.1, reread f.2) := by
  induction fs with
  | nil => rfl
  | cons f fs ih => rw [rereadFields, ih, List.map_cons]

theorem reread_list (vs : List Json) : reread (list vs) = list (vs.map reread) := by
  rw [reread, rereadItems_eq]

theorem reread_object (fs : List (String × Json)) :
    reread (object fs) = object (fs.map fun f => (f.1, reread f.2)) := by
  rw [reread, rereadFields_eq]

theorem reread_integer {n : Int} (hlow : -Number.twoTo 63 ≤ n) (hhigh : n < Number.twoTo 64) :
    reread (integer n) = integer n := by
  unfold reread wholeNumber
  split
  next h =>
    have hneg : n < 0 := of_decide_eq_true h
    rw [if_neg (by omega)]
    congr
    omega
  next h =>
    have hnonneg : ¬ n < 0 := fun hneg => h (decide_eq_true hneg)
    rw [if_pos (by omega)]
    congr
    omega

theorem reread_real {x : Float} (h : (Number.exact x).isFinite = true) :
    reread (real x) = real x := by
  unfold reread
  split
  next => rfl
  next hnot =>
    cases hx : Number.exact x with
    | finite negative m e => exact absurd hx (hnot negative m e)
    | notNumber => rw [hx] at h; cases h
    | infinite negative => rw [hx] at h; cases h

mutual

/-- How deep lists and objects are nested in a value. -/
def nesting : Json → Nat
  | list items => nestingItems items + 1
  | object fields => nestingFields fields + 1
  | _ => 0

/-- The deepest nesting among items. -/
def nestingItems : List Json → Nat
  | [] => 0
  | v :: vs => max (nesting v) (nestingItems vs)

/-- The deepest nesting among fields. -/
def nestingFields : List (String × Json) → Nat
  | [] => 0
  | (_, v) :: fs => max (nesting v) (nestingFields fs)

end

theorem nestingItems_le_iff {vs : List Json} {d : Nat} :
    nestingItems vs ≤ d ↔ ∀ v ∈ vs, nesting v ≤ d := by
  induction vs with
  | nil => exact ⟨nofun, fun _ => Nat.zero_le d⟩
  | cons v vs ih => rw [nestingItems, Nat.max_le, ih, List.forall_mem_cons]

theorem nestingFields_le_iff {fs : List (String × Json)} {d : Nat} :
    nestingFields fs ≤ d ↔ ∀ f ∈ fs, nesting f.2 ≤ d := by
  induction fs with
  | nil => exact ⟨nofun, fun _ => Nat.zero_le d⟩
  | cons f fs ih => rw [nestingFields, Nat.max_le, ih, List.forall_mem_cons]

theorem nesting_list_le_iff {vs : List Json} {d : Nat} :
    nesting (list vs) ≤ d + 1 ↔ ∀ v ∈ vs, nesting v ≤ d := by
  rw [nesting, Nat.add_le_add_iff_right, nestingItems_le_iff]

theorem nesting_object_le_iff {fs : List (String × Json)} {d : Nat} :
    nesting (object fs) ≤ d + 1 ↔ ∀ f ∈ fs, nesting f.2 ≤ d := by
  rw [nesting, Nat.add_le_add_iff_right, nestingFields_le_iff]

/-! ## Numbers -/

section Numbers

variable {rest : List Char}

/-- The number of a numeral with a sign. -/
def signedText (negative : Bool) (u : Numeral) : List Char :=
  if negative then '-' :: u.text else u.text

/-- How a number is written: as null, when it is not finite, or as a numeral with the value that is
read. -/
def WrittenNumber (v : Json) : Prop :=
  leaf v = "null".toList ∧ reread v = null ∨
    ∃ (negative : Bool) (u : Numeral), leaf v = signedText negative u ∧ reread v = u.value negative

theorem writtenNumber_integer (n : Int) : WrittenNumber (integer n) := by
  have hwhole : Whole (natDigits n.natAbs) := by
    obtain hzero | hpos := Nat.eq_zero_or_pos n.natAbs
    · rw [hzero]
      exact ⟨Number.isDigit_of_mem_natDigits, .inl rfl⟩
    · rw [← List.append_nil (natDigits n.natAbs)]
      exact whole_natDigits_append hpos nofun
  refine .inr ⟨decide (n < 0), ⟨natDigits n.natAbs, none, none, hwhole, nofun, nofun⟩, ?_, ?_⟩
  · have htext : Numeral.text ⟨natDigits n.natAbs, none, none, hwhole, nofun, nofun⟩ =
        natDigits n.natAbs := List.append_nil _
    simp only [leaf, integerText, signedText, htext, decide_eq_true_iff]
  · rw [Numeral.value, if_neg (by exact Bool.false_ne_true), Number.digitsValue_natDigits, reread]

theorem Numeral.value_of_isReal {u : Numeral} (h : u.isReal = true) (negative : Bool) :
    u.value negative = real (u.decimal negative).toFloat := if_pos h

theorem writtenNumber_real (x : Float) : WrittenNumber (real x) := by
  cases hx : Number.exact x with
  | notNumber =>
    left
    rw [leaf, hx, reread, hx]
    exact ⟨rfl, rfl⟩
  | infinite negative =>
    left
    rw [leaf, hx, reread, hx]
    exact ⟨rfl, rfl⟩
  | finite negative m e =>
    obtain ⟨hhas, -⟩ :=
      Number.BinaryFormat.decode_eq_finite (f := Number.double) x.toBits.toNat_lt hx
    obtain ⟨u, htext, hreal, hvalue⟩ :=
      exists_numeral doubleStyle rfl Number.double_narrow negative hhas
    refine .inr ⟨negative, u, ?_, ?_⟩
    · rw [leaf, hx]
      exact htext
    · rw [u.value_of_isReal hreal, Number.toFloat_of_value .even negative hx rfl hvalue, reread, hx]

theorem writtenNumber_single (x : Float32) : WrittenNumber (single x) := by
  cases hx : Number.exactSingle x with
  | notNumber =>
    left
    rw [leaf, hx, reread, hx]
    exact ⟨rfl, rfl⟩
  | infinite negative =>
    left
    rw [leaf, hx, reread, hx]
    exact ⟨rfl, rfl⟩
  | finite negative m e =>
    obtain ⟨hhas, -⟩ :=
      Number.BinaryFormat.decode_eq_finite (f := Number.single) x.toBits.toNat_lt hx
    obtain ⟨u, htext, hreal, hvalue⟩ :=
      exists_numeral singleStyle rfl Number.single_narrow negative hhas
    have hbits := Number.Decimal.bits_congr Number.double
      (Number.negative_shortestDecimal singleStyle.tie negative).symm hvalue
    refine .inr ⟨negative, u, ?_, ?_⟩
    · rw [leaf, hx]
      exact htext
    · rw [u.value_of_isReal hreal, Number.Decimal.toFloat, hbits, reread, hx]
      rfl

theorem ne_of_isDigit {c d : Char} (h : isDigit c = true) (hd : isDigit d = false) : c ≠ d := by
  rintro rfl
  rw [h] at hd
  cases hd

theorem value_of_isDigit {c : Char} (depth : Nat) (h : isDigit c = true) (cs : List Char) :
    value (depth + 1) (c :: cs) = number? false (c :: cs) := by
  rw [value, if_pos h]
  · exact ne_of_isDigit h rfl
  · exact ne_of_isDigit h rfl
  · exact ne_of_isDigit h rfl
  · exact ne_of_isDigit h rfl

theorem Numeral.exists_text_eq_cons (u : Numeral) :
    ∃ c more, u.text = c :: more ∧ isDigit c = true := by
  obtain ⟨c, more, heq⟩ : ∃ c more, u.whole = c :: more := by
    obtain h | ⟨c, more, h, -⟩ := u.isWhole.2
    · exact ⟨_, _, h⟩
    · exact ⟨c, more, h⟩
  refine ⟨c, more ++ (partText u.part ++ powerText u.power), ?_, ?_⟩
  · rw [text, heq, List.cons_append]
  · exact u.isWhole.1 c (heq ▸ List.mem_cons_self)

theorem value_signedText (u : Numeral) (negative : Bool) (depth : Nat) (hrest : EndsNumber rest) :
    value (depth + 1) (signedText negative u ++ rest) = some (u.value negative, rest) := by
  cases negative with
  | true => exact u.number?_text true hrest
  | false =>
    obtain ⟨c, more, htext, hc⟩ := u.exists_text_eq_cons
    have hread := u.number?_text false hrest
    rw [signedText, if_neg Bool.false_ne_true, htext, List.cons_append, value_of_isDigit depth hc]
    rw [htext, List.cons_append] at hread
    exact hread

theorem WrittenNumber.value_leaf {v : Json} (h : WrittenNumber v) (depth : Nat)
    (hrest : EndsNumber rest) : value (depth + 1) (leaf v ++ rest) = some (reread v, rest) := by
  obtain ⟨hleaf, hread⟩ | ⟨negative, u, hleaf, hread⟩ := h
  · rw [hleaf, hread]
    rfl
  · rw [hleaf, hread]
    exact value_signedText u negative depth hrest

end Numbers

/-! ## Values -/

/-- Whether a text starts with neither a blank nor the end of a list. -/
def StartsValue (cs : List Char) : Prop := ∃ c more, cs = c :: more ∧ isSpace c = false ∧ c ≠ ']'

theorem startsValue_of_isDigit {c : Char} (h : isDigit c = true) (cs : List Char) :
    StartsValue (c :: cs) := by
  refine ⟨c, cs, rfl, ?_, ne_of_isDigit h rfl⟩
  simp only [isSpace, Bool.or_eq_false_iff, beq_eq_false_iff_ne]
  exact ⟨⟨⟨ne_of_isDigit h rfl, ne_of_isDigit h rfl⟩, ne_of_isDigit h rfl⟩, ne_of_isDigit h rfl⟩

theorem WrittenNumber.startsValue {v : Json} (h : WrittenNumber v) : StartsValue (leaf v) := by
  obtain ⟨hleaf, -⟩ | ⟨negative, u, hleaf, -⟩ := h
  · rw [hleaf]
    exact ⟨_, _, rfl, rfl, by decide⟩
  · rw [hleaf]
    cases negative with
    | true => exact ⟨_, _, rfl, rfl, by decide⟩
    | false =>
      obtain ⟨c, more, htext, hc⟩ := u.exists_text_eq_cons
      rw [signedText, if_neg Bool.false_ne_true, htext]
      exact startsValue_of_isDigit hc more

theorem startsValue_pretty (level : Nat) (v : Json) : StartsValue (pretty level v) := by
  cases v with
  | null => exact ⟨_, _, rfl, rfl, by decide⟩
  | bool b => cases b <;> exact ⟨_, _, rfl, rfl, by decide⟩
  | integer n => exact (writtenNumber_integer n).startsValue
  | real x => exact (writtenNumber_real x).startsValue
  | single x => exact (writtenNumber_single x).startsValue
  | text s => exact ⟨_, _, rfl, rfl, by decide⟩
  | list items => cases items <;> exact ⟨_, _, rfl, rfl, by decide⟩
  | object fields => cases fields <;> exact ⟨_, _, rfl, rfl, by decide⟩

theorem skipSpace_of_startsValue {cs : List Char} (h : StartsValue cs) (rest : List Char) :
    skipSpace (cs ++ rest) = cs ++ rest := by
  obtain ⟨c, more, rfl, hc, -⟩ := h
  exact List.dropWhile_cons_of_neg (by rw [hc]; exact Bool.false_ne_true)

theorem skipSpace_newLine (level : Nat) (cs : List Char) :
    skipSpace (newLine level ++ cs) = skipSpace cs := by
  refine List.dropWhile_append_of_pos fun c hc => ?_
  obtain rfl | hc := List.mem_cons.mp hc
  · rfl
  · rw [List.eq_of_mem_replicate hc]
    rfl

theorem endsNumber_newLine (level : Nat) (cs : List Char) : EndsNumber (newLine level ++ cs) := by
  rintro c ⟨⟩
  decide

theorem endsNumber_comma (cs : List Char) : EndsNumber (',' :: cs) := by
  rintro c ⟨⟩
  decide

/-! ## Lists and objects -/

section Layouts

variable {read : List Char → Option (Json × List Char)} {rest : List Char} {level : Nat}

/-- Whether a reader reads a value in its layout, up to where it ends. -/
def ReadsPretty (read : List Char → Option (Json × List Char)) (level : Nat) (v : Json) : Prop :=
  ∀ rest, EndsNumber rest → read (pretty level v ++ rest) = some (reread v, rest)

/-- A reader reads an item on a line of its own. -/
theorem ReadsPretty.newLine {v : Json} (h : ReadsPretty read level v) {rest : List Char}
    (hrest : EndsNumber rest) :
    read (skipSpace (newLine level ++ (pretty level v ++ rest))) = some (reread v, rest) := by
  rw [skipSpace_newLine, skipSpace_of_startsValue (startsValue_pretty level v), h rest hrest]

theorem items_prettyItems {vs : List Json} (hvs : vs ≠ []) (h : ∀ v ∈ vs, ReadsPretty read level v)
    (outer : Nat) {fuel : Nat} (hfuel : vs.length ≤ fuel) (seen : List Json) :
    items read fuel seen (prettyItems level vs ++ (newLine outer ++ ']' :: rest)) =
      some (seen.reverse ++ rereadItems vs, rest) := by
  induction vs generalizing fuel seen with
  | nil => exact absurd rfl hvs
  | cons v vs ih =>
    obtain ⟨hv, hmore⟩ := List.forall_mem_cons.mp h
    rw [List.length_cons] at hfuel
    obtain ⟨fuel, rfl⟩ : ∃ n, fuel = n + 1 := ⟨fuel - 1, by omega⟩
    cases vs with
    | nil =>
      have hclose : skipSpace (newLine outer ++ ']' :: rest) = ']' :: rest := skipSpace_newLine _ _
      rw [prettyItems, List.append_assoc, items, hv.newLine (endsNumber_newLine _ _)]
      simp only [Option.bind_eq_bind, Option.bind_some, hclose, Option.pure_def, List.reverse_cons]
      rfl
    | cons w ws =>
      rw [prettyItems, List.append_assoc, List.append_assoc, List.cons_append, items,
        hv.newLine (endsNumber_comma _)]
      · show items read fuel (reread v :: seen) _ = _
        rw [ih (List.cons_ne_nil w ws) hmore (by omega), List.reverse_cons, List.append_assoc]
        rfl
      · exact List.cons_ne_nil w ws

/-- A field on a line of its own is read, and what follows it decides how to go on. -/
theorem members_field {k : String} {v : Json} (h : ReadsPretty read level v) {rest : List Char}
    (hrest : EndsNumber rest) (fuel : Nat) (seen : List (String × Json)) :
    members read (fuel + 1) seen
        (newLine level ++ quote k ++ ':' :: ' ' :: (pretty level v ++ rest)) =
      match skipSpace rest with
      | ',' :: more => members read fuel ((k, reread v) :: seen) more
      | '}' :: more => some (((k, reread v) :: seen).reverse, more)
      | _ => none := by
  have hname : skipSpace (newLine level ++ quote k ++ ':' :: ' ' :: (pretty level v ++ rest)) =
      '"' :: (k.toList.flatMap escape ++ '"' :: ':' :: ' ' :: (pretty level v ++ rest)) := by
    rw [List.append_assoc, skipSpace_newLine, quote, List.cons_append, List.append_assoc]
    rfl
  have hvalue : read (skipSpace (' ' :: (pretty level v ++ rest))) = some (reread v, rest) := by
    show read (skipSpace (pretty level v ++ rest)) = _
    rw [skipSpace_of_startsValue (startsValue_pretty level v), h rest hrest]
  rw [members, hname]
  simp only [string?_quote, Option.bind_eq_bind, Option.bind_some]
  show (read (skipSpace (' ' :: (pretty level v ++ rest))) >>= _) = _
  rw [hvalue]
  rfl

theorem members_prettyFields {fs : List (String × Json)} (hfs : fs ≠ [])
    (h : ∀ f ∈ fs, ReadsPretty read level f.2) (outer : Nat) {fuel : Nat}
    (hfuel : fs.length ≤ fuel) (seen : List (String × Json)) :
    members read fuel seen (prettyFields level fs ++ (newLine outer ++ '}' :: rest)) =
      some (seen.reverse ++ rereadFields fs, rest) := by
  induction fs generalizing fuel seen with
  | nil => exact absurd rfl hfs
  | cons f fs ih =>
    obtain ⟨k, v⟩ := f
    obtain ⟨hv, hmore⟩ := List.forall_mem_cons.mp h
    rw [List.length_cons] at hfuel
    obtain ⟨fuel, rfl⟩ : ∃ n, fuel = n + 1 := ⟨fuel - 1, by omega⟩
    cases fs with
    | nil =>
      have hclose : skipSpace (newLine outer ++ '}' :: rest) = '}' :: rest := skipSpace_newLine _ _
      rw [prettyFields, List.append_assoc, List.cons_append, List.cons_append,
        members_field hv (endsNumber_newLine _ _), hclose]
      exact congrArg (fun l => some (l, rest)) List.reverse_cons
    | cons g gs =>
      rw [prettyFields, List.append_assoc, List.cons_append, List.cons_append,
        List.append_assoc (pretty level v), List.cons_append, members_field hv (endsNumber_comma _)]
      · show members read fuel ((k, reread v) :: seen) _ = _
        rw [ih (List.cons_ne_nil g gs) hmore (by omega), List.reverse_cons, List.append_assoc]
        rfl
      · exact List.cons_ne_nil g gs

end Layouts

theorem length_le_prettyItems (level : Nat) (vs : List Json) :
    vs.length ≤ (prettyItems level vs).length := by
  have hpos : ∀ v, 0 < (newLine level ++ pretty level v).length := fun v =>
    List.length_pos_of_ne_nil (List.cons_ne_nil _ _)
  induction vs with
  | nil => exact Nat.le_refl 0
  | cons v vs ih =>
    cases vs with
    | nil => exact hpos v
    | cons w ws =>
      have hv := hpos v
      rw [prettyItems, List.length_append, List.length_cons, List.length_cons (a := ',')]
      · omega
      · exact List.cons_ne_nil w ws

theorem length_le_prettyFields (level : Nat) (fs : List (String × Json)) :
    fs.length ≤ (prettyFields level fs).length := by
  have hpos : ∀ k, 0 < (newLine level ++ quote k).length := fun v =>
    List.length_pos_of_ne_nil (List.cons_ne_nil _ _)
  induction fs with
  | nil => exact Nat.le_refl 0
  | cons f fs ih =>
    obtain ⟨k, v⟩ := f
    cases fs with
    | nil =>
      rw [prettyFields, List.length_append]
      exact (hpos k).trans_le (Nat.le_add_right _ _)
    | cons g gs =>
      have hk := hpos k
      rw [prettyFields]
      · simp only [List.length_append, List.length_cons] at ih ⊢
        omega
      · exact List.cons_ne_nil g gs

/-! ## Whole values -/

theorem skipSpace_prettyItems (level : Nat) (v : Json) (vs : List Json) (rest : List Char) :
    ∃ c more, skipSpace (prettyItems level (v :: vs) ++ rest) = c :: more ∧ c ≠ ']' := by
  obtain ⟨c, more, heq, hspace, hc⟩ := startsValue_pretty level v
  have hfront : ∀ tail, skipSpace (newLine level ++ (pretty level v ++ tail)) =
      c :: (more ++ tail) := by
    intro tail
    rw [skipSpace_newLine, skipSpace_of_startsValue ⟨c, more, heq, hspace, hc⟩, heq,
      List.cons_append]
  cases vs with
  | nil =>
    refine ⟨c, more ++ rest, ?_, hc⟩
    rw [prettyItems, List.append_assoc]
    exact hfront rest
  | cons w ws =>
    refine ⟨c, more ++ (',' :: prettyItems level (w :: ws) ++ rest), ?_, hc⟩
    rw [prettyItems, List.append_assoc, List.append_assoc]
    · exact hfront _
    · exact List.cons_ne_nil w ws

theorem skipSpace_prettyFields (level : Nat) (f : String × Json) (fs : List (String × Json))
    (rest : List Char) :
    ∃ c more, skipSpace (prettyFields level (f :: fs) ++ rest) = c :: more ∧ c ≠ '}' := by
  obtain ⟨k, v⟩ := f
  have hfront : ∀ tail, ∃ more, skipSpace (newLine level ++ (quote k ++ tail)) = '"' :: more :=
    fun tail => ⟨_, skipSpace_newLine level (quote k ++ tail)⟩
  cases fs with
  | nil =>
    rw [prettyFields, List.append_assoc, List.append_assoc]
    obtain ⟨more, heq⟩ := hfront _
    exact ⟨_, more, heq, by decide⟩
  | cons g gs =>
    rw [prettyFields, List.append_assoc, List.append_assoc]
    · obtain ⟨more, heq⟩ := hfront _
      exact ⟨_, more, heq, by decide⟩
    · exact List.cons_ne_nil g gs

theorem value_list {depth : Nat} (hdepth : depth ≠ 0) {cs : List Char} {c : Char}
    {more : List Char} (hcs : skipSpace cs = c :: more) (hc : c ≠ ']') :
    value (depth + 1) ('[' :: cs) =
      (items (value depth) cs.length [] cs).map fun r => (list r.1, r.2) := by
  rw [value, if_neg hdepth]
  split
  next heq =>
    rw [hcs] at heq
    cases heq
    exact absurd rfl hc
  next => rfl

theorem value_object {depth : Nat} (hdepth : depth ≠ 0) {cs : List Char} {c : Char}
    {more : List Char} (hcs : skipSpace cs = c :: more) (hc : c ≠ '}') :
    value (depth + 1) ('{' :: cs) =
      (members (value depth) cs.length [] cs).map fun r => (object r.1, r.2) := by
  rw [value, if_neg hdepth]
  split
  next heq =>
    rw [hcs] at heq
    cases heq
    exact absurd rfl hc
  next => rfl

/-- A list is read one level deeper than its items. -/
theorem readsPretty_list {depth level : Nat} (hdepth : depth ≠ 0) {vs : List Json}
    (h : ∀ v ∈ vs, ReadsPretty (value depth) (level + 1) v) :
    ReadsPretty (value (depth + 1)) level (list vs) := by
  intro rest _
  cases vs with
  | nil =>
    show (if depth = 0 then none else some (list [], rest)) = _
    rw [if_neg hdepth]
    rfl
  | cons v vs =>
    obtain ⟨c, more, hskip, hc⟩ :=
      skipSpace_prettyItems (level + 1) v vs (newLine level ++ ']' :: rest)
    have hfuel : (v :: vs).length ≤
        (prettyItems (level + 1) (v :: vs) ++ (newLine level ++ ']' :: rest)).length := by
      rw [List.length_append]
      exact (length_le_prettyItems (level + 1) (v :: vs)).trans (Nat.le_add_right _ _)
    rw [pretty, List.cons_append, List.append_assoc, List.append_assoc, List.singleton_append,
      value_list hdepth hskip hc, items_prettyItems (List.cons_ne_nil v vs) h level hfuel]
    · rfl
    · exact List.cons_ne_nil v vs

/-- An object is read one level deeper than its entries. -/
theorem readsPretty_object {depth level : Nat} (hdepth : depth ≠ 0) {fs : List (String × Json)}
    (h : ∀ f ∈ fs, ReadsPretty (value depth) (level + 1) f.2) :
    ReadsPretty (value (depth + 1)) level (object fs) := by
  intro rest _
  cases fs with
  | nil =>
    show (if depth = 0 then none else some (object [], rest)) = _
    rw [if_neg hdepth]
    rfl
  | cons f fs =>
    obtain ⟨c, more, hskip, hc⟩ :=
      skipSpace_prettyFields (level + 1) f fs (newLine level ++ '}' :: rest)
    have hfuel : (f :: fs).length ≤
        (prettyFields (level + 1) (f :: fs) ++ (newLine level ++ '}' :: rest)).length := by
      rw [List.length_append]
      exact (length_le_prettyFields (level + 1) (f :: fs)).trans (Nat.le_add_right _ _)
    rw [pretty, List.cons_append, List.append_assoc, List.append_assoc, List.singleton_append,
      value_object hdepth hskip hc, members_prettyFields (List.cons_ne_nil f fs) h level hfuel]
    · rfl
    · exact List.cons_ne_nil f fs

/-- Every value is read up to where it ends, if lists and objects are not nested too deeply. The
induction is on the depth that the reader has left. -/
theorem value_pretty {depth : Nat} {v : Json} (hdepth : nesting v < depth) (level : Nat) :
    ReadsPretty (value depth) level v := by
  induction depth generalizing v level with
  | zero => exact absurd hdepth (Nat.not_lt_zero _)
  | succ depth ih =>
    cases v with
    | null => exact fun _ _ => rfl
    | bool b => cases b <;> exact fun _ _ => rfl
    | integer n => exact fun _ hrest => (writtenNumber_integer n).value_leaf depth hrest
    | real x => exact fun _ hrest => (writtenNumber_real x).value_leaf depth hrest
    | single x => exact fun _ hrest => (writtenNumber_single x).value_leaf depth hrest
    | text s =>
      intro rest _
      show (string? ((s.toList.flatMap escape ++ ['"']) ++ rest)).map _ = _
      rw [List.append_assoc, List.singleton_append, string?_quote]
      rfl
    | list vs =>
      have hlt : nestingItems vs < depth := Nat.lt_of_succ_lt_succ hdepth
      refine readsPretty_list (Nat.ne_of_gt (Nat.zero_lt_of_lt hlt)) fun v hv => ih ?_ (level + 1)
      exact Nat.lt_of_le_of_lt (nestingItems_le_iff.mp (Nat.le_refl _) v hv) hlt
    | object fs =>
      have hlt : nestingFields fs < depth := Nat.lt_of_succ_lt_succ hdepth
      refine readsPretty_object (Nat.ne_of_gt (Nat.zero_lt_of_lt hlt)) fun f hf => ih ?_ (level + 1)
      exact Nat.lt_of_le_of_lt (nestingFields_le_iff.mp (Nat.le_refl _) f hf) hlt

/--
**What is written is read again**: the indented text of a value is a JSON text, and its value is the
one that was written, up to what its numbers become.
-/
theorem parse?_prettyText {v : Json} (h : nesting v < depthBound) :
    parse? v.prettyText.toList = some (reread v) := by
  have hread := value_pretty h 0 [] nofun
  rw [List.append_nil] at hread
  have hskip : skipSpace (pretty 0 v) = pretty 0 v := by
    have hstart := skipSpace_of_startsValue (startsValue_pretty 0 v) []
    rwa [List.append_nil] at hstart
  rw [prettyText, String.toList_ofList, parse?, hskip, hread]
  rfl

end PixelScene.Json
