import PixelScene.Json.Printer
import PixelScene.Json.Reader
import PixelScene.Proofs.Number.Decimal
import PixelScene.Proofs.Number.Digits

/-!
# Numbers in JSON texts

A `Numeral` is a number as the grammar of JSON has it: whole digits without a needless zero, and
then, each if it is there, digits after a point and an exponent. It is read up to the first
character that cannot go on with it.

* `Numeral.number?_text`: what is read of a numeral.
* `exists_numeral`: a finite number is written as a numeral with a point or an exponent, whose value
  is that of the shortest decimal of the number.

The grammar is stricter than that of numbers in scripts: no sign but a minus, no zero in front, a
digit on both sides of a point. What the printer writes keeps to it, and has a point or an exponent
in every number that was not an integer, so integers and doubles stay apart when they are read
again.
-/

namespace PixelScene.Json

open Number (isDigit digitsValue natDigits zeros Decimal)

/-! ## Numerals -/

/-- Whether digits can stand in front of a point: not none, and no needless zero in front. -/
def Whole (cs : List Char) : Prop :=
  (∀ c ∈ cs, isDigit c = true) ∧ (cs = ['0'] ∨ ∃ c more, cs = c :: more ∧ c ≠ '0')

/-- Some digits. -/
def Digits (cs : List Char) : Prop := cs ≠ [] ∧ ∀ c ∈ cs, isDigit c = true

/-- A number without its sign. An exponent has a sign and digits. -/
structure Numeral where
  whole : List Char
  part : Option (List Char)
  power : Option (Bool × List Char)
  isWhole : Whole whole
  part_digits : ∀ ds ∈ part, Digits ds
  power_digits : ∀ p ∈ power, Digits p.2

/-- Whether a number ends where some text begins. -/
def EndsNumber (rest : List Char) : Prop :=
  ∀ c ∈ rest.head?, isDigit c = false ∧ c ≠ '.' ∧ c ≠ 'e' ∧ c ≠ 'E'

namespace Numeral

/-- The digits after the point, with the point. -/
def partText : Option (List Char) → List Char
  | some ds => '.' :: ds
  | none => []

/-- The exponent, with its letter and its sign. -/
def powerText : Option (Bool × List Char) → List Char
  | some (negative, ds) => 'e' :: (if negative then '-' else '+') :: ds
  | none => []

/-- The number as it is written. -/
def text (n : Numeral) : List Char := n.whole ++ (partText n.part ++ powerText n.power)

/-- The digits after the point, if any. -/
def places (n : Numeral) : List Char := n.part.getD []

/-- The exponent, if any. -/
def exponent (n : Numeral) : Int :=
  (n.power.map fun p => Number.signed p.1 (digitsValue 0 p.2)).getD 0

/-- The decimal that is written, with a sign. -/
def decimal (n : Numeral) (negative : Bool) : Decimal :=
  ⟨negative, digitsValue 0 (n.whole ++ n.places), n.exponent - n.places.length⟩

/-- Whether there is a point or an exponent. -/
def isReal (n : Numeral) : Bool := n.part.isSome || n.power.isSome

/-- What is read: a whole number without a point and without an exponent is an integer, if it is not
too large for one. -/
def value (n : Numeral) (negative : Bool) : Json :=
  if n.isReal then real (n.decimal negative).toFloat
  else wholeNumber negative (digitsValue 0 n.whole)

end Numeral

/-! ## Reading a numeral -/

section Reading

variable {rest : List Char}

theorem wholeDigits?_append {cs : List Char} (h : Whole cs)
    (hrest : ∀ c ∈ rest.head?, isDigit c = false) :
    wholeDigits? (cs ++ rest) = some (cs, rest) := by
  unfold wholeDigits?
  rw [spanDigits_append h.1 hrest]
  obtain rfl | ⟨c, more, rfl, hc⟩ := h.2
  · rfl
  · split
    next heq => cases heq
    next heq =>
      cases heq
      exact absurd rfl hc
    next heq =>
      cases heq
      exact absurd rfl hc
    next heq =>
      cases heq
      rfl

theorem spanDigits_digits {cs : List Char} (h : Digits cs)
    (hrest : ∀ c ∈ rest.head?, isDigit c = false) {α : Type} (none : α)
    (some : List Char → List Char → α) :
    (match Number.spanDigits (cs ++ rest) with
      | ([], _) => none
      | (ds, rest) => some ds rest) = some cs rest := by
  rw [spanDigits_append h.2 hrest]
  obtain ⟨c, more, rfl⟩ := List.exists_cons_of_ne_nil h.1
  rfl

theorem fraction?_append {part : Option (List Char)} (h : ∀ ds ∈ part, Digits ds)
    (hrest : ∀ c ∈ rest.head?, isDigit c = false ∧ c ≠ '.') :
    fraction? (Numeral.partText part ++ rest) = some (part, rest) := by
  cases part with
  | some ds =>
    exact spanDigits_digits (h ds rfl) (fun c hc => (hrest c hc).1) none
      fun ds rest => some (some ds, rest)
  | none =>
    unfold fraction?
    split
    next cs heq => exact absurd rfl (hrest '.' (by rw [show rest = '.' :: cs from heq]; rfl)).2
    next => rfl

theorem power?_append {power : Option (Bool × List Char)} (h : ∀ p ∈ power, Digits p.2)
    (hrest : EndsNumber rest) :
    power? (Numeral.powerText power ++ rest) =
      some (power.map fun p => Number.signed p.1 (digitsValue 0 p.2), rest) := by
  cases power with
  | some p =>
    obtain ⟨negative, ds⟩ := p
    have hspan := spanDigits_digits (h (negative, ds) rfl) (fun c hc => (hrest c hc).1) none
      fun ds rest => some (some (Number.signed negative (digitsValue 0 ds)), rest)
    cases negative <;> exact hspan
  | none =>
    cases rest with
    | nil => rfl
    | cons c more =>
      obtain ⟨-, -, he, hE⟩ := hrest c rfl
      show power? (c :: more) = some (none, c :: more)
      simp only [power?, he, hE, or_self, if_false]

theorem head?_append {c : Char} {cs rest : List Char} (h : c ∈ (cs ++ rest).head?) :
    c ∈ cs.head? ∨ c ∈ rest.head? := by
  cases cs with
  | nil => exact .inr h
  | cons d more => exact .inl h

namespace Numeral

theorem head?_powerText {power : Option (Bool × List Char)} {c : Char}
    (h : c ∈ (powerText power).head?) : c = 'e' := by
  cases power with
  | some p => exact (Option.some.inj h).symm
  | none => cases h

theorem head?_partText {part : Option (List Char)} {c : Char}
    (h : c ∈ (partText part).head?) : c = '.' := by
  cases part with
  | some ds => exact (Option.some.inj h).symm
  | none => cases h

/-- A numeral is read up to where it ends. -/
theorem number?_text (n : Numeral) (negative : Bool) (hrest : EndsNumber rest) :
    number? negative (n.text ++ rest) = some (n.value negative, rest) := by
  have hpower : ∀ c ∈ (powerText n.power ++ rest).head?, isDigit c = false ∧ c ≠ '.' := by
    intro c hc
    obtain hc | hc := head?_append hc
    · rw [head?_powerText hc]
      decide
    · exact ⟨(hrest c hc).1, (hrest c hc).2.1⟩
  have hpart : ∀ c ∈ (partText n.part ++ (powerText n.power ++ rest)).head?,
      isDigit c = false := by
    intro c hc
    obtain hc | hc := head?_append hc
    · rw [head?_partText hc]
      rfl
    · exact (hpower c hc).1
  rw [text, List.append_assoc, List.append_assoc, number?, wholeDigits?_append n.isWhole hpart]
  simp only [Option.bind_eq_bind, Option.bind_some]
  rw [fraction?_append n.part_digits hpower]
  simp only [Option.bind_some]
  rw [power?_append n.power_digits hrest]
  simp only [Option.bind_some]
  unfold value isReal decimal exponent places
  cases n.part with
  | some ds => cases n.power <;> rfl
  | none => cases n.power <;> rfl

end Numeral

end Reading

/-! ## Writing a numeral -/

section Writing

variable {n : ℕ}

theorem Numeral.value_decimal (u : Numeral) (negative : Bool) : (u.decimal negative).value =
    digitsValue 0 (u.whole ++ u.places) * 10 ^ (u.exponent - u.places.length) := rfl

theorem whole_natDigits_append (hn : 0 < n) {cs : List Char} (h : ∀ c ∈ cs, isDigit c = true) :
    Whole (natDigits n ++ cs) := by
  obtain ⟨c, more, heq, hc⟩ := Number.natDigits_eq_cons hn
  exact ⟨List.forall_mem_append.mpr ⟨Number.isDigit_of_mem_natDigits, h⟩,
    .inr ⟨c, more ++ cs, by rw [heq]; rfl, hc⟩⟩

/-- Zero is written with a point. -/
theorem exists_zero : ∃ u : Numeral, Number.positional true ['0'] 0 = u.text ∧ u.isReal = true ∧
    ∀ negative, (u.decimal negative).value = 0 := by
  have hdigit : ∀ c ∈ ['0'], isDigit c = true := List.forall_mem_singleton.mpr rfl
  refine ⟨⟨['0'], some ['0'], none, ⟨hdigit, .inl rfl⟩, ?_, nofun⟩, rfl, rfl, fun negative => ?_⟩
  · rintro ds ⟨⟩
    exact ⟨List.cons_ne_nil _ _, hdigit⟩
  · exact Decimal.value_eq_zero_iff.mpr rfl

/-- A whole number gets zeros, and a point with another zero. -/
theorem exists_positional_of_nonneg (hn : 0 < n) {e : ℤ} (he : 0 ≤ e) :
    ∃ u : Numeral, Number.positional true (natDigits n) e = u.text ∧ u.isReal = true ∧
      ∀ negative, (u.decimal negative).value = n * 10 ^ e := by
  refine ⟨⟨natDigits n ++ zeros e.toNat, some (zeros 1), none,
    whole_natDigits_append hn Number.isDigit_of_mem_zeros, ?_, nofun⟩, ?_, rfl, fun negative => ?_⟩
  · rintro ds ⟨⟩
    exact ⟨List.cons_ne_nil _ _, Number.isDigit_of_mem_zeros⟩
  · rw [Number.positional, if_pos he]
    rfl
  · rw [Numeral.value_decimal]
    show ((digitsValue 0 (natDigits n ++ zeros e.toNat ++ zeros 1) : ℕ) : ℚ) * 10 ^ (-1 : ℤ) = _
    rw [Number.digitsValue_append, Number.digitsValue_append, Number.digitsValue_natDigits,
      Number.digitsValue_zeros, Number.digitsValue_zeros, Nat.cast_mul, Nat.cast_mul, Nat.cast_pow,
      Nat.cast_pow, Nat.cast_ofNat, Number.zpow_toNat 10 he, pow_one, zpow_neg_one,
      mul_inv_cancel_right₀ (by norm_num)]

/-- Digits before a point, after zeros where there are too few of them: no zero stands in front but
the only one. -/
theorem whole_take_padded (hn : 0 < n) (places : ℕ) {padded : List Char}
    (hpadded : padded = zeros (places + 1 - (natDigits n).length) ++ natDigits n) :
    Whole (padded.take (padded.length - places)) := by
  have hlength : padded.length = (places + 1 - (natDigits n).length) + (natDigits n).length := by
    rw [hpadded, List.length_append, zeros, List.length_replicate]
  have hdigits : ∀ c ∈ padded, isDigit c = true := hpadded ▸
    List.forall_mem_append.mpr ⟨Number.isDigit_of_mem_zeros, Number.isDigit_of_mem_natDigits⟩
  refine ⟨fun c hc => hdigits c (List.mem_of_mem_take hc), ?_⟩
  obtain hshort | hlong := Nat.lt_or_ge places (natDigits n).length
  · obtain ⟨c, more, heq, hc⟩ := Number.natDigits_eq_cons hn
    obtain ⟨k, hk⟩ : ∃ k, padded.length - places = k + 1 := ⟨padded.length - places - 1, by omega⟩
    refine .inr ⟨c, more.take k, ?_, hc⟩
    have hnone : places + 1 - (natDigits n).length = 0 := by omega
    rw [hk, hpadded, hnone, heq]
    rfl
  · left
    have hone : padded.length - places = 1 := by omega
    obtain ⟨k, hk⟩ : ∃ k, places + 1 - (natDigits n).length = k + 1 :=
      ⟨places - (natDigits n).length, by omega⟩
    rw [hone, hpadded, hk]
    rfl

/-- The digits of a number with a fraction are split at the point, after zeros where there are too
few of them. -/
theorem exists_positional_of_neg (hn : 0 < n) {e : ℤ} (he : e < 0) :
    ∃ u : Numeral, Number.positional true (natDigits n) e = u.text ∧ u.isReal = true ∧
      ∀ negative, (u.decimal negative).value = n * 10 ^ e := by
  set places := (-e).toNat with hplaces
  set padded := zeros (places + 1 - (natDigits n).length) ++ natDigits n with hpadded
  have hlength : padded.length = (places + 1 - (natDigits n).length) + (natDigits n).length := by
    rw [hpadded, List.length_append, zeros, List.length_replicate]
  have hdigits : ∀ c ∈ padded, isDigit c = true :=
    List.forall_mem_append.mpr ⟨Number.isDigit_of_mem_zeros, Number.isDigit_of_mem_natDigits⟩
  have hpart : Digits (padded.drop (padded.length - places)) := by
    refine ⟨fun hnil => ?_, fun c hc => hdigits c (List.mem_of_mem_drop hc)⟩
    rw [List.drop_eq_nil_iff] at hnil
    omega
  refine ⟨⟨padded.take (padded.length - places), some (padded.drop (padded.length - places)), none,
    whole_take_padded hn places hpadded, ?_, fun _ hp => absurd hp (Option.not_mem_none _)⟩, ?_, rfl,
    fun negative => ?_⟩
  · rintro ds ⟨⟩
    exact hpart
  · rw [Number.positional, if_neg (not_le.mpr he), Numeral.text, Numeral.powerText, List.append_nil]
    rfl
  · rw [Numeral.value_decimal]
    show ((digitsValue 0 (padded.take (padded.length - places) ++
      padded.drop (padded.length - places)) : ℕ) : ℚ) *
        10 ^ (0 - ((padded.drop (padded.length - places)).length : ℤ)) = _
    have hexponent : (0 : ℤ) - ((padded.drop (padded.length - places)).length : ℤ) = e := by
      rw [List.length_drop]
      omega
    rw [List.take_append_drop, hexponent, hpadded, Number.digitsValue_zeros_append,
      Number.digitsValue_natDigits]

/-- A sign and the digits of an absolute value make up a number. -/
theorem signed_natAbs (k : ℤ) :
    Number.signed (decide (k < 0)) (digitsValue 0 (natDigits k.natAbs)) = k := by
  rw [Number.digitsValue_natDigits, Number.signed]
  split
  next h =>
    have hneg : k < 0 := of_decide_eq_true h
    omega
  next h =>
    have hnonneg : ¬ k < 0 := fun hneg => h (decide_eq_true hneg)
    omega

/-- In scientific form one digit stands in front of the point. -/
theorem exists_scientific (hn : 0 < n) (e : ℤ) :
    ∃ u : Numeral, Number.scientific (natDigits n) (e + (natDigits n).length - 1) = u.text ∧
      u.isReal = true ∧ ∀ negative, (u.decimal negative).value = n * 10 ^ e := by
  obtain ⟨c, more, heq, hc⟩ := Number.natDigits_eq_cons hn
  have hdigits := Number.isDigit_of_mem_natDigits (n := n)
  have hvalue := Number.digitsValue_natDigits n
  rw [heq] at hdigits hvalue
  obtain ⟨hdigit, hmore⟩ := List.forall_mem_cons.mp hdigits
  set order := e + ((natDigits n).length : ℤ) - 1 with horder
  have horder' : order = e + more.length := by
    rw [horder, heq, List.length_cons]
    omega
  have hwhole : Whole [c] := ⟨List.forall_mem_singleton.mpr hdigit, .inr ⟨c, [], rfl, hc⟩⟩
  have hpower : ∀ p ∈ some (decide (order < 0), natDigits order.natAbs), Digits p.2 := by
    rintro p ⟨⟩
    exact ⟨Number.natDigits_ne_nil _, Number.isDigit_of_mem_natDigits⟩
  have hsign : (if order < 0 then '-' else '+') =
      (if decide (order < 0) = true then '-' else '+') := by simp only [decide_eq_true_iff]
  cases more with
  | nil =>
    refine ⟨⟨[c], none, some (decide (order < 0), natDigits order.natAbs), hwhole, nofun, hpower⟩,
      ?_, rfl, fun negative => ?_⟩
    · rw [heq, Number.scientific, hsign]
      rfl
    · rw [Numeral.value_decimal]
      show ((digitsValue 0 [c] : ℕ) : ℚ) * 10 ^ (Number.signed (decide (order < 0))
        (digitsValue 0 (natDigits order.natAbs)) - ((0 : ℕ) : ℤ)) = _
      rw [signed_natAbs, hvalue, horder']
      congr 2
      exact (Int.sub_zero _).trans (Int.add_zero _)
  | cons d ds =>
    refine ⟨⟨[c], some (d :: ds), some (decide (order < 0), natDigits order.natAbs), hwhole, ?_,
      hpower⟩, ?_, rfl, fun negative => ?_⟩
    · rintro ds' ⟨⟩
      exact ⟨List.cons_ne_nil _ _, hmore⟩
    · rw [heq, Number.scientific, hsign]
      · rfl
      · exact List.cons_ne_nil d ds
    · rw [Numeral.value_decimal]
      show ((digitsValue 0 (c :: d :: ds) : ℕ) : ℚ) * 10 ^ (Number.signed (decide (order < 0))
        (digitsValue 0 (natDigits order.natAbs)) - ((d :: ds).length : ℤ)) = _
      rw [signed_natAbs, hvalue, horder', add_sub_cancel_right]

/-- Every positive decimal is written as a numeral of its value. -/
theorem exists_write (style : Number.DecimalStyle) (hpoint : style.keepPoint = true) (hn : 0 < n)
    (e : ℤ) : ∃ u : Numeral, style.write n e = u.text ∧ u.isReal = true ∧
      ∀ negative, (u.decimal negative).value = n * 10 ^ e := by
  simp only [Number.DecimalStyle.write, hpoint]
  split
  · obtain he | he := Int.lt_or_le e 0
    · exact exists_positional_of_neg hn he
    · exact exists_positional_of_nonneg hn he
  · exact exists_scientific hn e

/-- Every finite number is written as a numeral with the value of its shortest decimal. -/
theorem exists_numeral (style : Number.DecimalStyle) (hpoint : style.keepPoint = true)
    {f : Number.BinaryFormat} (hf : f.Narrow) (negative : Bool) {m : ℕ} {e : ℤ} (hhas : f.Has m e) :
    ∃ u : Numeral,
      style.writeFinite f negative m e = (if negative then '-' :: u.text else u.text) ∧
        u.isReal = true ∧
        (u.decimal negative).value =
          (Number.shortestDecimal style.tie f negative m e).value := by
  obtain rfl | hm := Nat.eq_zero_or_pos m
  · obtain ⟨u, htext, hreal, hvalue⟩ := exists_zero
    refine ⟨u, ?_, hreal, ?_⟩
    · rw [Number.DecimalStyle.writeFinite, if_pos rfl, hpoint, htext]
    · rw [hvalue, Number.shortestDecimal, if_pos rfl]
      exact (Decimal.value_eq_zero_iff.mpr rfl).symm
  · obtain ⟨u, htext, hreal, hvalue⟩ :=
      exists_write style hpoint (Number.shortest_pos style.tie hf hm hhas)
        (Number.shortest style.tie f m e).2
    refine ⟨u, ?_, hreal, ?_⟩
    · rw [← htext]
      simp only [Number.DecimalStyle.writeFinite, if_neg hm.ne']
    · rw [hvalue, Number.shortestDecimal, if_neg hm.ne']
      rfl

end Writing

end PixelScene.Json
