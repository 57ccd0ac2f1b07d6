import Mathlib.Algebra.Group.Nat.Defs
import PixelScene.Number.Shortest

/-!
# Runs of digits

A run of characters of some class is taken up to the first character that does not belong to it.
The digits of a number have the value of the number, and do not start with a needless zero.

* `spanDigits_append`: digits are read up to what follows them.
* `Number.digitsValue_natDigits`: the digits of a number have its value.
* `Number.natDigits_eq_cons`: the digits of a positive number start with another digit than zero.
* `Number.word_eq_ok_iff`: the texts that are read as a number are its numerals, within a bound.

The readers of numbers take digits one by one and add them up. The bounded reader gives up as soon
as the value exceeds the bound, whatever digits follow, which is what the options of the player rely
on.
-/

namespace PixelScene

/-! ## Runs -/

section Runs

variable {p : Char → Bool} {run rest : List Char}

/-- A run is taken up to the first character that does not belong to it. -/
theorem takeWhile_append_of_stop (hrun : ∀ c ∈ run, p c = true)
    (hstop : ∀ c ∈ rest.head?, p c = false) : (run ++ rest).takeWhile p = run := by
  rw [List.takeWhile_append_of_pos hrun]
  cases rest with
  | nil => exact List.append_nil run
  | cons c more =>
    rw [List.takeWhile_cons_of_neg (by simp [hstop c rfl]), List.append_nil]

/-- What follows a run starts with the first character that does not belong to it. -/
theorem dropWhile_append_of_stop (hrun : ∀ c ∈ run, p c = true)
    (hstop : ∀ c ∈ rest.head?, p c = false) : (run ++ rest).dropWhile p = rest := by
  rw [List.dropWhile_append_of_pos hrun]
  cases rest with
  | nil => rfl
  | cons c more => rw [List.dropWhile_cons_of_neg (by simp [hstop c rfl])]

theorem spanDigits_append (hrun : ∀ c ∈ run, Number.isDigit c = true)
    (hstop : ∀ c ∈ rest.head?, Number.isDigit c = false) :
    Number.spanDigits (run ++ rest) = (run, rest) := by
  rw [Number.spanDigits, takeWhile_append_of_stop hrun hstop, dropWhile_append_of_stop hrun hstop]

end Runs

namespace Number

/-! ## Values -/

theorem digitsValue_eq (start : Nat) (cs : List Char) :
    digitsValue start cs = Nat.ofDigitChars 10 cs start := Nat.ofDigitChars_eq_foldl.symm

theorem digitsValue_natDigits (n : Nat) : digitsValue 0 (natDigits n) = n := by
  rw [digitsValue_eq, natDigits, Nat.ofDigitChars_ten_toDigits]

theorem isDigit_of_mem_natDigits {n : Nat} : ∀ c ∈ natDigits n, isDigit c = true := by
  intro c hc
  have hdigit := Nat.isDigit_of_mem_toDigits (by decide) (by decide) hc
  simpa [Char.isDigit, isDigit, Char.le_def] using hdigit

theorem natDigits_ne_nil (n : Nat) : natDigits n ≠ [] := Nat.toDigits_ne_nil

theorem digitsValue_cons (start : Nat) (c : Char) (cs : List Char) :
    digitsValue start (c :: cs) = digitsValue (10 * start + digitValue c) cs := by
  rw [digitsValue, List.foldl_cons, digitsValue]

theorem isDigit_of_mem_zeros {k : Nat} : ∀ c ∈ zeros k, isDigit c = true := by
  intro c hc
  rw [List.eq_of_mem_replicate hc]
  rfl

theorem digitsValue_zeros (start k : Nat) : digitsValue start (zeros k) = start * 10 ^ k := by
  induction k generalizing start with
  | zero => exact (Nat.mul_one start).symm
  | succ k ih =>
    have hzero : digitValue '0' = 0 := rfl
    rw [zeros, List.replicate_succ, digitsValue_cons, hzero, Nat.add_zero]
    rw [zeros] at ih
    rw [ih, Nat.pow_succ, Nat.mul_comm 10 start, Nat.mul_assoc, Nat.mul_comm 10]

theorem digitsValue_zeros_append (k : Nat) (cs : List Char) :
    digitsValue 0 (zeros k ++ cs) = digitsValue 0 cs := by
  rw [digitsValue_append, digitsValue_zeros, Nat.zero_mul]

theorem digitValue_lt {c : Char} (h : isDigit c = true) : digitValue c < 10 := by
  simp only [isDigit, Bool.and_eq_true, decide_eq_true_iff, Char.le_def] at h
  have hhigh : c.toNat ≤ '9'.toNat := h.2
  have hnine : '9'.toNat = 57 := rfl
  have hzero : '0'.toNat = 48 := rfl
  unfold digitValue
  omega

/-- Digits are less than the power of ten of their number. -/
theorem digitsValue_lt (start : Nat) {cs : List Char} (h : ∀ c ∈ cs, isDigit c = true) :
    digitsValue start cs < (start + 1) * 10 ^ cs.length := by
  induction cs generalizing start with
  | nil => exact (Nat.mul_one (start + 1)).symm ▸ Nat.lt_succ_self start
  | cons c cs ih =>
    obtain ⟨hc, hcs⟩ := List.forall_mem_cons.mp h
    have hvalue := digitValue_lt hc
    rw [digitsValue_cons]
    refine Nat.lt_of_lt_of_le (ih _ hcs) ?_
    rw [List.length_cons, Nat.pow_succ, Nat.mul_comm (10 ^ cs.length), ← Nat.mul_assoc]
    exact Nat.mul_le_mul_right _ (by omega)

/-! ## The first digit -/

/-- The digits of a positive number do not start with a zero: without it they would be fewer, and
still have the value of the number. -/
theorem natDigits_eq_cons {n : Nat} (h : 0 < n) :
    ∃ c more, natDigits n = c :: more ∧ c ≠ '0' := by
  obtain ⟨c, more, hdigits⟩ := List.exists_cons_of_ne_nil (natDigits_ne_nil n)
  refine ⟨c, more, hdigits, ?_⟩
  rintro rfl
  have hmore : ∀ c ∈ more, isDigit c = true := fun c hc =>
    isDigit_of_mem_natDigits c (hdigits ▸ List.mem_cons_of_mem _ hc)
  have hvalue : digitsValue 0 more = n := by
    have hall := digitsValue_natDigits n
    rwa [hdigits] at hall
  have hlt := digitsValue_lt 0 hmore
  rw [hvalue, Nat.zero_add, Nat.one_mul] at hlt
  have hlength : (natDigits n).length = more.length + 1 := by rw [hdigits, List.length_cons]
  obtain hnil | hpos := Nat.eq_zero_or_pos more.length
  · rw [List.eq_nil_of_length_eq_zero hnil] at hvalue
    exact Nat.ne_of_lt h hvalue
  · have hle := (Nat.length_toDigits_le_iff (b := 10) (by decide) hpos).mpr hlt
    rw [natDigits] at hlength
    omega

/-! ## Numerals -/

/-- Digits that have the value of a number; zeros may stand in front. -/
structure IsDigits (text : List Char) (n : Nat) : Prop where
  ne_nil : text ≠ []
  digits : ∀ c ∈ text, isDigit c = true
  value : Nat.ofDigitChars 10 text 0 = n

/-- The texts of a natural number are digits, perhaps behind a plus. -/
def IsNumeral (text : List Char) (n : Nat) : Prop :=
  IsDigits text n ∨ ∃ digits, text = '+' :: digits ∧ IsDigits digits n

variable {text : List Char} {high start n : Nat}

theorem not_isDigits_plus {digits : List Char} : ¬ IsDigits ('+' :: digits) n := fun h =>
  absurd (h.digits '+' List.mem_cons_self) (by decide)

theorem not_isNumeral_nil : ¬ IsNumeral [] n := by
  rintro (h | ⟨_, heq, -⟩)
  · exact h.ne_nil rfl
  · cases heq

theorem isNumeral_plus_iff {digits : List Char} :
    IsNumeral ('+' :: digits) n ↔ IsDigits digits n := by
  constructor
  · rintro (h | ⟨rest, heq, h⟩)
    · exact absurd h not_isDigits_plus
    · exact (List.cons.inj heq).2 ▸ h
  · exact fun h => .inr ⟨digits, rfl, h⟩

theorem isNumeral_iff_of_no_plus (h : ∀ digits, text ≠ '+' :: digits) :
    IsNumeral text n ↔ IsDigits text n :=
  or_iff_left fun ⟨digits, heq, _⟩ => h digits heq

theorem le_digitsValue (start : Nat) (text : List Char) : start ≤ digitsValue start text := by
  induction text generalizing start with
  | nil => exact Nat.le_refl _
  | cons c text ih =>
    rw [digitsValue_cons]
    exact Nat.le_trans (by omega) (ih _)

/-- A value only grows from digit to digit, so it may be held against the bound at each of them. -/
theorem boundedDigits_eq_ok_iff (h : start ≤ high) :
    boundedDigits high start text = .ok n ↔
      (∀ c ∈ text, isDigit c = true) ∧ digitsValue start text = n ∧ n ≤ high := by
  induction text generalizing start with
  | nil =>
    rw [boundedDigits, Except.ok.injEq]
    constructor
    · rintro rfl
      exact ⟨nofun, rfl, h⟩
    · exact fun ⟨_, hvalue, _⟩ => hvalue
  | cons c text ih =>
    rw [boundedDigits, digitsValue_cons, List.forall_mem_cons]
    cases hc : isDigit c with
    | false => simp
    | true =>
      simp only [Bool.not_true, Bool.false_eq_true, if_false, true_and]
      split
      next hlarge =>
        have hgrows := le_digitsValue (10 * start + digitValue c) text
        refine iff_of_false nofun ?_
        rintro ⟨-, hvalue, hn⟩
        omega
      next hsmall => exact ih (Nat.not_lt.mp hsmall)

theorem boundedDigits_zero_eq_ok_iff (hne : text ≠ []) :
    boundedDigits high 0 text = .ok n ↔ IsDigits text n ∧ n ≤ high := by
  rw [boundedDigits_eq_ok_iff (Nat.zero_le high), digitsValue_eq, ← and_assoc]
  exact and_congr_left' ⟨fun ⟨hdigits, hvalue⟩ => ⟨hne, hdigits, hvalue⟩,
    fun h => ⟨h.digits, h.value⟩⟩

theorem word_eq_ok_iff : word high text = .ok n ↔ IsNumeral text n ∧ n ≤ high := by
  unfold word
  split
  next => exact iff_of_false nofun fun h => not_isNumeral_nil h.1
  next =>
    rw [isNumeral_plus_iff]
    exact iff_of_false nofun fun h => h.1.ne_nil rfl
  next digits hdigits =>
    rw [isNumeral_plus_iff]
    exact boundedDigits_zero_eq_ok_iff fun hnil => hdigits (hnil ▸ rfl)
  next hne _ hplus =>
    rw [isNumeral_iff_of_no_plus hplus]
    exact boundedDigits_zero_eq_ok_iff hne

end Number

end PixelScene
