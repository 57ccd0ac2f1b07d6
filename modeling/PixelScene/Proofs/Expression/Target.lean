import PixelScene.Proofs.Expression.Place
import PixelScene.Proofs.Expression.RoundTrip

/-!
# Targets of assignments

The variable that an action assigns to and the variables of an expression are found by two different
readers. They agree on every text that an action takes for a target, but for the words for true and
false and for names that start with a digit: an action assigns to these, while an expression reads
them as numbers, if it reads them at all.

* `Token.SolidFront`: a token has no blanks inside.
* `head?_of_scan`: a `=` behind a blank is never alone in an expression.
* `Assignment.target_of_parse`: the target of an action is named by what stands in front of its
  sign.
* `Assignment.parse_target_iff`: when the target is the variable that an expression reads.

The target goes through `variable_name`, which drops a `$` or a `State.` and asks of what is left
only that it consists of word characters. The reader of expressions asks more. The equivalence
speaks of every text on both sides of the sign for which the action is accepted at all; the sign is
the first `=`, and a single one behind it could only stand in an expression that is refused.
-/

namespace PixelScene

open Text (Blanks isBlank)

/-! ## Tokens have no blanks inside -/

namespace Token

/-- The second text is left when some characters, none of them blank, are taken off the front of the
first. -/
inductive SolidFront : List Char → List Char → Prop where
  | refl (cs : List Char) : SolidFront cs cs
  | cons {c : Char} {cs rest : List Char} (solid : isBlank c = false)
      (more : SolidFront cs rest) : SolidFront (c :: cs) rest

namespace SolidFront

variable {cs mid rest : List Char}

theorem trans (h : SolidFront cs mid) (h' : SolidFront mid rest) : SolidFront cs rest := by
  induction h with
  | refl => exact h'
  | cons solid _ ih => exact .cons solid (ih h')

theorem dropWhile {p : Char → Bool} (hp : ∀ {c}, p c = true → Node.isPlain c = true)
    (cs : List Char) : SolidFront cs (cs.dropWhile p) := by
  induction cs with
  | nil => exact .refl []
  | cons c cs ih =>
    cases hc : p c with
    | true =>
      rw [List.dropWhile_cons_of_pos hc]
      exact .cons (Node.isBlank_of_isPlain (hp hc)) ih
    | false =>
      rw [List.dropWhile_cons_of_neg (by simp [hc])]
      exact .refl _

/-- Nothing behind a blank is taken off. -/
theorem exists_of_blank {xs ys : List Char} {c : Char} (hc : isBlank c = true)
    (h : SolidFront (xs ++ c :: ys) rest) : ∃ xs', rest = xs' ++ c :: ys := by
  induction xs with
  | nil =>
    cases h with
    | refl => exact ⟨[], rfl⟩
    | cons solid => exact absurd (solid.symm.trans hc) nofun
  | cons x xs ih =>
    cases h with
    | refl => exact ⟨x :: xs, rfl⟩
    | cons _ more => exact ih more

end SolidFront

variable {c : Char} {cs rest : List Char} {t : Token}

theorem solidFront_readVariable {missing : ExprFault}
    (h : readVariable missing cs = .ok (t, rest)) : SolidFront cs rest := by
  have hfront := SolidFront.dropWhile isPlain_of_isNameChar cs
  unfold readVariable spanName at h
  split at h
  · cases h
  · rename_i heq
    obtain ⟨-, rfl⟩ := Prod.mk.inj (Except.ok.inj h)
    exact (Prod.mk.inj heq).2 ▸ hfront

theorem solidFront_afterState (cs : List Char) : SolidFront cs (afterState cs) := by
  unfold afterState
  split
  · exact .cons rfl (.refl _)
  · exact .refl _

theorem solidFront_readWord (h : readWord cs = .ok (t, rest)) : SolidFront cs rest := by
  have hfront := SolidFront.dropWhile isPlain_of_isNameChar cs
  unfold readWord spanName at h
  split at h
  · rename_i name more heq
    rw [(Prod.mk.inj heq).2] at hfront
    split at h
    · have hafter : SolidFront ('.' :: more) (afterState more) :=
        .cons rfl (solidFront_afterState more)
      exact hfront.trans (hafter.trans (solidFront_readVariable h))
    · obtain ⟨-, rfl⟩ := Prod.mk.inj (Except.ok.inj h)
      exact hfront
  · rename_i heq
    obtain ⟨-, rfl⟩ := Prod.mk.inj (Except.ok.inj h)
    exact (Prod.mk.inj heq).2 ▸ hfront

theorem solidFront_readSign (h : readSign c cs = .ok (t, rest)) : SolidFront cs rest := by
  unfold readSign at h
  split at h
  all_goals simp only [Except.ok.injEq, Prod.mk.injEq, reduceCtorEq] at h
  all_goals obtain ⟨-, rfl⟩ := h
  all_goals first
    | exact .refl _
    | exact .cons rfl (.refl _)

/-- **A token has no blanks inside.** -/
theorem solidFront_read (h : read c cs = .ok (t, rest)) : SolidFront cs rest := by
  unfold read at h
  split at h
  · rename_i hstarts
    split at h
    · obtain ⟨-, rfl⟩ := Prod.mk.inj (Except.ok.inj h)
      rw [List.dropWhile_cons_of_pos (isNumberChar_of_startsNumber hstarts)]
      exact .dropWhile isPlain_of_isNumberChar cs
    · cases h
  · split at h
    · exact solidFront_readVariable h
    · split at h
      · rename_i hname
        cases solidFront_readWord h with
        | refl => exact absurd (readWord_shorter hname h) (Nat.lt_irrefl _)
        | cons _ more => exact more
      · exact solidFront_readSign h

theorem head?_of_read_equal (h : read '=' cs = .ok (t, rest)) : cs.head? = some '=' := by
  cases cs with
  | nil => cases h
  | cons d cs =>
    by_cases hd : d = '='
    · rw [hd, List.head?_cons]
    · change readSign '=' (d :: cs) = _ at h
      unfold readSign at h
      split at h <;> simp_all

end Token

/-- A `=` behind a blank is never alone in an expression: it is the first half of `==`. -/
theorem head?_of_scan {total : Nat} {xs ys : List Char} {ls : List Located}
    (h : Token.scan total (xs ++ ' ' :: '=' :: ys) = .ok ls) : ys.head? = some '=' := by
  match xs with
  | [] =>
    rcases scan_cons_eq_ok h with ⟨-, hequal⟩ | ⟨hsolid, -⟩
    · rcases scan_cons_eq_ok hequal with ⟨hblank, -⟩ | ⟨-, _, _, _, hread, -⟩
      · exact absurd hblank (by decide)
      · exact Token.head?_of_read_equal hread
    · exact absurd hsolid (by decide)
  | c :: xs =>
    rw [List.cons_append] at h
    rcases scan_cons_eq_ok h with ⟨-, hrest⟩ | ⟨-, _, more, _, hread, hmore, -⟩
    · exact head?_of_scan hrest
    · obtain ⟨xs', rfl⟩ := (Token.solidFront_read hread).exists_of_blank rfl
      have hshorter := Token.read_shorter hread
      rw [List.length_cons, List.length_append, List.length_append] at hshorter
      have hxs : xs'.length ≤ xs.length := by omega
      exact head?_of_scan hmore
termination_by xs.length

/-! ## The target of an action -/

/-- The first mark of a text stands at one place. -/
theorem Text.first_unique {mark : Char} {before before' after after' : List Char}
    (h : mark ∉ before) (h' : mark ∉ before')
    (heq : before ++ mark :: after = before' ++ mark :: after') :
    before = before' ∧ after = after' := by
  have hcut := Text.cutFirst?_eq_some_iff.mpr ⟨heq, h'⟩
  rw [Text.cutFirst?_eq_some_iff.mpr ⟨rfl, h⟩] at hcut
  exact Prod.mk.inj (Option.some.inj hcut)

namespace Assignment

/-- What an action consists of. -/
theorem parse_eq_ok {raw : List Char} {a : Assignment} (h : Assignment.parse raw = .ok a) :
    ∃ before after name, Text.trim raw = before ++ '=' :: after ∧ '=' ∉ before ∧
      variableName? (operator before).1 = some name ∧ Expr.parse after = .ok a.value ∧
      a = ⟨String.ofList name, (operator before).2, a.value⟩ := by
  rw [Assignment.parse] at h
  split at h
  · cases h
  · rename_i before after hcut
    obtain ⟨htrim, hfirst⟩ := Text.cutFirst?_eq_some_iff.mp hcut
    split at h
    · cases h
    · dsimp only at h
      split at h
      · cases h
      · rename_i name hname
        split at h
        · cases h
        · rename_i value hvalue
          obtain rfl := Except.ok.inj h
          exact ⟨before, after, name, htrim, hfirst, hname, hvalue, rfl⟩

/-- **The target of an action is named by what stands in front of its sign.** A comparison there
would leave a lone `=` in the expression, which is then no expression. -/
theorem target_of_parse {l r : List Char} {a : Assignment}
    (h : Assignment.parse (l ++ " = ".toList ++ r) = .ok a) :
    a.op = .set ∧ ∃ name, variableName? l = some name ∧ a.target = String.ofList name := by
  obtain ⟨before, after, name, htrim, hfirst, hname, hvalue, ha⟩ := parse_eq_ok h
  obtain ⟨b, b', hb, hb', hraw⟩ := Text.exists_blanks_trim (l ++ " = ".toList ++ r)
  have hsign : b ++ before ++ '=' :: (after ++ b') = l ++ ' ' :: '=' :: ' ' :: r := by
    rw [htrim] at hraw
    simpa using hraw.symm
  have hfront : '=' ∉ b ++ before :=
    List.not_mem_append (Text.not_mem_of_blanks rfl hb) hfirst
  by_cases hl : '=' ∈ l
  · -- the sign that was meant is a lone `=` of the expression
    obtain ⟨l₁, l₂, rfl, hl₁⟩ := List.eq_append_cons_of_mem hl
    have hsplit : l₁ ++ '=' :: l₂ ++ ' ' :: '=' :: ' ' :: r =
        l₁ ++ '=' :: (l₂ ++ ' ' :: '=' :: ' ' :: r) := by simp
    obtain ⟨-, hafter⟩ := Text.first_unique hfront hl₁ (hsign.trans hsplit)
    have hafter' : after ++ b' = (l₂ ++ [' ']) ++ '=' :: ' ' :: r := by simpa using hafter
    obtain ⟨more, hmore, hrest⟩ := Text.exists_of_append_blanks rfl hb' hafter'
    rw [List.append_assoc, List.singleton_append] at hmore
    obtain ⟨ls, hscan, -⟩ := bind_eq_ok_iff.mp hvalue
    rw [hmore] at hscan
    obtain ⟨more', rfl⟩ := List.head?_eq_some_iff.mp (head?_of_scan hscan)
    exact absurd (List.cons.inj hrest).1 (by decide)
  · have hblank : '=' ∉ l ++ [' '] := List.not_mem_append hl (by decide)
    have hsplit : l ++ ' ' :: '=' :: ' ' :: r = l ++ [' '] ++ '=' :: ' ' :: r := by simp
    obtain ⟨hbefore, -⟩ := Text.first_unique hfront hblank (hsign.trans hsplit)
    have htarget : Text.trim before = Text.trim l := by
      have hleft := Text.trim_blanks_append hb before Text.blanks_nil
      have hright := Text.trim_blanks_append Text.blanks_nil l Text.blanks_space
      rw [List.append_nil] at hleft
      rw [← hleft, hbefore, ← hright]
      rfl
    have hoperator : operator before = (before, .set) := by
      rcases List.eq_nil_or_concat' before with rfl | ⟨front, x, rfl⟩
      · rfl
      · have hlast : x = ' ' := by
          have h := congrArg List.getLast? hbefore
          rw [← List.append_assoc] at h
          simpa using h
        rw [hlast]
        exact operator_append front .set
    rw [hoperator] at hname ha
    refine ⟨congrArg Assignment.op ha, name, ?_, congrArg Assignment.target ha⟩
    rw [variableName?, ← htarget]
    exact hname

end Assignment

/-! ## Targets in expressions -/

/-- What may stand in front of the name of a target. -/
def targetFronts : List (List Char) := [[], ['$'], "State.".toList, "State.$".toList]

theorem variableName?_eq_some {cs name : List Char} (h : variableName? cs = some name) :
    ∃ n : Name, n.chars = name ∧ ∃ front ∈ targetFronts, Text.trim cs = front ++ n.chars := by
  rw [variableName?] at h
  split at h
  · cases h
  · rename_i hname
    rw [Bool.or_eq_true, not_or, List.isEmpty_iff, Bool.not_eq_true', Bool.not_eq_false] at hname
    obtain rfl := Option.some.inj h
    refine ⟨⟨_, hname.1, List.all_eq_true.mp hname.2⟩, rfl, ?_⟩
    rcases Text.dropFront_eq "State.".toList (Text.trim cs) with hstate | hstate <;>
      rcases Text.dropFront_eq ['$'] (Text.dropFront "State.".toList (Text.trim cs)) with
        hdollar | hdollar
    · exact ⟨"State.$".toList, by decide, hstate.trans (congrArg ("State.".toList ++ ·) hdollar)⟩
    · exact ⟨"State.".toList, by decide, hstate.trans (congrArg ("State.".toList ++ ·) hdollar)⟩
    · exact ⟨['$'], by decide, hstate.trans hdollar⟩
    · exact ⟨[], by decide, hstate.trans hdollar⟩

/-- The tokens of a text that starts with a digit start with a number. -/
theorem exists_number_of_scan {total : Nat} {b : List Char} (hb : Blanks b) {c : Char}
    (hc : Number.isDigit c = true) {more : List Char} {ls : List Located}
    (h : Token.scan total (b ++ c :: more) = .ok ls) :
    ∃ value us, ls.map Located.token = .number value :: us := by
  have hsolid : isBlank c = false := Node.isBlank_of_isPlain (Node.isPlain_of_isDigit hc)
  induction b with
  | nil =>
    rcases scan_cons_eq_ok h with ⟨hblank, -⟩ | ⟨-, token, rest, ls', hread, -, rfl⟩
    · exact absurd (hsolid.symm.trans hblank) nofun
    · have hstarts : Token.startsNumber c more = true := by simp [Token.startsNumber, hc]
      rw [Token.read, if_pos hstarts] at hread
      split at hread
      · rename_i value _
        obtain ⟨rfl, -⟩ := Prod.mk.inj (Except.ok.inj hread)
        exact ⟨value, ls'.map Located.token, rfl⟩
      · cases hread
  | cons d b ih =>
    obtain ⟨hd, hb⟩ := List.forall_mem_cons.mp hb
    rcases scan_cons_eq_ok h with ⟨-, hrest⟩ | ⟨hsolid', -⟩
    · exact ih hb hrest
    · exact absurd (hsolid'.symm.trans hd) nofun

/-- A phrase that is a variable does not start with a number. -/
theorem Derives.ne_number {p : Phrase} {ts us : List Token} {e : Expr} {value : Float}
    (h : Derives p ts e) (hts : ts = .number value :: us) (name : String) : e ≠ .var name := by
  induction h with
  | pass _ _ ih => exact ih hts
  | word | var | parens => exact absurd hts nofun
  | _ => exact nofun

theorem parse_ne_var_of_isDigit {b : List Char} (hb : Blanks b) {c : Char}
    (hc : Number.isDigit c = true) (more : List Char) (name : String) :
    Expr.parse (b ++ c :: more) ≠ .ok (.var name) := by
  intro h
  obtain ⟨ls, hscan, -⟩ := bind_eq_ok_iff.mp h
  obtain ⟨value, us, hls⟩ := exists_number_of_scan hb hc hscan
  exact ((parse_eq_ok_iff_derives hscan _).mp h).ne_number hls name rfl

theorem Scans.parse_eq {cs : List Char} {t : Token} {e : Expr} (h : Scans cs [t])
    (ht : Derives .primary [t] e) : Expr.parse cs = .ok e := by
  obtain ⟨ls, hscan, hls⟩ := h cs.length
  refine (parse_eq_ok_iff_derives hscan e).mpr ?_
  rw [hls]
  exact Formula.derives_of_le (m := 0) (n := topLevel) (Nat.zero_le _) (.pass rfl ht)

section Readings

variable {b b' : List Char} (hb : Blanks b) (n : Name) (hb' : Blanks b')

include hb hb'

/-- A name with one of the fronts is a variable. -/
theorem scans_reference {front : List Char} (hfront : front ∈ targetFronts) (hne : front ≠ []) :
    Scans (b ++ (front ++ n.chars) ++ b') [.variable n.text] := by
  have hstop : ∀ c ∈ b'.head?, isNameChar c = false := fun c hc =>
    eq_false_of_isBlank isPlain_of_isNameChar (hb' c (List.mem_of_mem_head? hc))
  have hafter : Token.afterState (n.chars ++ b') = n.chars ++ b' := by
    unfold Token.afterState
    split
    · rename_i more heq
      obtain ⟨c, name, hchars⟩ := List.exists_cons_of_ne_nil n.chars_ne_nil
      rw [hchars] at heq
      obtain ⟨rfl, -⟩ := List.cons.inj heq
      exact absurd (n.chars_isNameChar _ (hchars ▸ List.mem_cons_self)) (by decide)
    · rfl
  have hend : Scans b' [] := List.append_nil b' ▸ scans_nil.blanks hb'
  rw [List.append_assoc, List.append_assoc]
  refine Scans.blanks hb ?_
  simp only [targetFronts, List.mem_cons, List.not_mem_nil, or_false] at hfront
  rcases hfront with rfl | rfl | rfl | rfl
  · exact absurd rfl hne
  · exact .token rfl (n.readVariable_append .missingName hstop) hend
  · refine .token (c := 'S') rfl ?_ hend
    change Token.readVariable .missingStateName (Token.afterState (n.chars ++ b')) = _
    rw [hafter]
    exact n.readVariable_append .missingStateName hstop
  · exact .token (c := 'S') rfl (n.readVariable_append .missingStateName hstop) hend

/-- A name that does not start with a digit is a word. -/
theorem scans_word (hdigit : n.chars.head?.any Number.isDigit = false) :
    Scans (b ++ n.chars ++ b') [.word n.text] := by
  have hstop : ∀ c ∈ b'.head?, isBlank c = true := fun c hc => hb' c (List.mem_of_mem_head? hc)
  have hend : Scans b' [] := List.append_nil b' ▸ scans_nil.blanks hb'
  obtain ⟨c, more, hchars⟩ := List.exists_cons_of_ne_nil n.chars_ne_nil
  have hname : isNameChar c = true := n.chars_isNameChar c (hchars ▸ List.mem_cons_self)
  have hnumber : Token.startsNumber c (more ++ b') = false := by
    have hpoint : c ≠ '.' := by
      rintro rfl
      exact absurd hname (by decide)
    rw [hchars, List.head?_cons, Option.any_some] at hdigit
    simp [Token.startsNumber, hpoint, hdigit]
  have hdollar : c ≠ '$' := by
    rintro rfl
    exact absurd hname (by decide)
  have hspan : Token.spanName (c :: (more ++ b')) = (n.chars, b') := by
    have hrun : ∀ c ∈ b'.head?, isNameChar c = false := fun c hc =>
      eq_false_of_isBlank isPlain_of_isNameChar (hstop c hc)
    have happend : c :: (more ++ b') = n.chars ++ b' := by rw [hchars]; rfl
    rw [happend]
    exact Prod.ext (takeWhile_append_of_stop n.chars_isNameChar hrun)
      (dropWhile_append_of_stop n.chars_isNameChar hrun)
  have hread : Token.read c (more ++ b') = .ok (.word n.text, b') := by
    rw [Token.read, if_neg (by simp [hnumber]), if_neg hdollar, if_pos hname]
    refine Token.readWord_eq_word hspan fun _ rest heq => ?_
    exact absurd (hstop '.' (heq ▸ rfl)) (by decide)
  rw [List.append_assoc, hchars]
  exact .blanks hb (.token (Node.isBlank_of_isPlain (isPlain_of_isNameChar hname)) hread hend)

end Readings

theorem wordExpr_eq_var_iff (name : String) :
    wordExpr name = .var name ↔ name ≠ "true" ∧ name ≠ "false" := by
  unfold wordExpr
  split
  · rename_i h
    simp [h]
  · split <;> simp_all

/-- An expression can read the text as a variable, if it is one: it is neither of the words for true
and false, and it does not start with a digit. -/
def IsReadable (cs : List Char) : Prop :=
  cs ≠ "true".toList ∧ cs ≠ "false".toList ∧ cs.head?.any Number.isDigit = false

instance (cs : List Char) : Decidable (IsReadable cs) := inferInstanceAs (Decidable (_ ∧ _))

theorem isReadable_of_mem_targetFronts {front : List Char} (hfront : front ∈ targetFronts)
    (hne : front ≠ []) (name : List Char) : IsReadable (front ++ name) := by
  simp only [targetFronts, List.mem_cons, List.not_mem_nil, or_false] at hfront
  rcases hfront with rfl | rfl | rfl | rfl
  · exact absurd rfl hne
  all_goals
    refine ⟨fun heq => ?_, fun heq => ?_, rfl⟩
    · exact absurd (List.cons.inj heq).1 (by decide)
    · exact absurd (List.cons.inj heq).1 (by decide)

theorem parse_name_iff {b b' : List Char} (hb : Blanks b) (n : Name) (hb' : Blanks b') :
    Expr.parse (b ++ n.chars ++ b') = .ok (.var n.text) ↔ IsReadable n.chars := by
  cases hdigit : n.chars.head?.any Number.isDigit with
  | false =>
    have hparse := (scans_word hb n hb' hdigit).parse_eq (derives_word n.text)
    have hwords : wordExpr n.text = .var n.text ↔ n.chars ≠ "true".toList ∧
        n.chars ≠ "false".toList := by
      rw [wordExpr_eq_var_iff, Name.text, Ne, Ne, ← String.toList_inj, ← String.toList_inj,
        String.toList_ofList]
    rw [hparse, Except.ok.injEq, IsReadable, ← and_assoc, ← hwords]
    exact (and_iff_left hdigit).symm
  | true =>
    refine iff_of_false ?_ fun hreadable => Bool.false_ne_true (hreadable.2.2.symm.trans hdigit)
    obtain ⟨c, more, hchars⟩ := List.exists_cons_of_ne_nil n.chars_ne_nil
    rw [hchars, List.head?_cons, Option.any_some] at hdigit
    rw [hchars, List.append_assoc]
    exact parse_ne_var_of_isDigit hb hdigit _ _

/-- What names a target is read as the same variable by an expression if it can be read so. -/
theorem parse_eq_var_iff {cs name : List Char} (h : variableName? cs = some name) :
    Expr.parse cs = .ok (.var (String.ofList name)) ↔ IsReadable (Text.trim cs) := by
  obtain ⟨n, rfl, front, hfront, htrim⟩ := variableName?_eq_some h
  obtain ⟨b, b', hb, hb', hcs⟩ := Text.exists_blanks_trim cs
  rw [htrim] at hcs
  rw [htrim, hcs]
  by_cases hne : front = []
  · rw [hne, List.nil_append]
    exact parse_name_iff hb n hb'
  · exact iff_of_true ((scans_reference hb n hb' hfront hne).parse_eq (.var n.text))
      (isReadable_of_mem_targetFronts hfront hne n.chars)

/--
**The target of an action is the variable that its text reads in an expression, unless the text is a
word for true or false or starts with a digit.**
-/
theorem Assignment.parse_target_iff {l r : List Char} {a : Assignment}
    (h : Assignment.parse (l ++ " = ".toList ++ r) = .ok a) :
    Expr.parse l = .ok (.var a.target) ↔ IsReadable (Text.trim l) := by
  obtain ⟨-, name, hname, htarget⟩ := target_of_parse h
  rw [htarget]
  exact parse_eq_var_iff hname

/-- An expression reads the target of `State.$score = $lives` as the variable that is assigned. -/
theorem Assignment.parse_target_iff_score :
    Assignment.parse ("State.$score".toList ++ " = ".toList ++ "$lives".toList) =
        .ok ⟨"score", .set, .var "lives"⟩ ∧
      Expr.parse "State.$score".toList = .ok (.var "score") := by
  let score : Name := ⟨"score".toList, by decide, List.all_eq_true.mp rfl⟩
  let lives : Name := ⟨"lives".toList, by decide, List.all_eq_true.mp rfl⟩
  have hparse : Assignment.parse ("State.$score".toList ++ " = ".toList ++ "$lives".toList) =
      .ok ⟨"score", .set, .var "lives"⟩ :=
    (Formula.parse_spaced (.reference .dollar lives)
      (.cons (.reference .dollar lives) Text.blanks_nil (.nil Text.blanks_nil))).2.2 score .set
  exact ⟨hparse, (Assignment.parse_target_iff hparse).mpr (by decide)⟩

/-- An action assigns to `true`, which is no variable in an expression. -/
theorem Assignment.true_is_target :
    Assignment.parse ("true".toList ++ " = ".toList ++ "$lives".toList) =
        .ok ⟨"true", .set, .var "lives"⟩ ∧
      Expr.parse "true".toList ≠ .ok (.var "true") := by
  let lives : Name := ⟨"lives".toList, by decide, List.all_eq_true.mp rfl⟩
  have hvalue : Expr.parse " $lives".toList = .ok (.var "lives") :=
    (scans_reference Text.blanks_space lives Text.blanks_nil (by decide)
      (List.cons_ne_nil '$' [])).parse_eq (.var "lives")
  have hname : variableName? "true".toList = some "true".toList := rfl
  have hcut : Text.cutFirst? '=' (Text.trim ("true".toList ++ " = ".toList ++ "$lives".toList)) =
      some ("true ".toList, " $lives".toList) := rfl
  have htarget : variableName? (Assignment.operator "true ".toList).1 = some "true".toList := rfl
  have hhead : " $lives".toList.head? ≠ some '=' := by decide
  refine ⟨?_, fun hvar => (parse_eq_var_iff hname).mp hvar |>.1 rfl⟩
  rw [Assignment.parse, hcut]
  simp only [if_neg hhead]
  rw [htarget, hvalue]
  rfl

end PixelScene
