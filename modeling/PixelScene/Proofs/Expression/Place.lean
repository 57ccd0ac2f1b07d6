import PixelScene.Proofs.Expression.Lexeme

/-!
# Places of tokens

The scanner goes through a text once, from the front to the end, and looks past a token only to see
where it ends.

* `starts_of_scan`: the tokens of a text stand one behind the other in it.
* `Token.exists_front`: a token is read alike whatever follows, if a blank comes first.
* `Scans.cut`: the first tokens of a text go on with any tokens that a text consists of.

A position in the engine is a number of characters from the front of the text. What stands in front
of a position can be cut off and continued otherwise, and for this it has to be known where one
token ends and whether the cut went through it. A blank at the cut settles this.
-/

namespace PixelScene

/-! ## Where tokens stand -/

/-- What the scanner does with the first character of a text: it skips a blank, and otherwise reads
a token from there. -/
theorem scan_cons_eq_ok {total : Nat} {c : Char} {rest : List Char} {ls : List Located}
    (h : Token.scan total (c :: rest) = .ok ls) :
    (Text.isBlank c = true ∧ Token.scan total rest = .ok ls) ∨
      (Text.isBlank c = false ∧ ∃ token more ls', Token.read c rest = .ok (token, more) ∧
        Token.scan total more = .ok ls' ∧ ls = ⟨total - (c :: rest).length, token⟩ :: ls') := by
  rw [Token.scan.eq_def] at h
  dsimp only at h
  split at h
  · rename_i hblank
    exact .inl ⟨hblank, h⟩
  · rename_i hsolid
    refine .inr ⟨Bool.eq_false_iff.mpr hsolid, ?_⟩
    split at h
    · cases h
    · rename_i token more hread
      cases hmore : Token.scan total more with
      | error e =>
        rw [hmore] at h
        cases h
      | ok ls' =>
        rw [hmore] at h
        exact ⟨token, more, ls', hread, hmore, (Except.ok.inj h).symm⟩

/-- The tokens of a text stand in order, each inside the text. -/
theorem starts_of_scan {total : Nat} {cs : List Char} {ls : List Located} (hcs : cs.length ≤ total)
    (h : Token.scan total cs = .ok ls) :
    ls.Pairwise (fun t u => t.start < u.start) ∧
      ∀ t ∈ ls, total - cs.length ≤ t.start ∧ t.start < total := by
  match cs with
  | [] =>
    rw [Token.scan.eq_def] at h
    obtain rfl := Except.ok.inj h
    exact ⟨.nil, fun t ht => absurd ht List.not_mem_nil⟩
  | c :: rest =>
    rw [List.length_cons] at hcs
    rcases scan_cons_eq_ok h with ⟨-, hrest⟩ | ⟨-, token, more, ls', hread, hmore, rfl⟩
    · obtain ⟨hsorted, hinside⟩ := starts_of_scan (by omega) hrest
      refine ⟨hsorted, fun t ht => ?_⟩
      have hstart := hinside t ht
      rw [List.length_cons]
      omega
    · have hshorter : more.length ≤ rest.length := Nat.lt_succ_iff.mp (Token.read_shorter hread)
      rw [List.length_cons]
      obtain ⟨hsorted, hinside⟩ := starts_of_scan (by omega) hmore
      have hbehind : ∀ t ∈ ls', total - (rest.length + 1) < t.start ∧ t.start < total := by
        intro t ht
        have hstart := hinside t ht
        omega
      refine ⟨List.pairwise_cons.mpr ⟨fun t ht => (hbehind t ht).1, hsorted⟩,
        List.forall_mem_cons.mpr ⟨⟨Nat.le_refl _, ?_⟩, fun t ht => ?_⟩⟩
      · simp only
        omega
      · exact ⟨Nat.le_of_lt (hbehind t ht).1, (hbehind t ht).2⟩
termination_by cs.length

/-! ## Cutting a text behind a token -/

namespace Token

variable {c : Char} {cs rest tail : List Char} {t : Token}

/-- A run of characters of which none is blank ends before a blank. -/
theorem takeWhile_append_dropWhile_tail {p : Char → Bool}
    (hp : ∀ {c}, p c = true → Node.isPlain c = true) (cs : List Char)
    (htail : ∀ c ∈ tail.head?, Text.isBlank c = true) :
    (cs.takeWhile p ++ tail).takeWhile p = cs.takeWhile p ∧
      (cs.takeWhile p ++ tail).dropWhile p = tail := by
  have hrun : ∀ c ∈ cs.takeWhile p, p c = true := fun c hc => List.mem_takeWhile_imp hc
  have hstop : ∀ c ∈ tail.head?, p c = false := fun c hc => eq_false_of_isBlank hp (htail c hc)
  exact ⟨takeWhile_append_of_stop hrun hstop, dropWhile_append_of_stop hrun hstop⟩

theorem exists_front_readVariable {missing : ExprFault}
    (h : readVariable missing cs = .ok (t, rest)) : ∃ used, cs = used ++ rest ∧
      ∀ tail : List Char, (∀ c ∈ tail.head?, Text.isBlank c = true) →
        readVariable missing (used ++ tail) = .ok (t, tail) := by
  have hcut : cs.takeWhile isNameChar ++ cs.dropWhile isNameChar = cs :=
    List.takeWhile_append_dropWhile
  cases hname : cs.takeWhile isNameChar with
  | nil =>
    rw [readVariable, spanName, hname] at h
    cases h
  | cons c name =>
    rw [readVariable, spanName, hname] at h
    obtain ⟨rfl, rfl⟩ := Prod.mk.inj (Except.ok.inj h)
    refine ⟨cs.takeWhile isNameChar, hcut.symm, fun tail htail => ?_⟩
    obtain ⟨htake, hdrop⟩ := takeWhile_append_dropWhile_tail isPlain_of_isNameChar cs htail
    rw [readVariable, spanName, htake, hdrop, hname]

theorem readWord_eq_variable {more : List Char} (h : spanName cs = ("State".toList, '.' :: more)) :
    readWord cs = readVariable .missingStateName (afterState more) := by
  rw [readWord, h]
  exact if_pos rfl

theorem readWord_eq_word {name : List Char} (h : spanName cs = (name, rest))
    (hstate : name = "State".toList → ∀ more, rest ≠ '.' :: more) :
    readWord cs = .ok (.word (String.ofList name), rest) := by
  rw [readWord, h]
  split
  · rename_i name' more heq
    obtain ⟨rfl, rfl⟩ := Prod.mk.inj heq
    exact if_neg fun hname => hstate hname more rfl
  · rename_i heq
    obtain ⟨rfl, rfl⟩ := Prod.mk.inj heq
    rfl

/-- The mark that may stand between `State.` and a name. -/
theorem exists_mark_afterState (cs : List Char) : ∃ mark, cs = mark ++ afterState cs ∧
    ∀ us : List Char, (us.head? = some '$' → (afterState cs).head? = some '$') →
      afterState (mark ++ us) = us := by
  unfold afterState
  split
  · exact ⟨['$'], rfl, fun us _ => rfl⟩
  · rename_i hmark
    refine ⟨[], rfl, fun us hus => ?_⟩
    rw [List.nil_append]
    split
    · obtain ⟨more, hmore⟩ := List.head?_eq_some_iff.mp (hus rfl)
      exact absurd hmore (hmark more)
    · rfl

theorem exists_front_readWord (h : readWord cs = .ok (t, rest)) : ∃ used, cs = used ++ rest ∧
    ∀ tail : List Char, (∀ c ∈ tail.head?, Text.isBlank c = true) →
      readWord (used ++ tail) = .ok (t, tail) := by
  have hcut : cs.takeWhile isNameChar ++ cs.dropWhile isNameChar = cs :=
    List.takeWhile_append_dropWhile
  by_cases hstate : cs.takeWhile isNameChar = "State".toList ∧
      ∃ more, cs.dropWhile isNameChar = '.' :: more
  · obtain ⟨hname, more, hmore⟩ := hstate
    rw [readWord_eq_variable (Prod.ext hname hmore)] at h
    obtain ⟨name, hafter, htail⟩ := exists_front_readVariable h
    obtain ⟨mark, hmark, hskip⟩ := exists_mark_afterState more
    refine ⟨"State".toList ++ '.' :: (mark ++ name), ?_, fun tail hblank => ?_⟩
    · rw [← hcut, hname, hmore, hmark, hafter]
      simp
    · have hspan : spanName ("State".toList ++ '.' :: (mark ++ name) ++ tail) =
          ("State".toList, '.' :: (mark ++ (name ++ tail))) := by
        rw [List.append_assoc, List.cons_append, List.append_assoc]
        have hrun : ∀ c ∈ "State".toList, isNameChar c = true := List.all_eq_true.mp rfl
        have hstop : ∀ c ∈ ('.' :: (mark ++ (name ++ tail))).head?, isNameChar c = false := by
          rintro c ⟨⟩
          rfl
        exact Prod.ext (takeWhile_append_of_stop hrun hstop) (dropWhile_append_of_stop hrun hstop)
      rw [readWord_eq_variable hspan, hskip]
      · exact htail tail hblank
      · intro hdollar
        rw [hafter]
        cases name with
        | nil => exact absurd (hblank '$' hdollar) (by decide)
        | cons c name => exact hdollar
  · have hword : readWord cs =
        .ok (.word (String.ofList (cs.takeWhile isNameChar)), cs.dropWhile isNameChar) :=
      readWord_eq_word rfl fun hname more hmore => hstate ⟨hname, more, hmore⟩
    obtain ⟨rfl, rfl⟩ := Prod.mk.inj (Except.ok.inj (hword.symm.trans h))
    refine ⟨cs.takeWhile isNameChar, hcut.symm, fun tail hblank => ?_⟩
    obtain ⟨htake, hdrop⟩ := takeWhile_append_dropWhile_tail isPlain_of_isNameChar cs hblank
    refine readWord_eq_word (Prod.ext htake hdrop) fun _ more hpoint => ?_
    exact absurd (hblank '.' (by rw [hpoint]; rfl)) (by decide)

theorem exists_front_readSign (h : readSign c cs = .ok (t, rest)) : ∃ used, cs = used ++ rest ∧
    ∀ tail : List Char, (∀ c ∈ tail.head?, Text.isBlank c = true) →
      readSign c (used ++ tail) = .ok (t, tail) := by
  have halone : ∀ tail : List Char, (∀ c ∈ tail.head?, Text.isBlank c = true) →
      ∀ more, tail ≠ '=' :: more := by
    rintro tail hblank more rfl
    exact absurd (hblank '=' rfl) (by decide)
  unfold readSign at h
  split at h
  all_goals simp only [Except.ok.injEq, Prod.mk.injEq, reduceCtorEq] at h
  all_goals obtain ⟨rfl, rfl⟩ := h
  case h_7 => exact ⟨[], rfl, fun tail hblank => (readSign_alone (halone tail hblank)).1⟩
  case h_8 => exact ⟨[], rfl, fun tail hblank => (readSign_alone (halone tail hblank)).2.1⟩
  case h_11 => exact ⟨[], rfl, fun tail hblank => (readSign_alone (halone tail hblank)).2.2⟩
  all_goals first
    | exact ⟨[_], rfl, fun tail _ => rfl⟩
    | exact ⟨[], rfl, fun tail _ => rfl⟩

theorem isNumberChar_of_startsNumber (h : startsNumber c cs = true) : isNumberChar c = true := by
  simp only [startsNumber, Bool.or_eq_true, Bool.and_eq_true] at h
  simp only [isNumberChar, Bool.or_eq_true]
  exact h.imp id And.left

/-- What starts a number does so with the characters of the number alone. -/
theorem startsNumber_takeWhile (h : startsNumber c cs = true) (tail : List Char) :
    startsNumber c (cs.takeWhile isNumberChar ++ tail) = true := by
  simp only [startsNumber, Bool.or_eq_true, Bool.and_eq_true] at h ⊢
  refine h.imp id (And.imp_right fun hdigit => ?_)
  cases cs with
  | nil => cases hdigit
  | cons d cs =>
    have hd : isNumberChar d = true := by
      rw [isNumberChar, Bool.or_eq_true]
      exact .inl hdigit
    rwa [List.takeWhile_cons_of_pos hd]

theorem exists_front_number (hstarts : startsNumber c cs = true)
    (h : read c cs = .ok (t, rest)) : ∃ used, cs = used ++ rest ∧
      ∀ tail : List Char, (∀ c ∈ tail.head?, Text.isBlank c = true) →
        read c (used ++ tail) = .ok (t, tail) := by
  have hc := isNumberChar_of_startsNumber hstarts
  rw [read, if_pos hstarts, List.takeWhile_cons_of_pos hc, List.dropWhile_cons_of_pos hc] at h
  split at h
  · rename_i value hvalue
    obtain ⟨rfl, rfl⟩ := Prod.mk.inj (Except.ok.inj h)
    refine ⟨cs.takeWhile isNumberChar, List.takeWhile_append_dropWhile.symm, fun tail hblank => ?_⟩
    obtain ⟨htake, hdrop⟩ := takeWhile_append_dropWhile_tail isPlain_of_isNumberChar cs hblank
    rw [read, if_pos (startsNumber_takeWhile hstarts tail), List.takeWhile_cons_of_pos hc,
      List.dropWhile_cons_of_pos hc, htake, hdrop, hvalue]
  · cases h

/-- **A token is read alike whatever follows, if a blank comes first.** -/
theorem exists_front (h : read c cs = .ok (t, rest)) : ∃ used, cs = used ++ rest ∧
    ∀ tail : List Char, (∀ c ∈ tail.head?, Text.isBlank c = true) →
      read c (used ++ tail) = .ok (t, tail) := by
  by_cases hstarts : startsNumber c cs = true
  · exact exists_front_number hstarts h
  · have hpoint : c ≠ '.' := by
      rintro rfl
      rw [read, if_neg hstarts] at h
      cases h
    have hnumber : ∀ cs, startsNumber c cs ≠ true := by
      simp only [startsNumber, beq_eq_false_iff_ne.mpr hpoint, Bool.false_and, Bool.or_false]
        at hstarts ⊢
      exact fun _ => hstarts
    rw [read, if_neg hstarts] at h
    split at h
    · rename_i hdollar
      obtain ⟨used, rfl, htail⟩ := exists_front_readVariable h
      refine ⟨used, rfl, fun tail hblank => ?_⟩
      rw [read, if_neg (hnumber _), if_pos hdollar]
      exact htail tail hblank
    · rename_i hdollar
      split at h
      · rename_i hname
        obtain ⟨used, hused, htail⟩ := exists_front_readWord h
        cases used with
        | nil =>
          have hshorter := readWord_shorter hname h
          rw [hused] at hshorter
          exact absurd hshorter (Nat.lt_irrefl _)
        | cons d used =>
          obtain ⟨rfl, rfl⟩ := List.cons.inj hused
          refine ⟨used, rfl, fun tail hblank => ?_⟩
          rw [read, if_neg (hnumber _), if_neg hdollar, if_pos hname]
          exact htail tail hblank
      · rename_i hname
        obtain ⟨used, rfl, htail⟩ := exists_front_readSign h
        refine ⟨used, rfl, fun tail hblank => ?_⟩
        rw [read, if_neg (hnumber _), if_neg hdollar, if_neg hname]
        exact htail tail hblank

end Token

/-- A token of a text is the first of a text that goes on otherwise. -/
theorem Scans.front {c : Char} {cs rest : List Char} {t : Token} (hc : Text.isBlank c = false)
    (hread : Token.read c cs = .ok (t, rest)) : ∃ front, ∀ (tail : List Char) (ts : List Token),
      Scans tail ts → Scans (front ++ tail) (t :: ts) := by
  obtain ⟨used, -, htail⟩ := Token.exists_front hread
  refine ⟨c :: (used ++ [' ']), fun tail ts hts => ?_⟩
  rw [List.cons_append, List.append_assoc]
  refine .token hc (htail ([' '] ++ tail) ?_) (hts.blanks Text.blanks_space)
  rintro c ⟨⟩
  rfl

/-- **The first tokens of a text go on with any tokens that a text consists of.** -/
theorem Scans.cut {total : Nat} {cs : List Char} {ls : List Located}
    (h : Token.scan total cs = .ok ls) (k : Nat) : ∃ front, ∀ (tail : List Char) (ts : List Token),
      Scans tail ts → Scans (front ++ tail) ((ls.map Located.token).take k ++ ts) := by
  match cs, k with
  | [], k =>
    rw [Token.scan.eq_def] at h
    obtain rfl := Except.ok.inj h
    exact ⟨[], fun tail ts hts => by simpa using hts⟩
  | c :: rest, 0 => exact ⟨[], fun tail ts hts => hts⟩
  | c :: rest, k + 1 =>
    rcases scan_cons_eq_ok h with ⟨-, hrest⟩ | ⟨hsolid, token, more, ls', hread, hmore, rfl⟩
    · exact Scans.cut hrest (k + 1)
    · have hshorter : more.length ≤ rest.length := Nat.lt_succ_iff.mp (Token.read_shorter hread)
      obtain ⟨first, hfirst⟩ := Scans.front hsolid hread
      obtain ⟨front, hfront⟩ := Scans.cut hmore k
      refine ⟨first ++ front, fun tail ts hts => ?_⟩
      rw [List.append_assoc]
      exact hfirst _ _ (hfront tail ts hts)
termination_by cs.length

/-- Some text consists of any given lexemes. -/
theorem exists_scans_lexemes (ls : List Lexeme) : ∃ cs, Scans cs (ls.map Lexeme.token) := by
  induction ls with
  | nil => exact ⟨[], scans_nil⟩
  | cons l ls ih =>
    obtain ⟨cs, hcs⟩ := ih
    have hends : l.EndsBefore (' ' :: cs).head? := l.endsBefore_of_isBlank rfl
    obtain ⟨c, more, htext, hc, hread⟩ := l.read_text hends
    exact ⟨c :: more, .token hc hread (hcs.blanks Text.blanks_space)⟩

end PixelScene
