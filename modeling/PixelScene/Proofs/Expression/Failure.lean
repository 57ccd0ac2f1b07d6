import PixelScene.Proofs.Expression.Grammar
import PixelScene.Proofs.Expression.Place

/-!
# Where an expression goes wrong

The reader of expressions stops at the first token with which nothing that was read so far can go
on: the tokens in front of it begin an expression, and with it they begin none.

* `Yields.swap`: what a reader takes off the front of some tokens does not depend on what follows
  the next token.
* `Stuck`: what is known where a reader fails; `stuck_of_chain` is the induction over the readers.
* `parse_error_place`: the place of an error in a text.

The position that is reported is the position of a token, or of the end of the text. The engine
finds it without looking back: a function for a level of operators fails where its first operand
does, or behind an operator, or at a parenthesis that does not close. That no token before it could
have been the wrong one needs the grammar, since it speaks of every text that could have followed.
-/

namespace PixelScene

/-! ## Looking at one token only -/

section Swap

variable {stop : Nat}

theorem NoOperator.congr {level : Nat} {ts us : List Located} (hhead : us.head? = ts.head?)
    (h : NoOperator level ts) : NoOperator level us := by
  rintro start s more rfl
  cases ts with
  | nil => cases hhead
  | cons t ts =>
    obtain rfl : (⟨start, .symbol s⟩ : Located) = t := Option.some.inj hhead
    exact h start s ts rfl

mutual

/-- A reader goes on as long as an operator of its level or of a tighter one follows. -/
theorem noOperator_of_chain {n : Nat} {ts : List Located} {r : Expr × List Located}
    (h : Yields (chain stop n ts) r) : ∀ level ≤ n, NoOperator level r.2 := by
  match n with
  | 0 =>
    rintro level hlevel start s more -
    obtain rfl := Nat.le_zero.mp hlevel
    rfl
  | n + 1 =>
    obtain ⟨lhs, rest, hlhs, hrest⟩ := yields_chain_succ_iff.mp h
    have hlt : rest.length < ts.length := hlhs.choose
    exact noOperator_of_chainRest hrest (noOperator_of_chain hlhs)
termination_by (ts.length, n + 1)

theorem noOperator_of_chainRest {n : Nat} {lhs : Expr} {ts : List Located}
    {r : Expr × List Located} (h : Yields (chainRest stop n lhs ts) r)
    (hts : ∀ level ≤ n, NoOperator level ts) : ∀ level ≤ n + 1, NoOperator level r.2 := by
  rcases noOperator_or_join (n + 1) ts with hnone | ⟨start, s, op, more, heq, hop⟩
  · obtain rfl := (yields_chainRest_stop_iff hnone).mp h
    intro level hlevel
    rcases Nat.le_succ_iff.mp hlevel with hle | rfl
    · exact hts level hle
    · exact hnone
  · have hmore : more.length < ts.length := by simp [heq]
    rw [heq] at h
    obtain ⟨rhs, rest, hrhs, hrest⟩ := (yields_chainRest_join_iff hop).mp h
    have hlt : rest.length < ts.length := Nat.lt_trans hrhs.choose hmore
    exact noOperator_of_chainRest hrest (noOperator_of_chain hrhs)
termination_by (ts.length, 0)

end

theorem level_ofLevel {n : Nat} (h : n ≤ topLevel) : (Phrase.ofLevel n).level = n := by
  match n, h with
  | 0, _ | 1, _ | 2, _ | 3, _ | 4, _ => rfl

/-- What is read off the front of some tokens is read whatever follows the next token. -/
theorem Yields.swap {n : Nat} (hn : n ≤ topLevel) {ts rest : List Located} {e : Expr}
    (h : Yields (chain stop n ts) (e, rest)) : ∃ used, ts = used ++ rest ∧
      Derives (.ofLevel n) (used.map Located.token) e ∧
      ∀ rest', rest'.head? = rest.head? → Yields (chain stop n (used ++ rest')) (e, rest') := by
  obtain ⟨used, rfl, hused⟩ := sound_chain h
  refine ⟨used, rfl, hused, fun rest' hhead => ?_⟩
  have hnone : ∀ level ≤ (Phrase.ofLevel n).level, NoOperator level rest' := by
    rw [level_ofLevel hn]
    exact fun level hlevel => (noOperator_of_chain h level hlevel).congr hhead
  have hread : Yields (chain stop (Phrase.ofLevel n).level (used ++ rest')) (e, rest') :=
    hused.complete rfl (fun level hlt => hnone level (Nat.le_of_lt hlt))
      (resumes_of_noOperator (hnone _ (Nat.le_refl _)))
  rwa [level_ofLevel hn] at hread

end Swap

/-! ## Failing -/

/-- What is known of a reader that goes on with a phrase of kind `p` behind the tokens `before`,
when it fails on `ts` with an error at `position`. It fails behind some tokens that lexemes can
complete to such a phrase, and it reads nothing that starts with these tokens and the next one. -/
def Stuck (stop : Nat) (p : Phrase) (before : List Token) (reads : List Located → Prop)
    (ts : List Located) (position : Nat) : Prop :=
  ∃ used rest, ts = used ++ rest ∧ position = place stop rest ∧
    (∃ (filler : List Lexeme) (e : Expr),
      Derives p (before ++ used.map Located.token ++ filler.map Lexeme.token) e) ∧
    ∀ t, rest.head? = some t → ∀ more, ¬ reads (used ++ t :: more)

section Failing

variable {stop : Nat} {p q : Phrase} {before after : List Token}
  {reads reads' : List Located → Prop} {ts rest : List Located} {position : Nat}

/-- A reader is stuck where a reader is that it calls. -/
theorem Stuck.calls (h : Stuck stop q after reads' rest position) (used : List Located)
    (hderives : ∀ us (filler : List Lexeme) e,
      Derives q (after ++ us ++ filler.map Lexeme.token) e → ∃ (filler' : List Lexeme) (e' : Expr),
        Derives p (before ++ (used.map Located.token ++ us) ++ filler'.map Lexeme.token) e')
    (hreads : ∀ us, us.head? = rest.head? → reads (used ++ us) → reads' us) :
    Stuck stop p before reads (used ++ rest) position := by
  obtain ⟨used', rest', rfl, hposition, ⟨filler, e, hfiller⟩, hstuck⟩ := h
  refine ⟨used ++ used', rest', (List.append_assoc ..).symm, hposition, ?_, fun t ht more h => ?_⟩
  · rw [List.map_append]
    exact hderives _ filler e hfiller
  · rw [List.append_assoc] at h
    refine hstuck t ht more (hreads _ ?_ h)
    rw [List.head?_append, List.head?_append, ht]
    rfl

/-- A number can stand for any operand. -/
theorem exists_operand : ∃ (filler : List Lexeme) (e : Expr),
    Derives .unary (filler.map Lexeme.token) e :=
  let zero : Literal :=
    ⟨['0'], none, List.cons_ne_nil _ _, List.all_eq_true.mp rfl, List.all_eq_true.mp rfl⟩
  ⟨[.literal zero], _, .pass rfl (.number _)⟩

/-- Where an operand is missing, a number goes on. -/
theorem Stuck.operand (h : ∀ t, ts.head? = some t → ∀ more, ¬ reads (t :: more)) :
    Stuck stop .unary [] reads ts (place stop ts) :=
  ⟨[], ts, rfl, rfl, exists_operand, h⟩

/-- A closing parenthesis, or an operator that is no prefix sign. -/
def Token.startsNoFactor : Token → Bool
  | .closeParen => true
  | .symbol s => s ≠ .bang && s ≠ .minus
  | _ => false

/-- A prefix sign. -/
def Token.isSign : Token → Bool
  | .symbol s => s = .bang || s = .minus
  | _ => false

theorem not_yields_factor {t : Located} (h : t.token.startsNoFactor = true) {more : List Located}
    {r : Expr × List Located} : ¬ Yields (factor stop (t :: more)) r := by
  obtain ⟨start, token⟩ := t
  cases token with
  | closeParen =>
    rw [factor]
    exact not_yields_throw
  | symbol s =>
    simp only [Token.startsNoFactor, ne_eq, Bool.and_eq_true, decide_eq_true_eq] at h
    rw [factor]
    · exact not_yields_throw
    · exact h.1
    · exact h.2
  | _ => cases h

theorem yields_factor_sign {t : Located} (h : t.token.isSign = true) {more : List Located}
    {r : Expr × List Located} (hr : Yields (factor stop (t :: more)) r) :
    ∃ r', Yields (factor stop more) r' := by
  obtain ⟨start, token⟩ := t
  cases token with
  | symbol s =>
    simp only [Token.isSign, Bool.or_eq_true, decide_eq_true_eq] at h
    rcases h with rfl | rfl
    · exact (yields_factor_bang_iff.mp hr).imp fun _ hr' => hr'.1
    · exact (yields_factor_minus_iff.mp hr).imp fun _ hr' => hr'.1
  | _ => cases h

theorem derives_sign {t : Token} (h : t.isSign = true) {ts : List Token} {e : Expr}
    (hts : Derives .unary ts e) : ∃ e', Derives .unary (t :: ts) e' := by
  cases t with
  | symbol s =>
    simp only [Token.isSign, Bool.or_eq_true, decide_eq_true_eq] at h
    rcases h with rfl | rfl
    · exact ⟨_, .not hts⟩
    · exact ⟨_, .neg hts⟩
  | _ => cases h

/-- A step that only rearranges what the step before it returns fails with that step. -/
theorem eq_error_of_map {α β : Type} {x : Except ExprError α} {f : α → β} {e : ExprError}
    (h : (do let a ← x; return f a) = Except.error e) : x = .error e := by
  rcases bind_eq_error_iff.mp h with hx | ⟨_, _, hpure⟩
  · exact hx
  · cases hpure

/-- A symbol is a prefix sign, behind which the reader fails, or the reader fails at it. -/
theorem factor_symbol_eq_error {start : Nat} {s : Symbol} {more : List Located} {e : ExprError}
    (h : factor stop (⟨start, .symbol s⟩ :: more) = .error e) :
    ((Token.symbol s).startsNoFactor = true ∧ e.position = start) ∨
      ((Token.symbol s).isSign = true ∧ factor stop more = .error e) := by
  by_cases hbang : s = .bang
  · subst hbang
    rw [factor] at h
    exact .inr ⟨rfl, eq_error_of_map h⟩
  · by_cases hminus : s = .minus
    · subst hminus
      rw [factor] at h
      exact .inr ⟨rfl, eq_error_of_map h⟩
    · have hstarts : (Token.symbol s).startsNoFactor = true := by
        simp [Token.startsNoFactor, hbang, hminus]
      rw [factor] at h
      · exact .inl ⟨hstarts, congrArg ExprError.position (Except.error.inj h).symm⟩
      · exact hbang
      · exact hminus

/-- Behind an opening parenthesis the reader of chains fails, or no parenthesis closes. -/
theorem factor_openParen_eq_error {start : Nat} {more : List Located} {e : ExprError}
    (h : factor stop (⟨start, .openParen⟩ :: more) = .error e) :
    chain stop topLevel more = .error e ∨
      ∃ inner rest, Yields (chain stop topLevel more) (inner, rest) ∧
        (∀ start after, rest ≠ ⟨start, .closeParen⟩ :: after) ∧ e.position = place stop rest := by
  rw [factor] at h
  rcases bind_eq_error_iff_yields.mp h with hinner | ⟨⟨inner, rest⟩, _, hinner, hclose⟩
  · exact .inl hinner
  · refine .inr ⟨inner, rest, hinner, ?_⟩
    dsimp only at hclose
    split at hclose
    · cases hclose
    · rename_i hne
      refine ⟨?_, congrArg ExprError.position (Except.error.inj hclose).symm⟩
      rintro start after rfl
      exact hne start after _ rfl HEq.rfl

/-- How the reader of factors fails on some tokens: at the first of them, or as a reader that it
calls does, or because a parenthesis is not closed. -/
theorem factor_eq_error {t : Located} {more : List Located} {e : ExprError}
    (h : factor stop (t :: more) = .error e) :
    (t.token.startsNoFactor = true ∧ e.position = t.start) ∨
      (t.token.isSign = true ∧ factor stop more = .error e) ∨
      (t.token = .openParen ∧ (chain stop topLevel more = .error e ∨
        ∃ inner rest, Yields (chain stop topLevel more) (inner, rest) ∧
          (∀ start after, rest ≠ ⟨start, .closeParen⟩ :: after) ∧
          e.position = place stop rest)) := by
  obtain ⟨start, token⟩ := t
  cases token with
  | closeParen =>
    rw [factor] at h
    exact .inl ⟨rfl, congrArg ExprError.position (Except.error.inj h).symm⟩
  | symbol s => exact (factor_symbol_eq_error h).imp_right .inl
  | openParen => exact .inr (.inr ⟨rfl, factor_openParen_eq_error h⟩)
  | _ =>
    rw [factor] at h
    cases h

mutual

theorem stuck_of_chain {n : Nat} (hn : n ≤ topLevel) {ts : List Located} {e : ExprError}
    (h : chain stop n ts = .error e) :
    Stuck stop (.ofLevel n) [] (fun ts => ∃ r, Yields (chain stop n ts) r) ts e.position := by
  match n with
  | 0 =>
    rw [chain] at h
    refine (stuck_of_factor h).calls [] (fun us filler e h => ⟨filler, e, h⟩) ?_
    rintro us - ⟨r, hr⟩
    exact ⟨r, yields_chain_zero_iff.mp hr⟩
  | n + 1 =>
    have hle : n ≤ topLevel := Nat.le_of_succ_le hn
    rw [chain] at h
    rcases bind_eq_error_iff_yields.mp h with hlhs | ⟨⟨lhs, rest⟩, hlt, hlhs, hrest⟩
    · refine (stuck_of_chain hle hlhs).calls []
        (fun us filler e h => ⟨filler, e, h.succ⟩) ?_
      rintro us - ⟨r, hr⟩
      obtain ⟨lhs, rest, hlhs, -⟩ := yields_chain_succ_iff.mp hr
      exact ⟨_, hlhs⟩
    · obtain ⟨used, rfl, hused, hswap⟩ := hlhs.swap hle
      have hrest : chainRest stop n lhs rest = .error e := by
        rcases bind_eq_error_iff.mp hrest with hrest | ⟨_, _, hpure⟩
        · exact hrest
        · cases hpure
      have hlt : rest.length < (used ++ rest).length := hlt
      refine (stuck_of_chainRest hn hused.succ hrest).calls used
        (fun us filler e h => ⟨filler, e, h⟩) ?_
      rintro us hhead ⟨r, hr⟩
      obtain ⟨lhs', rest', hlhs', hrest'⟩ := yields_chain_succ_iff.mp hr
      obtain ⟨rfl, rfl⟩ := Prod.mk.inj (hlhs'.unique (hswap us hhead))
      exact ⟨r, hrest'⟩
termination_by (ts.length, n + 1)

theorem stuck_of_chainRest {n : Nat} (hn : n + 1 ≤ topLevel) {lhs : Expr} {before : List Token}
    {ts : List Located} {e : ExprError} (hlhs : Derives (.ofLevel (n + 1)) before lhs)
    (h : chainRest stop n lhs ts = .error e) :
    Stuck stop (.ofLevel (n + 1)) before (fun ts => ∃ r, Yields (chainRest stop n lhs ts) r) ts
      e.position := by
  rcases noOperator_or_join (n + 1) ts with hnone | ⟨start, s, op, more, rfl, hop⟩
  · have hstop : Yields (chainRest stop n lhs ts) (lhs, ts) :=
      (yields_chainRest_stop_iff hnone).mpr rfl
    obtain ⟨_, hok⟩ := hstop
    cases h.symm.trans hok
  · obtain ⟨operator, tighter⟩ := operator?_ofLevel hop
    have hle : n ≤ topLevel := Nat.le_of_succ_le hn
    rw [chainRest, hop] at h
    rcases bind_eq_error_iff_yields.mp h with hrhs | ⟨⟨rhs, rest⟩, hlt, hrhs, hrest⟩
    · refine (stuck_of_chain hle hrhs).calls [⟨start, .symbol s⟩] ?_ ?_
      · intro us filler e h
        exact ⟨filler, _, by simpa using Derives.join operator tighter hlhs h⟩
      · rintro us - ⟨r, hr⟩
        obtain ⟨rhs, rest, hrhs, -⟩ := (yields_chainRest_join_iff hop).mp hr
        exact ⟨_, hrhs⟩
    · obtain ⟨operand, rfl, hoperand, hswap⟩ := hrhs.swap hle
      have hrest : chainRest stop n (.binary op lhs rhs) rest = .error e := by
        rcases bind_eq_error_iff.mp hrest with hrest | ⟨_, _, hpure⟩
        · exact hrest
        · cases hpure
      have hlt : rest.length < (operand ++ rest).length := hlt
      refine (stuck_of_chainRest hn (.join operator tighter hlhs hoperand) hrest).calls
        (⟨start, .symbol s⟩ :: operand) ?_ ?_
      · intro us filler e h
        exact ⟨filler, e, by simpa using h⟩
      · rintro us hhead ⟨r, hr⟩
        obtain ⟨rhs', rest', hrhs', hrest'⟩ := (yields_chainRest_join_iff hop).mp hr
        obtain ⟨rfl, rfl⟩ := Prod.mk.inj (hrhs'.unique (hswap us hhead))
        exact ⟨r, hrest'⟩
termination_by (ts.length, 0)

theorem stuck_of_factor {ts : List Located} {e : ExprError} (h : factor stop ts = .error e) :
    Stuck stop .unary [] (fun ts => ∃ r, Yields (factor stop ts) r) ts e.position := by
  match ts with
  | [] =>
    rw [factor] at h
    obtain rfl := Except.error.inj h
    refine .operand fun t ht => ?_
    cases ht
  | t :: more =>
    rcases factor_eq_error h with ⟨hstarts, hposition⟩ | ⟨hsign, herror⟩ | ⟨hopen, herror⟩
    · rw [hposition]
      refine .operand fun t' ht' more' => ?_
      obtain rfl := Option.some.inj ht'
      exact fun ⟨r, hr⟩ => not_yields_factor hstarts hr
    · refine (stuck_of_factor herror).calls [t]
        (fun us filler e h => ⟨filler, derives_sign hsign h⟩) ?_
      exact fun us _ ⟨r, hr⟩ => yields_factor_sign hsign hr
    · obtain ⟨start, token⟩ := t
      obtain rfl : token = .openParen := hopen
      rcases herror with herror | ⟨inner, rest, hinner, hclose, hposition⟩
      · refine (stuck_of_chain (Nat.le_refl _) herror).calls [⟨start, .openParen⟩] ?_ ?_
        · intro us filler e h
          have hparens := Derives.pass (p := .unary) rfl (Derives.parens h)
          exact ⟨filler ++ [.closeParen], e, by simpa [Lexeme.token] using hparens⟩
        · rintro us - ⟨r, hr⟩
          obtain ⟨_, hinner⟩ := yields_factor_open_iff.mp hr
          exact ⟨_, hinner⟩
      · obtain ⟨used, rfl, hused, hswap⟩ := hinner.swap (Nat.le_refl _)
        refine ⟨⟨start, .openParen⟩ :: used, rest, rfl, hposition, ⟨[.closeParen], inner, ?_⟩, ?_⟩
        · exact .pass rfl (.parens hused)
        · rintro t ht more ⟨r, hr⟩
          obtain ⟨start', hr'⟩ := yields_factor_open_iff.mp hr
          have heq := (Prod.mk.inj (hr'.unique (hswap (t :: more) ht.symm))).2
          obtain ⟨after, rfl⟩ := List.head?_eq_some_iff.mp ht
          exact hclose start' after (by rw [(List.cons.inj heq).1])
termination_by (ts.length, 0)

end

/-- A list of tokens that is no expression as a whole. -/
theorem stuck_of_ofTokens {e : ExprError} (hts : ts ≠ []) (h : Expr.ofTokens stop ts = .error e) :
    Stuck stop .or [] (fun ts => ∃ e, Yields (chain stop topLevel ts) (e, [])) ts e.position := by
  rw [Expr.ofTokens, List.isEmpty_eq_false_iff.mpr hts] at h
  rcases bind_eq_error_iff.mp h with hread | ⟨⟨e', rest⟩, hread, hend⟩
  · have hchain : chain stop topLevel ts = .error e := by
      rw [Expr.read] at hread
      cases hchain : chain stop topLevel ts with
      | error e' =>
        rw [hchain] at hread
        exact congrArg Except.error (Except.error.inj hread)
      | ok r =>
        rw [hchain] at hread
        cases hread
    refine (stuck_of_chain (Nat.le_refl _) hchain).calls []
      (fun us filler e h => ⟨filler, e, h⟩) ?_
    rintro us - ⟨e, he⟩
    exact ⟨_, he⟩
  · obtain ⟨used, rfl, hused, hswap⟩ := (read_eq_ok_iff.mp hread).swap (Nat.le_refl _)
    dsimp only at hend
    split at hend
    · cases hend
    · obtain rfl := Except.error.inj hend
      have hused : Derives .or (used.map Located.token) e' := hused
      refine ⟨used, rest, rfl, rfl, ⟨[], e', by simpa using hused⟩, ?_⟩
      rintro t ht more ⟨r, hr⟩
      cases (Prod.mk.inj (hr.unique (hswap (t :: more) ht.symm))).2

end Failing

/-! ## The place of an error -/

/-- The tokens are those of a text that is an expression. -/
def IsExpression (ts : List Token) : Prop :=
  ∃ cs ls e, tokens cs = .ok ls ∧ ls.map Located.token = ts ∧ Expr.parse cs = .ok e

theorem IsExpression.derives {ts : List Token} (h : IsExpression ts) : ∃ e, Derives .or ts e := by
  obtain ⟨cs, ls, e, hls, rfl, he⟩ := h
  exact ⟨e, (parse_eq_ok_iff_derives hls e).mp he⟩

theorem Scans.isExpression {cs : List Char} {ts : List Token} (h : Scans cs ts) {e : Expr}
    (he : Derives .or ts e) : IsExpression ts := by
  obtain ⟨ls, hls, rfl⟩ := h cs.length
  exact ⟨cs, ls, e, hls, rfl, (parse_eq_ok_iff_derives hls e).mpr he⟩

/-- The tokens in front of a place of a text are those that start before it. -/
theorem countP_start_lt_place {stop : Nat} {used rest : List Located}
    (hsorted : (used ++ rest).Pairwise fun t u => t.start < u.start)
    (hinside : ∀ t ∈ used ++ rest, t.start < stop) :
    (used ++ rest).countP (fun t => t.start < place stop rest) = used.length := by
  obtain ⟨-, hrest, hbefore⟩ := List.pairwise_append.mp hsorted
  rw [List.countP_append, List.countP_eq_length.mpr, List.countP_eq_zero.mpr, Nat.add_zero]
  · intro t ht
    rw [decide_eq_true_eq, Nat.not_lt]
    cases rest with
    | nil => exact absurd ht List.not_mem_nil
    | cons first rest =>
      rcases List.mem_cons.mp ht with rfl | hmem
      · exact Nat.le_refl _
      · exact Nat.le_of_lt ((List.pairwise_cons.mp hrest).1 t hmem)
  · intro t ht
    rw [decide_eq_true_eq]
    cases rest with
    | nil => exact hinside t (List.mem_append_left _ ht)
    | cons first rest => exact hbefore t ht first List.mem_cons_self

/-- **An error points at the first impossible token.** Let `k` tokens of a text that is no
expression start in front of the error. These `k` tokens begin an expression. If the error is at the
end of the text, they are all its tokens, and more are needed; otherwise the error is at the next
token, and no expression begins with that one too. -/
theorem parse_error_place {cs : List Char} {ls : List Located} {error : ExprError}
    (hls : tokens cs = .ok ls) (hne : ls ≠ []) (herror : Expr.parse cs = .error error) :
    let ts := ls.map Located.token
    let k := ls.countP fun t => t.start < error.position
    (∃ more, IsExpression (ts.take k ++ more)) ∧
      (error.position = cs.length →
        k = ls.length ∧ (∃ more, more ≠ [] ∧ IsExpression (ts ++ more)) ∧ ¬ IsExpression ts) ∧
      (error.position ≠ cs.length →
        (∃ t, ls[k]? = some t ∧ t.start = error.position) ∧
          ∀ more, ¬ IsExpression (ts.take (k + 1) ++ more)) := by
  intro ts k
  obtain ⟨hsorted, hinside⟩ := starts_of_scan (Nat.le_refl _) hls
  have hparse : Expr.ofTokens cs.length ls = .error error := by
    rw [Expr.parse, hls] at herror
    exact herror
  obtain ⟨used, rest, rfl, hposition, ⟨filler, e, hfiller⟩, hstuck⟩ := stuck_of_ofTokens hne hparse
  have hk : k = used.length := by
    rw [← countP_start_lt_place hsorted fun t ht => (hinside t ht).2, ← hposition]
  have hts : ts = used.map Located.token ++ rest.map Located.token := List.map_append
  have htake : ts.take k = used.map Located.token := by
    rw [hk, hts, List.take_left' (List.length_map _)]
  have hgoesOn : IsExpression (ts.take k ++ filler.map Lexeme.token) := by
    obtain ⟨front, hfront⟩ := Scans.cut hls k
    obtain ⟨tail, htail⟩ := exists_scans_lexemes filler
    exact (hfront tail _ htail).isExpression (htake ▸ hfiller)
  refine ⟨⟨_, hgoesOn⟩, ?_⟩
  cases rest with
  | nil =>
    have hnot : ¬ IsExpression ts := by
      intro h
      obtain ⟨e', he'⟩ := h.derives
      cases herror.symm.trans ((parse_eq_ok_iff_derives hls e').mpr he')
    rw [htake, ← List.append_nil (used.map Located.token), ← List.map_nil, ← hts] at hgoesOn
    refine ⟨fun _ => ⟨by rw [hk, List.append_nil], ⟨_, ?_, hgoesOn⟩, hnot⟩,
      fun h => absurd hposition h⟩
    intro hnil
    rw [hnil, List.append_nil] at hgoesOn
    exact hnot hgoesOn
  | cons t rest =>
    have hstart : error.position = t.start := hposition
    have hlt : t.start < cs.length :=
      (hinside t (List.mem_append_right _ List.mem_cons_self)).2
    have hnext : ts.take (k + 1) = used.map Located.token ++ [t.token] := by
      rw [hk, hts, ← List.length_map Located.token, List.take_length_add_append]
      rfl
    refine ⟨fun h => absurd h (by omega), fun _ => ⟨⟨t, ?_, hstart.symm⟩, fun more h => ?_⟩⟩
    · rw [hk, List.getElem?_append_right (Nat.le_refl _), Nat.sub_self]
      rfl
    · obtain ⟨e', he'⟩ := h.derives
      -- the tokens that follow stand anywhere
      refine hstuck t rfl (more.map (⟨0, ·⟩)) ⟨e', read_eq_ok_iff.mp ?_⟩
      rw [read_eq_ok_nil_iff]
      rw [hnext] at he'
      simpa [Function.comp_def] using he'

theorem parse_error_place_operand :
    tokens "($a + )".toList = .ok [⟨0, .openParen⟩, ⟨1, .variable "a"⟩, ⟨4, .symbol .plus⟩,
        ⟨6, .closeParen⟩] ∧
      Expr.parse "($a + )".toList = .error ⟨6, .unexpectedClose⟩ ∧
      (∃ more, IsExpression ([.openParen, .variable "a", .symbol .plus] ++ more)) ∧
      ∀ more, ¬ IsExpression ([.openParen, .variable "a", .symbol .plus, .closeParen] ++ more) := by
  have hls : tokens "($a + )".toList = .ok [⟨0, .openParen⟩, ⟨1, .variable "a"⟩,
      ⟨4, .symbol .plus⟩, ⟨6, .closeParen⟩] := by cbv
  have herror : Expr.parse "($a + )".toList = .error ⟨6, .unexpectedClose⟩ := by cbv
  have h := parse_error_place hls (List.cons_ne_nil _ _) herror
  exact ⟨hls, herror, h.1, (h.2.2 (by decide)).2⟩

end PixelScene
