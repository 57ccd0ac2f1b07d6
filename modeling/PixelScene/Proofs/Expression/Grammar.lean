import PixelScene.Expression.Parser
import PixelScene.Proofs.Outcome

/-!
# The grammar of expressions

```text
or         := and ( "||" and )*
and        := comparison ( "&&" comparison )*
comparison := additive ( ("==" | "!=" | "<" | "<=" | ">" | ">=") additive )*
additive   := unary ( ("+" | "-") unary )*
unary      := ("!" | "-") unary | primary
primary    := number | "true" | "false" | variable | "(" or ")"
```

`Derives p ts e` says that the tokens `ts` are a phrase of the kind `p` and stand for the
expression `e`. Repetitions group to the left, so a rule `x ( op x )*` is read as `x | rule op x`.

* `sound`: what the parser takes off the front of some tokens is a phrase of the grammar.
* `Derives.complete`: the parser takes a phrase off the front whenever no operator that binds
  tighter follows it.
* `read_eq_ok_iff_derives`: the parser accepts exactly the phrases of the grammar, and gives each
  the one expression that it stands for.

The grammar is that of the comment in front of the engine's parser. Its numbers are single tokens,
so nothing has to be known of doubles here. The rules are an inductive predicate with one
constructor for each form; the readers of the library are functions that climb through the levels,
and the two are tied together by induction on either side.
-/

namespace PixelScene

/-! ## Phrases -/

/-- The kinds of phrases, from loosest to tightest. -/
inductive Phrase where
  | or
  | and
  | comparison
  | additive
  | unary
  | primary
deriving DecidableEq, Repr

namespace Phrase

/-- The next tighter kind of phrase. -/
def tighter? : Phrase → Option Phrase
  | or => some and
  | and => some comparison
  | comparison => some additive
  | additive => some unary
  | unary => some primary
  | primary => none

/-- The operators that join phrases of the next tighter kind. -/
def operator? : Phrase → Symbol → Option BinaryOp
  | or, .either => some .or
  | and, .both => some .and
  | comparison, .equal => some .eq
  | comparison, .unequal => some .ne
  | comparison, .less => some .lt
  | comparison, .lessEqual => some .le
  | comparison, .greater => some .gt
  | comparison, .greaterEqual => some .ge
  | additive, .plus => some .add
  | additive, .minus => some .sub
  | _, _ => none

end Phrase

/-- The tokens are a phrase of the given kind and stand for the expression. -/
inductive Derives : Phrase → List Token → Expr → Prop where
  | pass {p q : Phrase} {ts : List Token} {e : Expr} (tighter : p.tighter? = some q)
      (inner : Derives q ts e) : Derives p ts e
  | join {p q : Phrase} {s : Symbol} {op : BinaryOp} {ts us : List Token} {lhs rhs : Expr}
      (operator : p.operator? s = some op) (tighter : p.tighter? = some q)
      (left : Derives p ts lhs) (right : Derives q us rhs) :
      Derives p (ts ++ .symbol s :: us) (.binary op lhs rhs)
  | not {ts : List Token} {e : Expr} (inner : Derives .unary ts e) :
      Derives .unary (.symbol .bang :: ts) (.not e)
  | neg {ts : List Token} {e : Expr} (inner : Derives .unary ts e) :
      Derives .unary (.symbol .minus :: ts) (.neg e)
  | number (value : Float) : Derives .primary [.number value] (.number value)
  | true : Derives .primary [.word "true"] (.number 1)
  | false : Derives .primary [.word "false"] (.number 0)
  | word {name : String} (notTrue : name ≠ "true") (notFalse : name ≠ "false") :
      Derives .primary [.word name] (.var name)
  | var (name : String) : Derives .primary [.variable name] (.var name)
  | parens {ts : List Token} {e : Expr} (inner : Derives .or ts e) :
      Derives .primary (.openParen :: ts ++ [.closeParen]) e

theorem derives_word (name : String) : Derives .primary [.word name] (wordExpr name) := by
  unfold wordExpr
  split
  · rename_i h
    exact h ▸ .true
  · split
    · rename_i h
      exact h ▸ .false
    · rename_i notTrue notFalse
      exact .word notTrue notFalse

/-! ## Levels of the parser -/

namespace Phrase

/-- The level at which the parser reads a kind of phrase. -/
def level : Phrase → Nat
  | or => 4
  | and => 3
  | comparison => 2
  | additive => 1
  | unary => 0
  | primary => 0

/-- The kind of phrase that the parser reads at a level. -/
def ofLevel : Nat → Phrase
  | 0 => unary
  | 1 => additive
  | 2 => comparison
  | 3 => and
  | _ => or

end Phrase

theorem operator?_ofLevel {n : Nat} {s : Symbol} {op : BinaryOp}
    (h : operatorAt (n + 1) s = some op) :
    (Phrase.ofLevel (n + 1)).operator? s = some op ∧
      (Phrase.ofLevel (n + 1)).tighter? = some (Phrase.ofLevel n) := by
  match n with
  | 0 | 1 | 2 | 3 =>
    cases s <;> simp_all [operatorAt, Phrase.ofLevel, Phrase.operator?, Phrase.tighter?]
  | n + 4 => simp [operatorAt] at h

theorem operatorAt_level (p : Phrase) (s : Symbol) : operatorAt p.level s = p.operator? s := by
  cases p <;> cases s <;> rfl

/-- An operator belongs to one level. -/
theorem operatorAt_eq_none {m n : Nat} {s : Symbol} {op : BinaryOp} (h : operatorAt n s = some op)
    (hne : m ≠ n) : operatorAt m s = none := by
  unfold operatorAt at h ⊢
  split at h <;> split <;> first | rfl | exact absurd rfl hne | simp_all

theorem level_of_tighter? {p q : Phrase} (h : p.tighter? = some q) :
    p.level = q.level + 1 ∨ p.level = 0 ∧ q.level = 0 := by
  cases p <;> cases h <;> decide

/-- Each level above the first takes on what the level below reads. -/
theorem Derives.succ {n : Nat} {ts : List Token} {e : Expr} (h : Derives (.ofLevel n) ts e) :
    Derives (.ofLevel (n + 1)) ts e := by
  match n with
  | 0 | 1 | 2 | 3 => exact .pass rfl h
  | n + 4 => exact h

/-! ## What the parser reads -/

/-- No operator of the level comes next. -/
def NoOperator (level : Nat) (ts : List Located) : Prop :=
  ∀ start s more, ts = ⟨start, .symbol s⟩ :: more → operatorAt level s = none

theorem noOperator_or_join (level : Nat) (ts : List Located) : NoOperator level ts ∨
    ∃ start s op more, ts = ⟨start, .symbol s⟩ :: more ∧ operatorAt level s = some op := by
  by_cases h : NoOperator level ts
  · exact .inl h
  · simp only [NoOperator, Classical.not_forall] at h
    obtain ⟨start, s, more, hts, hs⟩ := h
    obtain ⟨op, hop⟩ := Option.ne_none_iff_exists'.mp hs
    exact .inr ⟨start, s, op, more, hts, hop⟩

section Equations

variable {stop n : Nat} {lhs : Expr} {ts more : List Located} {r : Expr × List Located}

theorem yields_chain_zero_iff : Yields (chain stop 0 ts) r ↔ Yields (factor stop ts) r := by
  rw [chain]

theorem yields_chain_succ_iff : Yields (chain stop (n + 1) ts) r ↔
    ∃ lhs rest, Yields (chain stop n ts) (lhs, rest) ∧ Yields (chainRest stop n lhs rest) r := by
  rw [chain]
  constructor
  · intro h
    obtain ⟨⟨lhs, rest⟩, _, hlhs, hrest⟩ := yields_bind_iff.mp h
    obtain ⟨_, _, hrest, hr⟩ := yields_bind_iff.mp hrest
    obtain rfl := yields_pure_iff.mp hr
    exact ⟨lhs, rest, hlhs, hrest⟩
  · rintro ⟨lhs, rest, hlhs, hrest⟩
    exact yields_bind_iff.mpr ⟨(lhs, rest), hlhs.choose, hlhs,
      yields_bind_iff.mpr ⟨r, hrest.choose, hrest, yields_pure_iff.mpr rfl⟩⟩

theorem yields_chainRest_join_iff {start : Nat} {s : Symbol} {op : BinaryOp}
    (h : operatorAt (n + 1) s = some op) :
    Yields (chainRest stop n lhs (⟨start, .symbol s⟩ :: more)) r ↔
      ∃ rhs rest, Yields (chain stop n more) (rhs, rest) ∧
        Yields (chainRest stop n (.binary op lhs rhs) rest) r := by
  rw [chainRest, h]
  constructor
  · intro h
    obtain ⟨⟨rhs, rest⟩, _, hrhs, hrest⟩ := yields_bind_iff.mp h
    obtain ⟨_, _, hrest, hr⟩ := yields_bind_iff.mp hrest
    obtain rfl := yields_pure_iff.mp hr
    exact ⟨rhs, rest, hrhs, hrest⟩
  · rintro ⟨rhs, rest, hrhs, hrest⟩
    exact yields_bind_iff.mpr ⟨(rhs, rest), hrhs.choose, hrhs,
      yields_bind_iff.mpr ⟨r, hrest.choose, hrest, yields_pure_iff.mpr rfl⟩⟩

/-- Nothing is added when no operator of the level comes next. -/
theorem yields_chainRest_stop_iff (h : NoOperator (n + 1) ts) :
    Yields (chainRest stop n lhs ts) r ↔ r = (lhs, ts) := by
  rw [chainRest.eq_def]
  split
  · rw [h _ _ _ rfl]
    exact yields_pure_iff
  · exact yields_pure_iff

/-- The expression of a token that is a primary phrase by itself. -/
def atom? : Token → Option Expr
  | .number value => some (.number value)
  | .variable name => some (.var name)
  | .word name => some (wordExpr name)
  | _ => none

theorem yields_factor_atom_iff {t : Located} {e : Expr} (h : atom? t.token = some e) :
    Yields (factor stop (t :: more)) r ↔ r = (e, more) := by
  obtain ⟨start, token⟩ := t
  cases token <;> cases h <;> rw [factor] <;> exact yields_pure_iff

theorem yields_factor_bang_iff {start : Nat} :
    Yields (factor stop (⟨start, .symbol .bang⟩ :: more)) r ↔
      ∃ a, Yields (factor stop more) a ∧ r = (.not a.1, a.2) := by
  rw [factor]
  apply yields_bind_pure_iff
  exact fun a h => ⟨_, rfl⟩

theorem yields_factor_minus_iff {start : Nat} :
    Yields (factor stop (⟨start, .symbol .minus⟩ :: more)) r ↔
      ∃ a, Yields (factor stop more) a ∧ r = (.neg a.1, a.2) := by
  rw [factor]
  apply yields_bind_pure_iff
  exact fun a h => ⟨_, rfl⟩

theorem yields_factor_open_iff {start : Nat} :
    Yields (factor stop (⟨start, .openParen⟩ :: more)) r ↔
      ∃ stopAt, Yields (chain stop topLevel more) (r.1, ⟨stopAt, .closeParen⟩ :: r.2) := by
  rw [factor]
  constructor
  · intro h
    obtain ⟨⟨e, rest⟩, _, he, hr⟩ := yields_bind_iff.mp h
    simp only at hr
    split at hr
    · obtain rfl := yields_pure_iff.mp hr
      exact ⟨_, he⟩
    · exact absurd hr not_yields_throw
  · rintro ⟨stopAt, he⟩
    exact yields_bind_iff.mpr ⟨_, he.choose, he, yields_pure_iff.mpr rfl⟩

end Equations

/-! ## Soundness -/

section Sound

variable {stop : Nat}

mutual

theorem sound_chain {n : Nat} {ts rest : List Located} {e : Expr}
    (h : Yields (chain stop n ts) (e, rest)) :
    ∃ used, ts = used ++ rest ∧ Derives (.ofLevel n) (used.map Located.token) e := by
  match n with
  | 0 => exact sound_factor (yields_chain_zero_iff.mp h)
  | n + 1 =>
    obtain ⟨lhs, rest', hlhs, hrest⟩ := yields_chain_succ_iff.mp h
    have hlt : rest'.length < ts.length := hlhs.choose
    obtain ⟨before, rfl, hbefore⟩ := sound_chain hlhs
    obtain ⟨used, rfl, hused⟩ := sound_chainRest hrest hbefore.succ
    rw [← List.map_append] at hused
    exact ⟨before ++ used, (List.append_assoc ..).symm, hused⟩
termination_by (ts.length, n + 1)

theorem sound_chainRest {n : Nat} {ts rest : List Located} {lhs e : Expr} {before : List Token}
    (h : Yields (chainRest stop n lhs ts) (e, rest))
    (hlhs : Derives (.ofLevel (n + 1)) before lhs) :
    ∃ used, ts = used ++ rest ∧
      Derives (.ofLevel (n + 1)) (before ++ used.map Located.token) e := by
  rcases noOperator_or_join (n + 1) ts with hnone | ⟨start, s, op, more, rfl, hop⟩
  · obtain ⟨rfl, rfl⟩ := Prod.mk.inj ((yields_chainRest_stop_iff hnone).mp h)
    exact ⟨[], rfl, by simpa using hlhs⟩
  · obtain ⟨rhs, rest', hrhs, hrest⟩ := (yields_chainRest_join_iff hop).mp h
    have hlt : rest'.length < more.length := hrhs.choose
    obtain ⟨operand, rfl, hoperand⟩ := sound_chain hrhs
    obtain ⟨operator, tighter⟩ := operator?_ofLevel hop
    obtain ⟨used, rfl, hused⟩ := sound_chainRest hrest (.join operator tighter hlhs hoperand)
    refine ⟨⟨start, .symbol s⟩ :: operand ++ used, by simp, ?_⟩
    simpa using hused
termination_by (ts.length, 0)

theorem sound_factor {ts rest : List Located} {e : Expr} (h : Yields (factor stop ts) (e, rest)) :
    ∃ used, ts = used ++ rest ∧ Derives .unary (used.map Located.token) e := by
  match ts with
  | [] =>
    rw [factor] at h
    exact absurd h not_yields_throw
  | ⟨start, .number value⟩ :: more =>
    obtain ⟨rfl, rfl⟩ := Prod.mk.inj ((yields_factor_atom_iff rfl).mp h)
    exact ⟨[⟨start, .number value⟩], rfl, .pass rfl (.number value)⟩
  | ⟨start, .variable name⟩ :: more =>
    obtain ⟨rfl, rfl⟩ := Prod.mk.inj ((yields_factor_atom_iff rfl).mp h)
    exact ⟨[⟨start, .variable name⟩], rfl, .pass rfl (.var name)⟩
  | ⟨start, .word name⟩ :: more =>
    obtain ⟨rfl, rfl⟩ := Prod.mk.inj ((yields_factor_atom_iff rfl).mp h)
    exact ⟨[⟨start, .word name⟩], rfl, .pass rfl (derives_word name)⟩
  | ⟨start, .symbol s⟩ :: more =>
    by_cases hbang : s = .bang
    · subst hbang
      obtain ⟨⟨inner, rest'⟩, hinner, hr⟩ := yields_factor_bang_iff.mp h
      obtain ⟨rfl, rfl⟩ := Prod.mk.inj hr
      obtain ⟨used, rfl, hused⟩ := sound_factor hinner
      exact ⟨⟨start, .symbol .bang⟩ :: used, rfl, .not hused⟩
    · by_cases hminus : s = .minus
      · subst hminus
        obtain ⟨⟨inner, rest'⟩, hinner, hr⟩ := yields_factor_minus_iff.mp h
        obtain ⟨rfl, rfl⟩ := Prod.mk.inj hr
        obtain ⟨used, rfl, hused⟩ := sound_factor hinner
        exact ⟨⟨start, .symbol .minus⟩ :: used, rfl, .neg hused⟩
      · rw [factor] at h
        · exact absurd h not_yields_throw
        · exact hbang
        · exact hminus
  | ⟨start, .openParen⟩ :: more =>
    obtain ⟨stopAt, hinner⟩ := yields_factor_open_iff.mp h
    obtain ⟨used, rfl, hused⟩ := sound_chain hinner
    refine ⟨⟨start, .openParen⟩ :: used ++ [⟨stopAt, .closeParen⟩], by simp, ?_⟩
    have hparens := Derives.parens hused
    simpa using Derives.pass rfl hparens
  | ⟨start, .closeParen⟩ :: more =>
    rw [factor] at h
    exact absurd h not_yields_throw
termination_by (ts.length, 0)

end

end Sound

/-! ## Completeness -/

section Complete

variable {stop : Nat}

/-- What the parser makes of an operand of a level that was read off the front of some tokens. -/
def Resumes (stop level : Nat) (e : Expr) (rest : List Located) (r : Expr × List Located) : Prop :=
  match level with
  | 0 => r = (e, rest)
  | n + 1 => Yields (chainRest stop n e rest) r

theorem resumes_of_noOperator {level : Nat} {e : Expr} {rest : List Located}
    (h : NoOperator level rest) : Resumes stop level e rest (e, rest) := by
  match level with
  | 0 => exact rfl
  | n + 1 => exact (yields_chainRest_stop_iff h).mpr rfl

theorem yields_chain_atom {token : Token} {e : Expr} (h : atom? token = some e)
    {ls rest : List Located} {r : Expr × List Located} (hls : ls.map Located.token = [token])
    (hr : Resumes stop 0 e rest r) : Yields (chain stop 0 (ls ++ rest)) r := by
  obtain ⟨⟨start, token⟩, rfl, rfl⟩ := List.map_eq_singleton_iff.mp hls
  exact yields_chain_zero_iff.mpr ((yields_factor_atom_iff h).mpr hr)

/-- The phrase is read off the front of every list of tokens that it starts, unless an operator that
binds tighter than its own follows. -/
theorem Derives.complete {p : Phrase} {ts : List Token} {e : Expr} (h : Derives p ts e) :
    ∀ {ls rest : List Located} {r : Expr × List Located}, ls.map Located.token = ts →
      (∀ level < p.level, NoOperator level rest) → Resumes stop p.level e rest r →
      Yields (chain stop p.level (ls ++ rest)) r := by
  induction h with
  | @pass p q ts e tighter inner ih =>
    intro ls rest r hls hrest hr
    rcases level_of_tighter? tighter with hlevel | ⟨hp, hq⟩
    · rw [hlevel] at hrest hr ⊢
      have hinner := ih hls (fun level hlt => hrest level (Nat.lt_succ_of_lt hlt))
        (resumes_of_noOperator (hrest q.level (Nat.lt_succ_self _)))
      exact yields_chain_succ_iff.mpr ⟨e, rest, hinner, hr⟩
    · rw [hp] at hr ⊢
      rw [hq] at ih
      exact ih hls (fun level hlt => absurd hlt (Nat.not_lt_zero level)) hr
  | @join p q s op ts us lhs rhs operator tighter left right ihleft ihright =>
    intro ls rest r hls hrest hr
    obtain ⟨before, after, rfl, hbefore, hafter⟩ := List.map_eq_append_iff.mp hls
    obtain ⟨⟨start, token⟩, operand, rfl, rfl, hoperand⟩ := List.map_eq_cons_iff.mp hafter
    rw [← operatorAt_level] at operator
    rcases level_of_tighter? tighter with hlevel | ⟨hp, -⟩
    · rw [hlevel] at hrest hr operator ihleft ⊢
      have hright : Yields (chain stop q.level (operand ++ rest)) (rhs, rest) :=
        ihright hoperand (fun level hlt => hrest level (Nat.lt_succ_of_lt hlt))
          (resumes_of_noOperator (hrest q.level (Nat.lt_succ_self _)))
      rw [List.append_assoc]
      refine ihleft hbefore ?_ ((yields_chainRest_join_iff operator).mpr ⟨rhs, rest, hright, hr⟩)
      -- the operator itself belongs to the level of this phrase, so it is none of the tighter ones
      rintro level hlt _ _ _ heq
      cases heq
      exact operatorAt_eq_none operator (Nat.ne_of_lt hlt)
    · rw [hp] at operator
      exact absurd operator nofun
  | @not ts e inner ih =>
    intro ls rest r hls hrest hr
    obtain ⟨⟨start, token⟩, operand, rfl, rfl, hoperand⟩ := List.map_eq_cons_iff.mp hls
    have hinner := yields_chain_zero_iff.mp (ih hoperand hrest rfl)
    exact yields_chain_zero_iff.mpr (yields_factor_bang_iff.mpr ⟨(e, rest), hinner, hr⟩)
  | @neg ts e inner ih =>
    intro ls rest r hls hrest hr
    obtain ⟨⟨start, token⟩, operand, rfl, rfl, hoperand⟩ := List.map_eq_cons_iff.mp hls
    have hinner := yields_chain_zero_iff.mp (ih hoperand hrest rfl)
    exact yields_chain_zero_iff.mpr (yields_factor_minus_iff.mpr ⟨(e, rest), hinner, hr⟩)
  | number value =>
    intro ls rest r hls hrest hr
    exact yields_chain_atom rfl hls hr
  | true =>
    intro ls rest r hls hrest hr
    exact yields_chain_atom rfl hls hr
  | false =>
    intro ls rest r hls hrest hr
    exact yields_chain_atom rfl hls hr
  | word notTrue notFalse =>
    intro ls rest r hls hrest hr
    refine yields_chain_atom ?_ hls hr
    rw [atom?, wordExpr, if_neg notTrue, if_neg notFalse]
  | var name =>
    intro ls rest r hls hrest hr
    exact yields_chain_atom rfl hls hr
  | @parens ts e inner ih =>
    intro ls rest r hls hrest hr
    obtain ⟨⟨start, token⟩, more, rfl, rfl, hmore⟩ := List.map_eq_cons_iff.mp hls
    obtain ⟨operand, close, rfl, hoperand, hclose⟩ := List.map_eq_append_iff.mp hmore
    obtain ⟨⟨stopAt, token⟩, rfl, rfl⟩ := List.map_eq_singleton_iff.mp hclose
    have hstop : ∀ level, NoOperator level (⟨stopAt, .closeParen⟩ :: rest) :=
      fun level start s more heq => absurd (List.cons.inj heq).1 nofun
    have hinner : Yields (chain stop topLevel (operand ++ ⟨stopAt, .closeParen⟩ :: rest))
        (e, ⟨stopAt, .closeParen⟩ :: rest) :=
      ih hoperand (fun level _ => hstop level) (resumes_of_noOperator (hstop topLevel))
    obtain rfl : r = (e, rest) := hr
    refine yields_chain_zero_iff.mpr ?_
    rw [List.cons_append, List.append_assoc]
    exact yields_factor_open_iff.mpr ⟨stopAt, hinner⟩

end Complete

/-! ## The parser and the grammar -/

theorem read_eq_ok_iff {stop : Nat} {ts : List Located} {r : Expr × List Located} :
    Expr.read stop ts = .ok r ↔ Yields (chain stop topLevel ts) r := map_val_eq_ok_iff

theorem read_eq_ok_nil_iff (stop : Nat) (ts : List Located) (e : Expr) :
    Expr.read stop ts = .ok (e, []) ↔ Derives .or (ts.map Located.token) e := by
  rw [read_eq_ok_iff]
  constructor
  · intro h
    obtain ⟨used, rfl, hused⟩ := sound_chain h
    rw [List.append_nil]
    exact hused
  · intro h
    have hnone : ∀ level, NoOperator level [] := fun level start s more heq => absurd heq nofun
    have hresumes : Resumes stop topLevel e [] (e, []) := resumes_of_noOperator (hnone topLevel)
    have hread := h.complete rfl (fun level _ => hnone level) hresumes
    rwa [List.append_nil] at hread

/-- A text is an expression just when its tokens are one. -/
theorem parse_eq_ok_iff_derives {cs : List Char} {ls : List Located} (h : tokens cs = .ok ls)
    (e : Expr) : Expr.parse cs = .ok e ↔ Derives .or (ls.map Located.token) e := by
  rw [← read_eq_ok_nil_iff cs.length, Expr.parse, h]
  change Expr.ofTokens cs.length ls = .ok e ↔ _
  rw [Expr.ofTokens]
  split
  · rename_i hempty
    obtain rfl := List.isEmpty_iff.mp hempty
    refine ⟨fun h => absurd h nofun, fun h => ?_⟩
    exact absurd (read_eq_ok_iff.mp h).choose (Nat.not_lt_zero _)
  · rw [bind_eq_ok_iff]
    constructor
    · rintro ⟨⟨e', rest⟩, hread, hend⟩
      dsimp only at hend
      split at hend
      · rename_i hempty
        rw [hread, List.isEmpty_iff.mp hempty, pure_eq_ok_iff.mp hend]
      · exact absurd hend nofun
    · exact fun hread => ⟨_, hread, rfl⟩

/-- **The parser accepts exactly the grammar.** Reading takes all of some tokens and gives an
expression just when the grammar derives the tokens with that expression, and no tokens stand for
two expressions. -/
theorem read_eq_ok_iff_derives (stop : Nat) (ts : List Located) :
    (∀ e, Expr.read stop ts = .ok (e, []) ↔ Derives .or (ts.map Located.token) e) ∧
      ∀ e e', Derives .or (ts.map Located.token) e → Derives .or (ts.map Located.token) e' →
        e = e' := by
  refine ⟨read_eq_ok_nil_iff stop ts, fun e e' h h' => ?_⟩
  have hread := (read_eq_ok_nil_iff stop ts e).mpr h
  have hread' := (read_eq_ok_nil_iff stop ts e').mpr h'
  exact congrArg Prod.fst (Except.ok.inj (hread.symm.trans hread'))

end PixelScene
