import PixelScene.Proofs.Node.BlockRounds
import PixelScene.Proofs.Node.LayoutNoise
import PixelScene.Script.Statement

/-!
# The line of an error

A reader meets a fault on the line that it reads, or on the line behind a block that has just ended.
No reader looks further, so a fault on a line is met whatever lines follow.

* `Causal`: what is read hangs on the lines that are taken and on the line behind them, and where
  reading fails it hangs on the lines up to the one that the error names. `Causal.bind` and
  `causal_loop` carry this along a reader, and `causal_block` is the induction over its rounds.
* `exists_of_mem_gather`: a logical line has the number of the physical line that it starts on.
* `read_error_local`: an error of a script names such a line, and hangs on nothing behind it.

The engine numbers lines from one and reports the first line of a logical line, even if the fault is
on one that continues it. A fault behind a block is that of the line that follows the block, which
is why the statement has to allow for one more line than was taken.
-/

namespace PixelScene

namespace Node

namespace InRounds

variable {α β : Type}

/-! ## Readings that look no further than the next line -/

/-- What the reading comes to hangs on the lines it takes and on the line behind them. If it fails,
the error names one of the lines, and whatever follows that line the reading fails so; or the error
names a line that is the reading's own, and the reading fails so on any lines. -/
structure Causal (own : Nat → Prop) (reading : Reading LogicalLine ReadError α)
    (ls : List LogicalLine) : Prop where
  returns : ∀ a rest, (reading ls).Returns (a, rest) → ∃ used, ls = used ++ rest ∧
    ∀ rest', rest'.head? = rest.head? → (reading (used ++ rest')).Returns (a, rest')
  fails : ∀ e, reading ls = Run.of (.error e) →
    (own e.line ∧ ∀ ls', reading ls' = Run.of (.error e)) ∨
    ∃ front line back, ls = front ++ line :: back ∧ line.number = e.line ∧
      ∀ back', reading (front ++ line :: back') = Run.of (.error e)

/-- No line is a reading's own. -/
def nowhere (_ : Nat) : Prop := False

section Rules

variable {own : Nat → Prop} {ls : List LogicalLine} {reading : Reading LogicalLine ReadError α}

theorem head?_append_congr (used : List LogicalLine) {rest rest' : List LogicalLine}
    (h : rest'.head? = rest.head?) : (used ++ rest').head? = (used ++ rest).head? := by
  rw [List.head?_append, List.head?_append, h]

theorem head?_append_cons (front : List LogicalLine) (line : LogicalLine)
    (back back' : List LogicalLine) :
    (front ++ line :: back').head? = (front ++ line :: back).head? :=
  head?_append_congr front rfl

/-- A reading that fails fails on a line of its input, if no line is its own. -/
theorem Causal.fails_at (h : Causal nowhere reading ls) {e : ReadError}
    (hfail : reading ls = Run.of (.error e)) :
    ∃ front line back, ls = front ++ line :: back ∧ line.number = e.line ∧
      ∀ back', reading (front ++ line :: back') = Run.of (.error e) :=
  (h.fails e hfail).resolve_left fun hown => hown.1

theorem Causal.mono {own' : Nat → Prop} (h : Causal own reading ls) (hown : ∀ n, own n → own' n) :
    Causal own' reading ls where
  returns := h.returns
  fails e hfail := (h.fails e hfail).imp_left fun hline => ⟨hown _ hline.1, hline.2⟩

theorem causal_unfinished : Causal own (fun _ => Run.unfinished : Reading _ _ α) ls where
  returns _ _ h := absurd h.symm (Run.of_ne_unfinished _)
  fails _ h := absurd h.symm (Run.of_ne_unfinished _)

theorem causal_pure (a : α) : Causal own (fun ls => pure (a, ls)) ls where
  returns b rest h := by
    cases Run.returns_pure_iff.mp h
    exact ⟨[], rfl, fun _ _ => rfl⟩
  fails _ h := absurd (Run.of_inj h) nofun

/-- The next line is to blame. -/
theorem causal_throw (line : LogicalLine) (more : List LogicalLine) (fault : ReadFault) :
    Causal own (fun _ => throw ⟨line.number, fault⟩ : Reading _ _ α) (line :: more) where
  returns _ _ h := absurd h Run.not_returns_throw
  fails e h := by
    cases Run.of_inj h
    exact .inr ⟨[], line, more, rfl, rfl, fun _ => rfl⟩

/-- The reading's own line is to blame. -/
theorem causal_throw_own {number : Nat} {fault : ReadFault} :
    Causal (· = number) (fun _ => throw ⟨number, fault⟩ : Reading _ _ α) ls where
  returns _ _ h := absurd h Run.not_returns_throw
  fails e h := by
    cases Run.of_inj h
    exact .inl ⟨rfl, fun _ => rfl⟩

/-- A reading may be chosen by the next line. -/
theorem Causal.congr {reading' : Reading LogicalLine ReadError α} (h : Causal nowhere reading' ls)
    (heq : ∀ ls', ls'.head? = ls.head? → reading ls' = reading' ls') : Causal own reading ls where
  returns a rest hreturns := by
    rw [heq ls rfl] at hreturns
    obtain ⟨used, rfl, hused⟩ := h.returns a rest hreturns
    refine ⟨used, rfl, fun rest' hrest' => ?_⟩
    rw [heq _ (head?_append_congr used hrest')]
    exact hused rest' hrest'
  fails e hfail := by
    rw [heq ls rfl] at hfail
    obtain ⟨front, line, back, rfl, hline, hfront⟩ := h.fails_at hfail
    refine .inr ⟨front, line, back, rfl, hline, fun back' => ?_⟩
    rw [heq _ (head?_append_cons front line back back')]
    exact hfront back'

theorem Causal.congr_cons {reading' : Reading LogicalLine ReadError α} {line : LogicalLine}
    {more : List LogicalLine} (h : Causal nowhere reading' (line :: more))
    (heq : ∀ more, reading (line :: more) = reading' (line :: more)) :
    Causal own reading (line :: more) := by
  refine h.congr fun ls' hhead => ?_
  obtain ⟨more', rfl⟩ := List.head?_eq_some_iff.mp hhead
  exact heq more'

theorem causal_nil {a : α} (h : reading [] = pure (a, [])) : Causal own reading [] := by
  refine (causal_pure a).congr fun ls' hhead => ?_
  rw [List.head?_eq_none_iff.mp hhead]
  exact h

/-- A reading that goes on from what another one left. -/
theorem Causal.bind {f : α × List LogicalLine → Run ReadError (β × List LogicalLine)}
    (h : Causal own reading ls) (hf : ∀ a rest, Causal nowhere (fun ls => f (a, ls)) rest) :
    Causal own (fun ls => reading ls >>= f) ls where
  returns b rest hreturns := by
    obtain ⟨⟨a, left⟩, hread, hleft⟩ := Run.returns_bind_iff.mp hreturns
    obtain ⟨used, rfl, hused⟩ := h.returns a left hread
    obtain ⟨used', rfl, hused'⟩ := (hf a left).returns b rest hleft
    refine ⟨used ++ used', (List.append_assoc ..).symm, fun rest' hrest' => ?_⟩
    rw [List.append_assoc]
    refine Run.returns_bind_iff.mpr ⟨(a, used' ++ rest'), ?_, hused' rest' hrest'⟩
    exact hused _ (head?_append_congr used' hrest')
  fails e hfail := by
    rcases (reading ls).cases with hread | ⟨e', hread⟩ | ⟨⟨a, left⟩, hread⟩
    · rw [hread] at hfail
      exact absurd hfail.symm (Run.of_ne_unfinished _)
    · rw [hread, Run.error_bind] at hfail
      cases Run.of_inj hfail
      refine (h.fails e hread).imp ?_ ?_
      · rintro ⟨hown, hall⟩
        exact ⟨hown, fun ls' => by rw [hall ls', Run.error_bind]⟩
      · rintro ⟨front, line, back, hls, hline, hfront⟩
        exact ⟨front, line, back, hls, hline, fun back' => by rw [hfront back', Run.error_bind]⟩
    · rw [hread.bind_eq] at hfail
      obtain ⟨used, rfl, hused⟩ := h.returns a left hread
      obtain ⟨front, line, back, rfl, hline, hfront⟩ := (hf a left).fails_at hfail
      refine .inr ⟨used ++ front, line, back, (List.append_assoc ..).symm, hline, fun back' => ?_⟩
      rw [List.append_assoc, (hused _ (head?_append_cons front line back back')).bind_eq]
      exact hfront back'

/-- What a reading returns may be put into a value. -/
theorem Causal.map (h : Causal own reading ls) (g : α → β) :
    Causal own (fun ls => reading ls >>= fun r => pure (g r.1, r.2)) ls :=
  h.bind (f := fun r => pure (g r.1, r.2)) fun a _ => causal_pure (g a)

/-- A reading that goes on from something on its own line. -/
theorem Causal.step {x : Run ReadError β} {f : β → Reading LogicalLine ReadError α}
    (hx : ∀ e, x = Run.of (.error e) → own e.line) (hf : ∀ b, Causal own (f b) ls) :
    Causal own (fun ls => x >>= fun b => f b ls) ls := by
  rcases x.cases with rfl | ⟨e, rfl⟩ | ⟨b, rfl⟩
  · exact causal_unfinished
  · refine ⟨fun a rest h => absurd (Run.of_inj h) nofun, fun e' h => .inl ?_⟩
    cases Run.of_inj h
    exact ⟨hx e rfl, fun _ => rfl⟩
  · exact hf b

/-- The line that a reading takes before it goes on is its own from then on. -/
theorem Causal.taken {line : LogicalLine} {more : List LogicalLine}
    (h : Causal (· = line.number) (fun ls => reading (line :: ls)) more) :
    Causal nowhere reading (line :: more) where
  returns a rest hreturns := by
    obtain ⟨used, rfl, hused⟩ := h.returns a rest hreturns
    exact ⟨line :: used, rfl, hused⟩
  fails e hfail := by
    rcases h.fails e hfail with ⟨hown, hall⟩ | ⟨front, l, back, rfl, hl, hfront⟩
    · exact .inr ⟨[], line, more, rfl, hown.symm, hall⟩
    · exact .inr ⟨line :: front, l, back, rfl, hl, hfront⟩

/-- A loop looks no further than its passes do. -/
theorem causal_loop {σ : Type} {pass : σ → Reading LogicalLine ReadError (Pass σ α)}
    (h : ∀ s ls, Causal nowhere (pass s) ls) (rounds : Nat) (s : σ) (ls : List LogicalLine) :
    Causal nowhere (loop pass rounds s) ls := by
  induction rounds generalizing s ls with
  | zero => exact causal_unfinished
  | succ rounds ih =>
    refine (h s ls).bind fun r rest => ?_
    cases r with
    | again s' => exact ih s' rest
    | done a => exact causal_pure a

end Rules

/-! ## The readers of blocks -/

section Readers

variable {inline : List Char → Nat → Run ReadError Node} {block : Reading LogicalLine ReadError Node}
  {map : Nat → List (String × Node) → Reading LogicalLine ReadError (List (String × Node))}

/-- The values on one line fail on that line. -/
def Blames (inline : List Char → Nat → Run ReadError Node) : Prop :=
  ∀ text number e, inline text number = Run.of (.error e) → e.line = number

variable (hinline : Blames inline) (hblock : ∀ ls, Causal nowhere block ls)
  (hmap : ∀ indent entries ls, Causal nowhere (map indent entries) ls)

include hblock

theorem causal_nested (parent : Nat) (ls : List LogicalLine) :
    Causal nowhere (nested block parent) ls := by
  cases ls with
  | nil => exact causal_nil rfl
  | cons line more =>
    by_cases hdeeper : parent < line.indent
    · exact (hblock (line :: more)).congr_cons fun _ => if_pos hdeeper
    · exact (causal_pure Node.null).congr_cons fun _ => if_neg hdeeper

include hinline

theorem causal_keyed (column number : Nat) (value : List Char) (ls : List LogicalLine) :
    Causal (· = number) (keyed inline block column number value) ls := by
  unfold keyed
  split
  · exact (causal_nested hblock column ls).mono fun _ => False.elim
  · exact Causal.step (hinline value number) fun node => causal_pure node

omit hinline hblock in
/-- A block ends before a line of another indentation, or that line is to blame. -/
theorem causal_end {line : LogicalLine} {more : List LogicalLine} {indent : Nat} {a : α}
    {reading : Reading LogicalLine ReadError α}
    (h : ∀ more, reading (line :: more) = (do
      Run.of (checkDedent indent (line :: more))
      pure (a, line :: more))) : Causal nowhere reading (line :: more) := by
  by_cases hdeeper : indent < line.indent
  · refine (causal_throw line more .inconsistentIndentation).congr_cons fun more' => ?_
    rw [h, checkDedent, if_pos hdeeper]
    rfl
  · refine (causal_pure a).congr_cons fun more' => ?_
    rw [h, checkDedent, if_neg hdeeper]
    rfl

theorem causal_mapPass (indent : Nat) (entries : List (String × Node)) (ls : List LogicalLine) :
    Causal nowhere (mapPass inline block indent entries) ls := by
  cases ls with
  | nil => exact causal_nil rfl
  | cons line more =>
    by_cases hindent : line.indent = indent
    · refine Causal.taken ?_
      simp only [mapPass, hindent, ne_eq, not_true_eq_false, if_false]
      split
      · exact causal_throw_own
      · cases splitKey? line.text with
        | none => exact causal_throw_own
        | some entry =>
          obtain ⟨key, value⟩ := entry
          refine (causal_keyed hinline hblock _ _ _ more).bind fun node rest => ?_
          exact causal_pure (Pass.again (entries ++ [(String.ofList key, node)]))
    · exact causal_end fun more => if_pos hindent

include hmap

omit hinline hblock in
theorem causal_itemMap (indent : Nat) (first : String × Node) (ls : List LogicalLine) :
    Causal nowhere (itemMap map indent first) ls := by
  cases ls with
  | nil => exact causal_nil rfl
  | cons line more =>
    by_cases hdeeper : indent < line.indent
    · have hentries := (hmap line.indent [first] (line :: more)).map Node.map
      exact hentries.congr_cons fun _ => if_pos hdeeper
    · exact (causal_pure (Node.map [first])).congr_cons fun _ => if_neg hdeeper

theorem causal_item (indent number : Nat) (text : List Char) (ls : List LogicalLine) :
    Causal (· = number) (item inline block map indent number text) ls := by
  unfold item
  cases itemForm (itemText text).1 with
  | nothing => exact (causal_nested hblock indent ls).mono fun _ => False.elim
  | value => exact Causal.step (hinline _ number) fun node => causal_pure node
  | entry key value =>
    refine (causal_keyed hinline hblock _ _ value ls).bind fun node rest => ?_
    exact causal_itemMap hmap indent (String.ofList key, node) rest

theorem causal_listPass (indent : Nat) (items : List Node) (ls : List LogicalLine) :
    Causal nowhere (listPass inline block map indent items) ls := by
  cases ls with
  | nil => exact causal_nil rfl
  | cons line more =>
    by_cases hindent : line.indent = indent
    · refine Causal.taken ?_
      simp only [listPass, hindent, ne_eq, not_true_eq_false, if_false]
      split
      · exact causal_throw_own
      · refine (causal_item hinline hblock hmap indent line.number line.text more).bind
          fun node rest => ?_
        exact causal_pure (Pass.again (items ++ [node]))
    · exact causal_end fun more => if_pos hindent

end Readers

/-- **No block looks further than the line behind it.** -/
theorem causal_block {inline : List Char → Nat → Run ReadError Node} (hinline : Blames inline)
    (rounds : Nat) (ls : List LogicalLine) : Causal nowhere (block inline rounds) ls := by
  induction rounds generalizing ls with
  | zero => exact causal_unfinished
  | succ rounds ih =>
    have hmap : ∀ indent entries ls,
        Causal nowhere (mapLoop inline (block inline rounds) (rounds + 1) indent entries) ls :=
      fun indent => causal_loop (causal_mapPass hinline ih indent) (rounds + 1)
    cases ls with
    | nil => exact causal_nil rfl
    | cons line more =>
      by_cases hitem : isItem line.text = true
      · have hlist := causal_loop (causal_listPass hinline ih hmap line.indent) (rounds + 1) []
          (line :: more)
        exact (hlist.map Node.list).congr_cons fun _ => if_pos hitem
      · have hentries := (hmap line.indent [] (line :: more)).map Node.map
        exact hentries.congr_cons fun _ => if_neg hitem

/-! ## Whole scripts -/

theorem blames_wholeInline : Blames wholeInline := by
  intro text number e h
  have hfail : parseInline text number = .error e := Run.of_inj h
  unfold parseInline at hfail
  cases hparse : parseText text with
  | error fault =>
    rw [hparse] at hfail
    cases hfail
    rfl
  | ok node =>
    rw [hparse] at hfail
    exact absurd hfail nofun

end InRounds

open InRounds

/-- The logical lines fail with their block, or because a line is left behind it. -/
theorem ofLines_eq_error_iff {ls : List LogicalLine} (hls : ls ≠ []) {e : ReadError} :
    ofLines ls = .error e ↔ readBlock ls = .error e ∨
      ∃ node line more, Yields (readBlock ls) (node, line :: more) ∧
        e = ⟨line.number, .dedentBelowTop⟩ := by
  rw [ofLines, if_neg (by simpa using hls), bind_eq_error_iff_yields]
  refine or_congr_right ⟨?_, ?_⟩
  · rintro ⟨⟨node, rest⟩, hle, hread, hrest⟩
    cases rest with
    | nil => cases hrest
    | cons line more =>
      cases hrest
      exact ⟨node, line, more, hread, rfl⟩
  · rintro ⟨node, line, more, hread, rfl⟩
    exact ⟨(node, line :: more), hread.choose, hread, rfl⟩

theorem block_eq_readBlock (ls : List LogicalLine) :
    block wholeInline (ls.length + 1) ls = wholeBlock ls :=
  (block_agrees (fun _ _ => .refl _) _ ls).eq
    (block_ends (fun _ _ _ _ _ => Run.ends_of _) (Nat.lt_succ_self _))

/-- An error of the logical lines names one of them, and hangs on nothing behind it. -/
theorem ofLines_error {ls : List LogicalLine} {e : ReadError} (h : ofLines ls = .error e) :
    ∃ front line back, ls = front ++ line :: back ∧ line.number = e.line ∧
      ∀ back', ofLines (front ++ line :: back') = .error e := by
  rcases eq_or_ne ls [] with rfl | hls
  · exact absurd h nofun
  have hcausal := causal_block blames_wholeInline (ls.length + 1) ls
  have hagrees := block_agrees (fun text number => .refl (wholeInline text number)) (ls.length + 1)
  rcases (ofLines_eq_error_iff hls).mp h with hread | ⟨node, line, more, hread, rfl⟩
  · have hblock : block wholeInline (ls.length + 1) ls = Run.of (.error e) := by
      rw [block_eq_readBlock]
      exact ofReader_eq_error_iff.mpr hread
    obtain ⟨front, line, back, hfront, hline, hall⟩ := hcausal.fails_at hblock
    refine ⟨front, line, back, hfront, hline, fun back' => ?_⟩
    have hwhole := ((hagrees _).eq ⟨_, hall back'⟩).symm.trans (hall back')
    exact (ofLines_eq_error_iff (by simp)).mpr (.inl (ofReader_eq_error_iff.mp hwhole))
  · have hblock : (block wholeInline (ls.length + 1) ls).Returns (node, line :: more) := by
      rw [block_eq_readBlock]
      exact returns_ofReader_iff.mpr hread
    obtain ⟨used, hused, hall⟩ := hcausal.returns _ _ hblock
    refine ⟨used, line, more, hused, rfl, fun back' => ?_⟩
    have hwhole := (hagrees _).returns (hall (line :: back') rfl)
    refine (ofLines_eq_error_iff (by simp)).mpr (.inr ⟨node, line, back', ?_, rfl⟩)
    exact returns_ofReader_iff.mp hwhole

end Node

/-! ## Physical lines -/

namespace LogicalLine

/-- The brackets that stay open behind a physical line. -/
def depthAfter (depth : Int) (raw : List Char) : Int :=
  if isSkipped (Text.trim raw) then depth else max 0 (depth + balance none (Text.trim raw))

theorem depthAfter_skipped {raw : List Char} (h : isSkipped (Text.trim raw) = true) (depth : Int) :
    depthAfter depth raw = depth := if_pos h

theorem depthAfter_open {raw : List Char} {depth : Int} (h : isSkipped (Text.trim raw) = false)
    (hopen : 0 < depth + balance none (Text.trim raw)) :
    depthAfter depth raw = depth + balance none (Text.trim raw) := by
  rw [depthAfter, h, if_neg Bool.false_ne_true]
  exact max_eq_right hopen.le

theorem depthAfter_closed {raw : List Char} {depth : Int} (h : isSkipped (Text.trim raw) = false)
    (hclosed : ¬ 0 < depth + balance none (Text.trim raw)) : depthAfter depth raw = 0 := by
  rw [depthAfter, h, if_neg Bool.false_ne_true]
  exact max_eq_left (Int.not_lt.mp hclosed)

/-- The number is that of a physical line which holds a text and which no bracket before it
continues; `depth` brackets are open before the first line. -/
def StartsAt (depth : Int) (number : Nat) (lines : List (List Char)) (n : Nat) : Prop :=
  ∃ before raw after, lines = before ++ raw :: after ∧ n = number + before.length ∧
    isSkipped (Text.trim raw) = false ∧ before.foldl depthAfter depth = 0

/-- The lines behind a physical line start with the depth that it leaves. -/
theorem StartsAt.cons {depth depth' : Int} {number n : Nat} {raw : List Char}
    {more : List (List Char)} (h : StartsAt depth' (number + 1) more n)
    (hdepth : depthAfter depth raw = depth') : StartsAt depth number (raw :: more) n := by
  obtain ⟨before, raw', after, rfl, hnumber, hholds, hclosed⟩ := h
  refine ⟨raw :: before, raw', after, rfl, ?_, hholds, ?_⟩
  · rw [hnumber, List.length_cons, Nat.add_assoc, Nat.add_comm 1]
  · rw [List.foldl_cons, hdepth, hclosed]

/-- A physical line continues the pending line, or it starts one. -/
theorem number_joined (pending : Option (LogicalLine × Int)) (number : Nat) {raw : List Char}
    (more : List (List Char)) (h : isSkipped (Text.trim raw) = false) :
    (∃ p, pending = some p ∧ (joined pending number raw).number = p.1.number) ∨
      StartsAt (pendingDepth pending) number (raw :: more) (joined pending number raw).number := by
  cases pending with
  | none => exact .inr ⟨[], raw, more, rfl, rfl, h, rfl⟩
  | some p => exact .inl ⟨p, rfl, rfl⟩

/-- A logical line has the number of a physical line that holds a text and continues no other, or of
the pending line. -/
theorem exists_of_mem_gather {pending : Option (LogicalLine × Int)} {number : Nat}
    {lines : List (List Char)} {line : LogicalLine}
    (h : line ∈ gather pending (numberFrom number lines)) :
    (∃ p, pending = some p ∧ line.number = p.1.number) ∨
      StartsAt (pendingDepth pending) number lines line.number := by
  induction lines generalizing pending number with
  | nil =>
    cases pending with
    | none => exact absurd h List.not_mem_nil
    | some p => exact .inl ⟨p, rfl, congrArg LogicalLine.number (List.mem_singleton.mp h)⟩
  | cons raw more ih =>
    rw [numberFrom_cons] at h
    cases hskipped : isSkipped (Text.trim raw) with
    | true =>
      rw [gather_skipped _ _ _ hskipped] at h
      exact (ih h).imp_right fun hlater => hlater.cons (depthAfter_skipped hskipped _)
    | false =>
      have hjoined := number_joined pending number more hskipped
      rw [gather_joined _ _ _ hskipped] at h
      split at h
      case isTrue hopen =>
        rcases ih h with ⟨p, hp, hnumber⟩ | hlater
        · cases hp
          rwa [hnumber]
        · exact .inr (hlater.cons (depthAfter_open hskipped hopen))
      case isFalse hclosed =>
        rcases List.mem_cons.mp h with rfl | hmore
        · exact hjoined
        · rcases ih hmore with ⟨p, hp, -⟩ | hlater
          · cases hp
          · exact .inr (hlater.cons (depthAfter_closed hskipped hclosed))

end LogicalLine

namespace Node

open LogicalLine (isSkipped depthAfter)

/-- **An error of a script names a line and hangs on nothing behind it.** -/
theorem read_error_local {source : List Char} {e : ReadError} (h : read source = .error e) :
    ∃ before raw after, Text.lines source = before ++ raw :: after ∧
      (ScriptError.layout e).line? = some (before.length + 1) ∧
      isSkipped (Text.trim raw) = false ∧ before.foldl depthAfter 0 = 0 ∧
      ∃ front line back, logicalLines source = front ++ line :: back ∧
        line.number = before.length + 1 ∧
        ∀ source' back', logicalLines source' = front ++ line :: back' → read source' = .error e := by
  obtain ⟨front, line, back, hlines, hnumber, hall⟩ := ofLines_error h
  have hmem : line ∈ logicalLines source := by
    rw [hlines]
    exact List.mem_append_right front List.mem_cons_self
  rw [LogicalLine.logicalLines_eq] at hmem
  rcases LogicalLine.exists_of_mem_gather hmem with ⟨p, hp, -⟩ | hphysical
  · cases hp
  · obtain ⟨before, raw, after, hsource, hline, hholds, hclosed⟩ := hphysical
    rw [Nat.add_comm] at hline
    refine ⟨before, raw, after, hsource, ?_, hholds, hclosed, front, line, back, hlines, hline, ?_⟩
    · exact congrArg some (hnumber.symm.trans hline)
    · intro source' back' hsource'
      rw [read, hsource']
      exact hall back'

/-- A key on the line behind an item. -/
theorem read_error_local_entryInList :
    read "-\na:\n".toList = .error ⟨2, .entryInList⟩ ∧
      ∃ before raw after, Text.lines "-\na:\n".toList = before ++ raw :: after ∧
        (ScriptError.layout ⟨2, .entryInList⟩).line? = some (before.length + 1) := by
  have hread : read "-\na:\n".toList = .error ⟨2, .entryInList⟩ := by cbv
  obtain ⟨before, raw, after, hlines, hline, -⟩ := read_error_local hread
  exact ⟨hread, before, raw, after, hlines, hline⟩

end Node

end PixelScene
