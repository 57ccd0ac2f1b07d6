import PixelScene.Proofs.Node.Inline
import PixelScene.Proofs.Rounds

/-!
# Values on one line, read in rounds

The readers of `Node/Inline.lean` carry the reason why they end: what they leave is shorter. Here
they are loops that collect entries and items and calls that nest, over what is left of the text,
and they stop unfinished when the rounds run out.

A pass of a list may read a value that takes nothing, before a comma. It moves on all the same: a
list that goes on without a comma has met its closing sign, which was not there before the value.

* `progresses_entryPass`, `progresses_itemPass`: a pass of either loop that another one follows has
  moved on in the text, whatever the value in it takes.
* `value_ends`: a value ends in as many rounds as there are characters, and one more.
* `value_agrees`: what it comes to is what the reader returns.

The measure is the number of characters left. Calls nest as deeply as brackets do, and each of them
has taken its bracket before it calls; the loops move on by a comma or end. That the engine's own
loops end is thus a property of their passes (`PixelScene.Proofs.Rounds`), for every text.
-/

namespace PixelScene.Node.InRounds

open Text (trimStart)

/-! ## Readers as runs -/

/-- The run of a reader, without what the reader proves about what it returns. -/
def ofReader {ε α : Type} {p : α → Prop} (x : Except ε { a // p a }) : Run ε α :=
  Run.of (x.map Subtype.val)

section OfReader

variable {ε α β γ : Type} {p : α → Prop} {q : β → Prop} {x : Except ε { a // p a }} {a : α}

theorem returns_ofReader_iff : (ofReader x).Returns a ↔ Yields x a :=
  Run.returns_of_iff.trans map_val_eq_ok_iff

theorem ofReader_eq_error_iff {e : ε} : ofReader x = Run.of (.error e) ↔ x = .error e := by
  cases x with
  | error e' => exact ⟨fun h => congrArg _ (Except.error.inj (Run.of_inj h)), fun h => h ▸ rfl⟩
  | ok a => exact ⟨fun h => absurd (Run.of_inj h) nofun, nofun⟩

theorem ofReader_ends (x : Except ε { a // p a }) : (ofReader x).Ends := Run.ends_of _

/-- Steps that go on from a reader do so as a run. -/
theorem of_bind {f : { a // p a } → Except ε β} {g : α → Run ε β}
    (h : ∀ a ha, Run.of (f ⟨a, ha⟩) = g a) : Run.of (x >>= f) = ofReader x >>= g := by
  cases x with
  | error e => rfl
  | ok a => exact h a.1 a.2

/-- A reader that goes on from another one does so as a run. -/
theorem ofReader_bind {f : { a // p a } → Except ε { b // q b }} {g : α → Run ε β}
    (h : ∀ a ha, ofReader (f ⟨a, ha⟩) = g a) : ofReader (x >>= f) = ofReader x >>= g := by
  cases x with
  | error e => rfl
  | ok a => exact h a.1 a.2

/-- A reader that goes on from a step does so as a run. -/
theorem ofReader_step {y : Except ε α} {f : α → Except ε { b // q b }} {g : α → Run ε β}
    (h : ∀ a, ofReader (f a) = g a) : ofReader (y >>= f) = Run.of y >>= g := by
  cases y with
  | error e => rfl
  | ok a => exact h a

/-- A reader that goes on from another one, and what follows it, do so as a run. -/
theorem ofReader_bind_then {f : { a // p a } → Except ε { b // q b }} {k : β → Run ε γ} {g : α → Run ε γ}
    (h : ∀ a ha, (ofReader (f ⟨a, ha⟩) >>= k) = g a) :
    (ofReader (x >>= f) >>= k) = (ofReader x >>= g) := by
  cases x with
  | error e => rfl
  | ok a => exact h a.1 a.2

/-- A reader that goes on from a step, and what follows it, do so as a run. -/
theorem ofReader_step_then {y : Except ε α} {f : α → Except ε { b // q b }} {k : β → Run ε γ}
    {g : α → Run ε γ} (h : ∀ a, (ofReader (f a) >>= k) = g a) :
    (ofReader (y >>= f) >>= k) = (Run.of y >>= g) := by
  cases y with
  | error e => rfl
  | ok a => exact h a

/-- Puts what a loop has collected in front of what is read after it. -/
def addTo (front : List α) (r : List α × List β) : Run ε (List α × List β) :=
  pure (front ++ r.1, r.2)

theorem addTo_nil : addTo (ε := ε) ([] : List α) = (pure : List α × List β → _) := rfl

theorem addTo_none (front : List α) (rest : List β) :
    (addTo front ([], rest) : Run ε _) = pure (front, rest) := by
  rw [addTo, List.append_nil]

/-- A reader that puts an element in front of what it reads next, when both are put behind
others. -/
theorem ofReader_cons {p q : List α × List β → Prop} {x : Except ε { a // p a }}
    {f : { a // p a } → Except ε { b // q b }} {front : List α} {a : α}
    (hf : ∀ r hr, ∃ h, f ⟨r, hr⟩ = pure ⟨(a :: r.1, r.2), h⟩) :
    (ofReader (x >>= f) >>= addTo front) = (ofReader x >>= addTo (front ++ [a])) := by
  refine ofReader_bind_then fun r hr => ?_
  obtain ⟨h, hpure⟩ := hf r hr
  rw [hpure, addTo, List.append_assoc]
  rfl

end OfReader

/-! ## The source in rounds -/

section Passes

variable (value : List Char → Reading Char ReadFault Node)

/-- The kinds of values that hold others. -/
inductive Nest where
  | entries
  | items

/-- The start of a value: a brace or a bracket, after which more is read, or else a whole value. -/
def opening (separators : List Char) : Reading Char ReadFault (Pass Nest Node) := fun cs =>
  match trimStart cs with
  | [] => throw .unterminatedValue
  | c :: rest =>
    if c = '{' then pure (.again .entries, rest)
    else if c = '[' then pure (.again .items, rest)
    else if isQuote c then do
      let (s, more) ← ofReader (readQuoted c rest)
      pure (.done (.text s), more)
    else
      let (word, more) := (readBare separators (c :: rest)).1
      pure (.done (scalar word), more)

/-- What follows an element: a comma is taken, the closing sign is left to the next pass. -/
def separator (close : Char) (fault : ReadFault) (cs : List Char) : Except ReadFault (List Char) :=
  match trimStart cs with
  | [] => throw fault
  | d :: more =>
    if d = ',' then return more else if d = close then return d :: more else throw fault

/-- The value of an entry, which may be missing. -/
def entryValue : Reading Char ReadFault Node := fun cs =>
  match trimStart cs with
  | [] => throw .unterminatedValue
  | c :: rest => if c = ',' ∨ c = '}' then pure (.null, c :: rest) else value [',', '}'] cs

/-- One pass over the entries of a mapping. -/
def entryPass (entries : List (String × Node)) :
    Reading Char ReadFault (Pass (List (String × Node)) (List (String × Node))) := fun cs =>
  match trimStart cs with
  | [] => throw .unterminatedObject
  | c :: start =>
    if c = '}' then pure (.done entries, start)
    else do
      let (key, afterKey) ← ofReader (readKey (c :: start))
      if key.isEmpty then throw .emptyKey
      let body ← ofReader (readColon afterKey)
      let (node, afterValue) ← entryValue value body
      let rest ← Run.of (separator '}' .badObjectSeparator afterValue)
      pure (.again (entries ++ [(key, node)]), rest)

/-- One pass over the items of a list. -/
def itemPass (items : List Node) : Reading Char ReadFault (Pass (List Node) (List Node)) := fun cs =>
  match trimStart cs with
  | [] => throw .unterminatedList
  | c :: start =>
    if c = ']' then pure (.done items, start)
    else do
      let (node, afterValue) ← value [',', ']'] cs
      let rest ← Run.of (separator ']' .badListSeparator afterValue)
      pure (.again (items ++ [node]), rest)

end Passes

/-- A value, with the rounds that the values inside it and their loops have. -/
def value : (rounds : Nat) → List Char → Reading Char ReadFault Node
  | 0, _, _ => Run.unfinished
  | rounds + 1, separators, cs => do
    match ← opening separators cs with
    | (.done node, rest) => pure (node, rest)
    | (.again .entries, rest) => do
      let (entries, rest) ← loop (entryPass (value rounds)) (rounds + 1) [] rest
      pure (.map entries, rest)
    | (.again .items, rest) => do
      let (items, rest) ← loop (itemPass (value rounds)) (rounds + 1) [] rest
      pure (.list items, rest)

/-- The node of a text that holds one value. -/
def text (rounds : Nat) (cs : List Char) : Run ReadFault Node :=
  if startsDelimited (trimStart cs) then do
    let (node, rest) ← value rounds [] cs
    if (trimStart rest).isEmpty then pure node else throw (.trailingText (String.ofList cs))
  else pure (scalar (Text.trim cs))

/-- The node of a text that holds one value and stands on a given line. -/
def inline (rounds : Nat) (cs : List Char) (line : Nat) : Run ReadError Node :=
  ExceptT.adapt (fun fault => ⟨line, fault⟩) (text rounds cs)

/-! ## Moving on -/

section Moving

variable {cs rest : List Char}

theorem trimStart_suffix (cs : List Char) : trimStart cs <:+ cs := List.dropWhile_suffix _

/-- What follows a sign after blanks is further on. -/
theorem further_of_trimStart {c : Char} (h : trimStart cs = c :: rest) : Further cs rest :=
  .of_suffix (h ▸ trimStart_suffix cs) (further_cons c rest)

theorem spanBare_suffix (separators : List Char) (depth : Int) (cs : List Char) :
    (spanBare separators depth cs).2 <:+ cs := by
  induction cs generalizing depth with
  | nil => exact List.suffix_rfl
  | cons c cs ih =>
    rw [spanBare]
    split
    · exact List.suffix_rfl
    · exact (ih _).trans (List.suffix_cons c cs)

theorem spanQuoted_suffix {quote : Char} {body : List Char}
    (h : spanQuoted quote cs = some (body, rest)) : rest <:+ cs := by
  fun_induction spanQuoted quote cs generalizing body rest with
  | case1 => cases h
  | case2 => cases h
  | case3 c more ih =>
    obtain ⟨⟨b, r⟩, hr, heq⟩ := Option.map_eq_some_iff.mp h
    cases heq
    exact (ih hr).trans ((List.suffix_cons c more).trans (List.suffix_cons '\\' _))
  | case4 cs =>
    cases h
    exact List.suffix_cons _ _
  | case5 c cs _ _ ih =>
    obtain ⟨⟨b, r⟩, hr, heq⟩ := Option.map_eq_some_iff.mp h
    cases heq
    exact (ih hr).trans (List.suffix_cons c cs)

theorem readQuoted_suffix {q : Char} {s : String} (h : Yields (readQuoted q cs) (s, rest)) :
    rest <:+ cs := by
  obtain ⟨body, rest', hspan, heq⟩ := yields_readQuoted_iff.mp h
  cases heq
  exact spanQuoted_suffix hspan

theorem readKey_suffix {c : Char} {start : List Char} {key : String}
    (h : Yields (readKey (c :: start)) (key, rest)) : rest <:+ c :: start := by
  cases hc : isQuote c with
  | true =>
    have hquoted := (yields_readKey_quoted_iff hc).mp h
    exact (readQuoted_suffix hquoted).trans (List.suffix_cons c start)
  | false =>
    cases (yields_readKey_bare_iff hc).mp h
    exact spanBare_suffix _ 0 _

/-- After an element the loop stands behind a comma, or at the closing sign. -/
theorem separator_eq_ok {close : Char} {fault : ReadFault}
    (h : separator close fault cs = .ok rest) : trimStart cs = ',' :: rest ∨
      ∃ more, trimStart cs = close :: more ∧ rest = close :: more := by
  unfold separator at h
  cases hcs : trimStart cs with
  | nil =>
    rw [hcs] at h
    exact absurd h nofun
  | cons d more =>
    rw [hcs] at h
    simp only at h
    split at h
    case isTrue hd =>
      cases h
      exact .inl (hd ▸ rfl)
    case isFalse =>
      split at h
      · rename_i hd
        cases h
        exact .inr ⟨more, hd ▸ rfl, hd ▸ rfl⟩
      · exact absurd h nofun

theorem separator_suffix {close : Char} {fault : ReadFault}
    (h : separator close fault cs = .ok rest) : rest <:+ cs := by
  rcases separator_eq_ok h with hcs | ⟨more, hcs, rfl⟩
  · exact (further_of_trimStart hcs).suffix
  · exact hcs ▸ trimStart_suffix cs

/-- What the start of a value leaves: nothing less than before, and less if more is read. -/
theorem opening_returns {separators : List Char} {r : Pass Nest Node}
    (h : (opening separators cs).Returns (r, rest)) :
    rest <:+ cs ∧ ∀ nest, r = .again nest → Further cs rest := by
  unfold opening at h
  cases hcs : trimStart cs with
  | nil =>
    rw [hcs] at h
    exact absurd h Run.not_returns_throw
  | cons c start =>
    have hstart := further_of_trimStart hcs
    rw [hcs] at h
    simp only at h
    split at h
    · cases Run.returns_pure_iff.mp h
      exact ⟨hstart.suffix, fun _ _ => hstart⟩
    · split at h
      · cases Run.returns_pure_iff.mp h
        exact ⟨hstart.suffix, fun _ _ => hstart⟩
      · split at h
        · obtain ⟨⟨s, more⟩, hquoted, hpure⟩ := Run.returns_bind_iff.mp h
          cases Run.returns_pure_iff.mp hpure
          have hmore := readQuoted_suffix (returns_ofReader_iff.mp hquoted)
          exact ⟨hmore.trans hstart.suffix, nofun⟩
        · cases Run.returns_pure_iff.mp h
          exact ⟨(spanBare_suffix _ 0 _).trans (hcs ▸ trimStart_suffix cs), nofun⟩

variable {value : List Char → Reading Char ReadFault Node}
  (hvalue : ∀ separators, Takes (value separators))

include hvalue

theorem takes_entryValue : Takes (entryValue value) := by
  intro cs node rest h
  unfold entryValue at h
  cases hcs : trimStart cs with
  | nil =>
    rw [hcs] at h
    exact absurd h Run.not_returns_throw
  | cons c start =>
    rw [hcs] at h
    simp only at h
    split at h
    · cases Run.returns_pure_iff.mp h
      exact hcs ▸ trimStart_suffix cs
    · exact hvalue _ cs node rest h

/-- Whatever a pass over the entries comes to, it has taken a sign. -/
theorem further_of_entryPass {entries : List (String × Node)}
    {r : Pass (List (String × Node)) (List (String × Node))}
    (h : (entryPass value entries cs).Returns (r, rest)) : Further cs rest := by
  unfold entryPass at h
  cases hcs : trimStart cs with
  | nil =>
    rw [hcs] at h
    exact absurd h Run.not_returns_throw
  | cons c start =>
    rw [hcs] at h
    simp only at h
    split at h
    · cases Run.returns_pure_iff.mp h
      exact further_of_trimStart hcs
    · obtain ⟨⟨key, afterKey⟩, hkey, h⟩ := Run.returns_bind_iff.mp h
      simp only at h
      split at h
      · exact absurd h Run.not_returns_throw
      · obtain ⟨body, hbody, h⟩ := Run.returns_bind_iff.mp h
        obtain ⟨⟨node, afterValue⟩, hnode, h⟩ := Run.returns_bind_iff.mp h
        obtain ⟨left, hleft, h⟩ := Run.returns_bind_iff.mp h
        cases Run.returns_pure_iff.mp h
        have hafterKey : afterKey <:+ cs :=
          (readKey_suffix (returns_ofReader_iff.mp hkey)).trans (hcs ▸ trimStart_suffix cs)
        have hcolon : Further afterKey body :=
          further_of_trimStart (yields_readColon_iff.mp (returns_ofReader_iff.mp hbody))
        have hafterValue : afterValue <:+ body := takes_entryValue hvalue _ _ _ hnode
        have hrest := separator_suffix (Run.returns_of_iff.mp hleft)
        exact (hcolon.trans_suffix (hrest.trans hafterValue)).of_suffix hafterKey

/-- Whatever a pass over the items comes to, it has taken a sign. -/
theorem further_of_itemPass {items : List Node} {r : Pass (List Node) (List Node)}
    (h : (itemPass value items cs).Returns (r, rest)) : Further cs rest := by
  unfold itemPass at h
  cases hcs : trimStart cs with
  | nil =>
    rw [hcs] at h
    exact absurd h Run.not_returns_throw
  | cons c start =>
    rw [hcs] at h
    simp only at h
    split at h
    · cases Run.returns_pure_iff.mp h
      exact further_of_trimStart hcs
    · rename_i hc
      obtain ⟨⟨node, afterValue⟩, hnode, h⟩ := Run.returns_bind_iff.mp h
      obtain ⟨left, hleft, h⟩ := Run.returns_bind_iff.mp h
      cases Run.returns_pure_iff.mp h
      have hseparator := Run.returns_of_iff.mp hleft
      rcases eq_or_further (hvalue _ _ _ _ hnode) with rfl | hfurther
      · -- the value took nothing, so the closing sign cannot follow it
        rcases separator_eq_ok hseparator with hcomma | ⟨more, hclose, -⟩
        · exact further_of_trimStart hcomma
        · exact absurd (List.cons.inj (hcs.symm.trans hclose)).1 hc
      · exact hfurther.trans_suffix (separator_suffix hseparator)

theorem takes_entryPass (entries : List (String × Node)) : Takes (entryPass value entries) :=
  fun _ _ _ h => (further_of_entryPass hvalue h).suffix

theorem takes_itemPass (items : List Node) : Takes (itemPass value items) :=
  fun _ _ _ h => (further_of_itemPass hvalue h).suffix

theorem progresses_entryPass : Progresses (entryPass value) :=
  fun _ _ _ _ h => further_of_entryPass hvalue h

theorem progresses_itemPass : Progresses (itemPass value) :=
  fun _ _ _ _ h => further_of_itemPass hvalue h

end Moving

/-- A value takes a front of the text. -/
theorem takes_value (rounds : Nat) (separators : List Char) : Takes (value rounds separators) := by
  induction rounds generalizing separators with
  | zero =>
    intro cs node rest h
    exact absurd h.symm (Run.of_ne_unfinished _)
  | succ rounds ih =>
    intro cs node rest h
    rw [value, Run.returns_bind_iff] at h
    obtain ⟨⟨nest | node', start⟩, hopening, h⟩ := h
    · have hstart := (opening_returns hopening).1
      cases nest with
      | entries =>
        obtain ⟨⟨entries, left⟩, hloop, h⟩ := Run.returns_bind_iff.mp h
        cases Run.returns_pure_iff.mp h
        exact (takes_loop (takes_entryPass ih) _ _ _ _ _ hloop).trans hstart
      | items =>
        obtain ⟨⟨items, left⟩, hloop, h⟩ := Run.returns_bind_iff.mp h
        cases Run.returns_pure_iff.mp h
        exact (takes_loop (takes_itemPass ih) _ _ _ _ _ hloop).trans hstart
    · cases Run.returns_pure_iff.mp h
      exact (opening_returns hopening).1

/-! ## Ending -/

section Ending

variable {value : List Char → Reading Char ReadFault Node} {cs : List Char}

theorem opening_ends (separators cs : List Char) : (opening separators cs).Ends := by
  unfold opening
  cases trimStart cs with
  | nil => exact Run.ends_throw _
  | cons c rest =>
    simp only
    split
    · exact Run.ends_pure _
    · split
      · exact Run.ends_pure _
      · split
        · exact (ofReader_ends _).bind fun r _ => Run.ends_pure _
        · exact Run.ends_pure _

theorem entryValue_ends (hvalue : (value [',', '}'] cs).Ends) : (entryValue value cs).Ends := by
  unfold entryValue
  cases trimStart cs with
  | nil => exact Run.ends_throw _
  | cons c rest =>
    simp only
    split
    · exact Run.ends_pure _
    · exact hvalue

theorem entryPass_ends (hvalue : ∀ separators ys, ys <:+ cs → (value separators ys).Ends)
    (entries : List (String × Node)) : (entryPass value entries cs).Ends := by
  unfold entryPass
  cases hcs : trimStart cs with
  | nil => exact Run.ends_throw _
  | cons c start =>
    simp only
    split
    · exact Run.ends_pure _
    · refine (ofReader_ends _).bind fun ⟨key, afterKey⟩ hkey => ?_
      simp only
      split
      · exact Run.ends_throw _
      · refine (ofReader_ends _).bind fun body hbody => ?_
        have hafterKey : afterKey <:+ cs :=
          (readKey_suffix (returns_ofReader_iff.mp hkey)).trans (hcs ▸ trimStart_suffix cs)
        have hcolon : Further afterKey body :=
          further_of_trimStart (yields_readColon_iff.mp (returns_ofReader_iff.mp hbody))
        refine (entryValue_ends (hvalue _ body (hcolon.suffix.trans hafterKey))).bind fun r _ => ?_
        exact (Run.ends_of _).bind fun rest _ => Run.ends_pure _

theorem itemPass_ends (hvalue : (value [',', ']'] cs).Ends) (items : List Node) :
    (itemPass value items cs).Ends := by
  unfold itemPass
  cases trimStart cs with
  | nil => exact Run.ends_throw _
  | cons c start =>
    simp only
    split
    · exact Run.ends_pure _
    · exact hvalue.bind fun r _ => (Run.ends_of _).bind fun rest _ => Run.ends_pure _

end Ending

/-- **A value ends**: it needs no more rounds than there are characters, and one. -/
theorem value_ends {rounds : Nat} {separators cs : List Char} (h : cs.length < rounds) :
    (value rounds separators cs).Ends := by
  induction rounds generalizing separators cs with
  | zero => exact absurd h (Nat.not_lt_zero _)
  | succ rounds ih =>
    rw [value]
    refine (opening_ends separators cs).bind fun ⟨r, start⟩ hopening => ?_
    cases r with
    | done node => exact Run.ends_pure _
    | again nest =>
      -- the sign that opened the value makes up for the round that the values inside have less
      have hstart : start.length < rounds :=
        Nat.lt_of_lt_of_le ((opening_returns hopening).2 nest rfl).2 (Nat.le_of_lt_succ h)
      have hvalue : ∀ separators ys, ys <:+ start → (value rounds separators ys).Ends :=
        fun _ _ hys => ih (Nat.lt_of_le_of_lt hys.length_le hstart)
      cases nest with
      | entries =>
        refine Run.Ends.bind ?_ fun _ _ => Run.ends_pure _
        refine loop_ends (progresses_entryPass (takes_value rounds)) ?_ (Nat.lt_succ_of_lt hstart)
        exact fun s ys hys => entryPass_ends (fun _ zs hzs => hvalue _ zs (hzs.trans hys)) s
      | items =>
        refine Run.Ends.bind ?_ fun _ _ => Run.ends_pure _
        refine loop_ends (progresses_itemPass (takes_value rounds)) ?_ (Nat.lt_succ_of_lt hstart)
        exact fun s ys hys => itemPass_ends (hvalue _ ys hys) s

/-! ## Agreeing with the readers -/

/-- The reader of values as a run. -/
def whole (separators : List Char) : Reading Char ReadFault Node := fun cs =>
  ofReader (readValue separators cs)

section Agreeing

variable {cs : List Char} {value value' : List Char → Reading Char ReadFault Node}

theorem entryValue_agrees
    (h : ∀ separators cs, (value separators cs).Agrees (value' separators cs)) (cs : List Char) :
    (entryValue value cs).Agrees (entryValue value' cs) := by
  unfold entryValue
  cases trimStart cs with
  | nil => exact .refl _
  | cons c rest =>
    simp only
    split
    · exact .refl _
    · exact h _ cs

theorem entryPass_agrees
    (h : ∀ separators cs, (value separators cs).Agrees (value' separators cs))
    (entries : List (String × Node)) (cs : List Char) :
    (entryPass value entries cs).Agrees (entryPass value' entries cs) := by
  unfold entryPass
  cases trimStart cs with
  | nil => exact .refl _
  | cons c start =>
    simp only
    split
    · exact .refl _
    · refine Run.Agrees.bind (.refl _) fun ⟨key, afterKey⟩ => ?_
      simp only
      split
      · exact .refl _
      · refine Run.Agrees.bind (.refl _) fun body => ?_
        exact (entryValue_agrees h body).bind fun _ => .refl _

theorem itemPass_agrees
    (h : ∀ separators cs, (value separators cs).Agrees (value' separators cs)) (items : List Node)
    (cs : List Char) : (itemPass value items cs).Agrees (itemPass value' items cs) := by
  unfold itemPass
  cases trimStart cs with
  | nil => exact .refl _
  | cons c start =>
    simp only
    split
    · exact .refl _
    · exact (h _ cs).bind fun _ => .refl _

/-- The entries that the reader adds to those before. -/
def wholeEntries (entries : List (String × Node)) : Reading Char ReadFault (List (String × Node)) :=
  fun cs => ofReader (readEntries cs) >>= addTo entries

/-- The items that the reader adds to those before. -/
def wholeItems (items : List Node) : Reading Char ReadFault (List Node) := fun cs =>
  ofReader (readItems cs) >>= addTo items

theorem ofReader_readEntryValue (cs : List Char) :
    ofReader (readEntryValue cs) = entryValue whole cs := by
  rw [readEntryValue]
  unfold entryValue
  cases hcs : trimStart cs with
  | nil =>
    rw [skipBlanks_eq hcs]
    rfl
  | cons c rest =>
    rw [skipBlanks_eq hcs]
    simp only
    split
    · rfl
    · rfl

theorem separator_comma {close : Char} {fault : ReadFault} {more : List Char}
    (h : trimStart cs = ',' :: more) : separator close fault cs = .ok more := by
  rw [separator, h]
  rfl

theorem separator_of_ne_comma {close d : Char} {fault : ReadFault} {more : List Char}
    (hd : d ≠ ',') (h : trimStart cs = d :: more) :
    separator close fault cs = if d = close then .ok (d :: more) else .error fault := by
  rw [separator, h]
  exact if_neg hd

theorem separator_nil {close : Char} {fault : ReadFault} (h : trimStart cs = []) :
    separator close fault cs = .error fault := by
  rw [separator, h]
  rfl

/-- No more entries come before the closing brace. -/
theorem wholeEntries_close {entries : List (String × Node)} {more : List Char}
    (h : trimStart cs = '}' :: more) : wholeEntries entries cs = pure (entries, more) := by
  rw [wholeEntries, readEntries, skipBlanks_eq h]
  exact addTo_none entries more

/-- No more items come before the closing bracket. -/
theorem wholeItems_close {items : List Node} {more : List Char}
    (h : trimStart cs = ']' :: more) : wholeItems items cs = pure (items, more) := by
  rw [wholeItems, readItems, skipBlanks_eq h]
  exact addTo_none items more

/-- Behind an element, the readers of lists and mappings go on from what the separator leaves. -/
theorem ofReader_readOn {α : Type} {close : Char} {fault : ReadFault}
    {reader : (cs : List Char) → Except ReadFault (Within (List α) cs)} (front : List α) (x : α)
    (hclose : ∀ more, (ofReader (reader (close :: more)) >>= addTo (front ++ [x])) =
      pure (front ++ [x], more)) {after : List Char} (hsize : after.length ≤ cs.length) :
    (ofReader (readOn close fault reader x hsize) >>= addTo front) =
      (Run.of (separator close fault after) >>= fun more =>
        ofReader (reader more) >>= addTo (front ++ [x])) := by
  unfold readOn
  cases hafter : trimStart after with
  | nil =>
    rw [skipBlanks_eq hafter, separator_nil hafter]
    rfl
  | cons d more =>
    rw [skipBlanks_eq hafter]
    simp only
    by_cases hcomma : d = ','
    · subst hcomma
      rw [if_pos rfl, separator_comma hafter, Run.ok_bind]
      exact ofReader_cons fun _ _ => ⟨_, rfl⟩
    · rw [if_neg hcomma, separator_of_ne_comma hcomma hafter]
      split
      case isTrue hd =>
        subst hd
        exact (hclose more).symm
      case isFalse => rfl

/-- The entries that the reader adds are those that the passes of the loop add. -/
theorem solves_wholeEntries : Solves (entryPass whole) wholeEntries := by
  intro entries cs
  unfold entryPass
  cases hcs : trimStart cs with
  | nil =>
    rw [wholeEntries, readEntries, skipBlanks_eq hcs]
    rfl
  | cons c start =>
    simp only
    split
    case isTrue hc => exact wholeEntries_close (hc ▸ hcs)
    case isFalse hc =>
      rw [wholeEntries, readEntries, skipBlanks_eq hcs]
      simp only [if_neg hc, bind_assoc]
      refine ofReader_bind_then fun ⟨key, afterKey⟩ hkey => ?_
      simp only
      split
      · rfl
      · simp only [pure_bind, bind_assoc]
        refine ofReader_bind_then fun body hbody => ?_
        rw [← ofReader_readEntryValue]
        refine ofReader_bind_then fun ⟨node, afterValue⟩ hnode => ?_
        have hshorter : (c :: start).length ≤ cs.length := hcs ▸ trimStart_shorter cs
        have hsize : afterValue.length ≤ cs.length := by
          simp only at hkey hnode
          omega
        exact ofReader_readOn entries (key, node)
          (fun more => wholeEntries_close (Text.trimStart_eq_self rfl)) hsize

/-- The items that the reader adds are those that the passes of the loop add. -/
theorem solves_wholeItems : Solves (itemPass whole) wholeItems := by
  intro items cs
  unfold itemPass
  cases hcs : trimStart cs with
  | nil =>
    rw [wholeItems, readItems, skipBlanks_eq hcs]
    rfl
  | cons c start =>
    simp only
    split
    case isTrue hc => exact wholeItems_close (hc ▸ hcs)
    case isFalse hc =>
      rw [wholeItems, readItems, skipBlanks_eq hcs]
      simp only [if_neg hc, bind_assoc]
      refine ofReader_bind_then fun ⟨node, afterValue⟩ hnode => ?_
      exact ofReader_readOn items node
        (fun more => wholeItems_close (Text.trimStart_eq_self rfl)) hnode

/-- The reader of values goes on from the start of a value as the rounds do. -/
theorem whole_eq (separators cs : List Char) :
    whole separators cs = (do
      match ← opening separators cs with
      | (.done node, rest) => pure (node, rest)
      | (.again .entries, rest) => do
        let (entries, rest) ← wholeEntries [] rest
        pure (.map entries, rest)
      | (.again .items, rest) => do
        let (items, rest) ← wholeItems [] rest
        pure (.list items, rest)) := by
  unfold whole opening
  rw [readValue]
  cases hcs : trimStart cs with
  | nil =>
    rw [skipBlanks_eq hcs]
    rfl
  | cons c rest =>
    rw [skipBlanks_eq hcs]
    simp only
    split
    case isTrue =>
      simp only [pure_bind, wholeEntries, addTo_nil, bind_pure]
      exact ofReader_bind fun _ _ => rfl
    case isFalse =>
      split
      case isTrue =>
        simp only [pure_bind, wholeItems, addTo_nil, bind_pure]
        exact ofReader_bind fun _ _ => rfl
      case isFalse =>
        split
        case isTrue =>
          simp only [bind_assoc, pure_bind]
          exact ofReader_bind fun _ _ => rfl
        case isFalse => rfl

end Agreeing

/-- **A value comes to what the reader returns**, if the rounds suffice for it. -/
theorem value_agrees (rounds : Nat) (separators cs : List Char) :
    (value rounds separators cs).Agrees (whole separators cs) := by
  induction rounds generalizing separators cs with
  | zero => exact .inl rfl
  | succ rounds ih =>
    rw [value, whole_eq]
    refine Run.Agrees.bind (.refl _) fun ⟨r, start⟩ => ?_
    cases r with
    | done node => exact .refl _
    | again nest =>
      cases nest with
      | entries =>
        have hloop := loop_agrees (entryPass_agrees ih) solves_wholeEntries (rounds + 1) [] start
        exact hloop.bind fun _ => .refl _
      | items =>
        have hloop := loop_agrees (itemPass_agrees ih) solves_wholeItems (rounds + 1) [] start
        exact hloop.bind fun _ => .refl _

/-! ## A whole value -/

theorem text_ends {rounds : Nat} {cs : List Char} (h : cs.length < rounds) : (text rounds cs).Ends := by
  unfold text
  split
  · refine (value_ends h).bind fun ⟨node, rest⟩ _ => ?_
    simp only
    split
    · exact Run.ends_pure _
    · exact Run.ends_throw _
  · exact Run.ends_pure _

theorem text_agrees (rounds : Nat) (cs : List Char) :
    (text rounds cs).Agrees (Run.of (parseText cs)) := by
  unfold text parseText
  split
  · rw [of_bind (g := fun r =>
      if (trimStart r.2).isEmpty then pure r.1 else throw (.trailingText (String.ofList cs)))]
    · exact (value_agrees rounds [] cs).bind fun _ => .refl _
    · intro ⟨node, rest⟩ _
      exact apply_ite Run.of _ _ _
  · exact .refl _

theorem inline_agrees (rounds : Nat) (cs : List Char) (line : Nat) :
    (inline rounds cs line).Agrees (Run.of (parseInline cs line)) := by
  rw [inline]
  rcases text_agrees rounds cs with h | h
  · exact .inl (h ▸ rfl)
  · exact .inr (h ▸ rfl)

theorem inline_ends {rounds : Nat} {cs : List Char} (line : Nat) (h : cs.length < rounds) :
    (inline rounds cs line).Ends := by
  obtain ⟨r, hr⟩ := text_ends h
  rw [inline, hr]
  exact ⟨_, rfl⟩

end PixelScene.Node.InRounds
