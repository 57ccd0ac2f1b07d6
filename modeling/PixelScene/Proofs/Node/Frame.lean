import PixelScene.Node.Line
import PixelScene.Proofs.Node.Inline

/-!
# What a value takes off its text

A value in brackets or braces ends with its own closing sign: the readers take a front of the text
and return the same whatever follows that front (`Closed`). A bare word ends where the sign after it
says so, and only that sign may not change (`Local`).

* `closed`: lists and mappings are closed, by induction on the length of the text.
* `parseText_trimEnd`: so blanks after a list or a mapping make no difference.

A script line may be continued by others, and a value may be followed by more statements, so what a
reader does must not depend on what comes later. For values in brackets this is so without a
condition. Both notions are proved along the readers, by the length of what they leave.
-/

namespace PixelScene.Node

open Text (Blanks StartsSolid EndsSolid trimStart)

section Frames

variable {α : Type} {reader : (cs : List Char) → Except ReadFault (Within α cs)}
  {cs rest : List Char} {a : α}

/-- The reader takes a front of the text that ends with a sign, whatever follows. -/
def Closed (reader : (cs : List Char) → Except ReadFault (Within α cs)) (cs : List Char) (a : α)
    (rest : List Char) : Prop :=
  ∃ used, cs = used ++ rest ∧ EndsSolid used ∧ ∀ rest', Yields (reader (used ++ rest')) (a, rest')

/-- The reader takes a front of the text, whatever follows that starts with the same sign; and the
text still starts with the same sign. -/
def Local (reader : (cs : List Char) → Except ReadFault (Within α cs)) (cs : List Char) (a : α)
    (rest : List Char) : Prop :=
  ∃ used, cs = used ++ rest ∧ ∀ rest', rest'.head? = rest.head? →
    (trimStart (used ++ rest')).head? = (trimStart cs).head? ∧
      Yields (reader (used ++ rest')) (a, rest')

theorem head?_append_congr {rest rest' : List Char} (used : List Char)
    (h : rest'.head? = rest.head?) : (used ++ rest').head? = (used ++ rest).head? := by
  rw [List.head?_append, List.head?_append, h]

theorem exists_cons_of_head? {c : Char} (h : cs.head? = some c) : ∃ more, cs = c :: more :=
  List.head?_eq_some_iff.mp h

theorem Closed.local (h : Closed reader cs a rest) : Local reader cs a rest := by
  obtain ⟨used, rfl, hends, hused⟩ := h
  refine ⟨used, rfl, fun rest' _ => ⟨?_, hused rest'⟩⟩
  rw [hends.trimStart_append, hends.trimStart_append]
  exact hends.trimStart.head?_append rest rest'

end Frames

/-! ## Quoted texts and bare words -/

theorem isBlank_of_isQuote {q : Char} (hq : isQuote q = true) : Text.isBlank q = false := by
  rcases (by simpa [isQuote] using hq : q = '"' ∨ q = '\'') with rfl | rfl
  · rfl
  · rfl

theorem spanQuoted_closed {q : Char} {cs body rest : List Char} (hq : Text.isBlank q = false)
    (h : spanQuoted q cs = some (body, rest)) :
    ∃ used, cs = used ++ rest ∧ EndsSolid used ∧
      ∀ rest', spanQuoted q (used ++ rest') = some (body, rest') := by
  fun_induction spanQuoted q cs generalizing body rest with
  | case1 => cases h
  | case2 => cases h
  | case3 c more ih =>
    obtain ⟨⟨b, r⟩, hr, heq⟩ := Option.map_eq_some_iff.mp h
    obtain ⟨rfl, rfl⟩ := Prod.mk.inj heq
    obtain ⟨used, rfl, hends, hused⟩ := ih hr
    refine ⟨'\\' :: c :: used, rfl, (hends.cons c).cons '\\', fun rest' => ?_⟩
    rw [List.cons_append, List.cons_append, spanQuoted, hused rest']
    rfl
  | case4 cs hbackslash =>
    obtain ⟨rfl, rfl⟩ := Prod.mk.inj (Option.some.inj h)
    refine ⟨[q], rfl, ⟨[], q, rfl, hq⟩, fun rest' => ?_⟩
    rw [List.singleton_append, spanQuoted, if_pos rfl]
    exact hbackslash
  | case5 c cs hbackslash hc ih =>
    obtain ⟨⟨b, r⟩, hr, heq⟩ := Option.map_eq_some_iff.mp h
    obtain ⟨rfl, rfl⟩ := Prod.mk.inj heq
    obtain ⟨used, rfl, hends, hused⟩ := ih hr
    refine ⟨c :: used, rfl, hends.cons c, fun rest' => ?_⟩
    rw [List.cons_append, spanQuoted, if_neg hc, hused rest']
    · rfl
    · exact hbackslash

theorem spanBare_local {separators cs word rest : List Char} {depth : Int}
    (h : spanBare separators depth cs = (word, rest)) (hrest : rest ≠ []) :
    cs = word ++ rest ∧ ∀ rest', rest'.head? = rest.head? →
      spanBare separators depth (word ++ rest') = (word, rest') := by
  induction cs generalizing depth word rest with
  | nil =>
    obtain ⟨-, rfl⟩ := Prod.mk.inj h
    exact absurd rfl hrest
  | cons c cs ih =>
    rw [spanBare] at h
    by_cases hstop : c ≠ '(' ∧ c ≠ ')' ∧ depth ≤ 0 ∧ c ∈ separators
    · rw [if_pos hstop] at h
      obtain ⟨rfl, rfl⟩ := Prod.mk.inj h
      refine ⟨rfl, fun rest' hhead => ?_⟩
      obtain ⟨more, rfl⟩ := List.head?_eq_some_iff.mp hhead
      rw [List.nil_append, spanBare, if_pos hstop]
    · rw [if_neg hstop] at h
      obtain ⟨rfl, rfl⟩ := Prod.mk.inj h
      obtain ⟨hcs, hword⟩ := ih rfl hrest
      refine ⟨congrArg (List.cons c) hcs, fun rest' hhead => ?_⟩
      rw [List.cons_append, spanBare, if_neg hstop]
      simp only [hword rest' hhead]

/-! ## Keys and values -/

theorem readKey_local {cs rest : List Char} {key : String} (h : Yields (readKey cs) (key, rest))
    (hrest : rest ≠ []) : ∃ used, cs = used ++ rest ∧ ∀ rest', rest'.head? = rest.head? →
      Yields (readKey (used ++ rest')) (key, rest') := by
  cases cs with
  | nil =>
    rw [readKey] at h
    exact absurd (Prod.mk.inj (yields_pure_iff.mp h)).2 hrest
  | cons c start =>
    cases hc : isQuote c with
    | true =>
      obtain ⟨body, left, hspan, heq⟩ :=
        yields_readQuoted_iff.mp ((yields_readKey_quoted_iff hc).mp h)
      obtain ⟨rfl, rfl⟩ := Prod.mk.inj heq
      obtain ⟨used, rfl, -, hused⟩ := spanQuoted_closed (isBlank_of_isQuote hc) hspan
      refine ⟨c :: used, rfl, fun rest' _ => ?_⟩
      exact (yields_readKey_quoted_iff hc).mpr
        (yields_readQuoted_iff.mpr ⟨body, rest', hused rest', rfl⟩)
    | false =>
      obtain ⟨hkey, rfl⟩ := Prod.mk.inj ((yields_readKey_bare_iff hc).mp h)
      obtain ⟨hcs, hword⟩ := spanBare_local rfl hrest
      refine ⟨_, hcs, fun rest' hhead => ?_⟩
      have hcons := head?_append_congr (spanBare [':', ',', '}'] 0 (c :: start)).1 hhead
      rw [← hcs] at hcons
      obtain ⟨more, hmore⟩ := exists_cons_of_head? hcons
      have hspan := hword rest' hhead
      rw [hmore] at hspan ⊢
      rw [yields_readKey_bare_iff hc, hspan, hkey]

/-! ## Lists and mappings -/

def EntriesClosed (cs : List Char) : Prop :=
  ∀ entries rest, Yields (readEntries cs) (entries, rest) → Closed readEntries cs entries rest

def ItemsClosed (cs : List Char) : Prop :=
  ∀ items rest, Yields (readItems cs) (items, rest) → Closed readItems cs items rest

def ValueLocal (cs : List Char) : Prop :=
  ∀ separators n rest, rest ≠ [] → Yields (readValue separators cs) (n, rest) →
    Local (readValue separators) cs n rest

/-- The ways in which a value starts that has a closing sign of its own. -/
theorem startsDelimited_cases {cs : List Char} (h : startsDelimited cs = true) :
    (∃ start, cs = '{' :: start) ∨ (∃ start, cs = '[' :: start) ∨
      ∃ q start, cs = q :: start ∧ isQuote q = true := by
  cases cs with
  | nil => cases h
  | cons c start =>
    simp only [startsDelimited, Bool.or_eq_true, beq_iff_eq] at h
    rcases h with (rfl | rfl) | hquote
    · exact .inl ⟨start, rfl⟩
    · exact .inr (.inl ⟨start, rfl⟩)
    · exact .inr (.inr ⟨c, start, rfl, hquote⟩)

/-- A sign, and what is closed after it. -/
theorem closed_of_front {α : Type} {reader : (cs : List Char) → Except ReadFault (Within α cs)}
    {b used rest : List Char} {c : Char} {a : α} (hends : EndsSolid used)
    (h : ∀ rest', Yields (reader (b ++ c :: (used ++ rest'))) (a, rest')) :
    Closed reader (b ++ c :: (used ++ rest)) a rest := by
  refine ⟨b ++ c :: used, by simp, (hends.cons c).append b, fun rest' => ?_⟩
  have happend : b ++ c :: used ++ rest' = b ++ c :: (used ++ rest') := by simp
  rw [happend]
  exact h rest'

/-- A value in brackets, braces or quotes is closed. -/
theorem valueClosed_of_shorter {cs separators rest : List Char} {n : Node}
    (hentries : ∀ start, start.length < cs.length → EntriesClosed start)
    (hitems : ∀ start, start.length < cs.length → ItemsClosed start)
    (hcs : startsDelimited (trimStart cs) = true) (h : Yields (readValue separators cs) (n, rest)) :
    Closed (readValue separators) cs n rest := by
  have hlength : ∀ {b c start}, cs = b ++ c :: start → start.length < cs.length := by
    rintro b c start rfl
    rw [List.length_append, List.length_cons]
    omega
  rcases startsDelimited_cases hcs with ⟨start, hcs⟩ | ⟨start, hcs⟩ | ⟨q, start, hcs, hq⟩
  · obtain ⟨⟨entries, left⟩, hread, heq⟩ := (yields_readValue_brace_iff hcs).mp h
    obtain ⟨rfl, rfl⟩ := Prod.mk.inj heq
    obtain ⟨b, hb, hc, hfront⟩ := Text.exists_front hcs
    obtain ⟨used, rfl, hends, hused⟩ := hentries start (hlength hfront) entries rest hread
    rw [hfront]
    refine closed_of_front hends fun rest' => ?_
    exact (yields_readValue_brace_iff (Text.trimStart_append_cons hb hc _)).mpr
      ⟨_, hused rest', rfl⟩
  · obtain ⟨⟨items, left⟩, hread, heq⟩ := (yields_readValue_bracket_iff hcs).mp h
    obtain ⟨rfl, rfl⟩ := Prod.mk.inj heq
    obtain ⟨b, hb, hc, hfront⟩ := Text.exists_front hcs
    obtain ⟨used, rfl, hends, hused⟩ := hitems start (hlength hfront) items rest hread
    rw [hfront]
    refine closed_of_front hends fun rest' => ?_
    exact (yields_readValue_bracket_iff (Text.trimStart_append_cons hb hc _)).mpr
      ⟨_, hused rest', rfl⟩
  · obtain ⟨⟨s, left⟩, hread, heq⟩ := (yields_readValue_quoted_iff hq hcs).mp h
    obtain ⟨rfl, rfl⟩ := Prod.mk.inj heq
    obtain ⟨body, left, hspan, heq⟩ := yields_readQuoted_iff.mp hread
    obtain ⟨rfl, rfl⟩ := Prod.mk.inj heq
    obtain ⟨b, hb, hc, hfront⟩ := Text.exists_front hcs
    obtain ⟨used, rfl, hends, hused⟩ := spanQuoted_closed hc hspan
    rw [hfront]
    refine closed_of_front hends fun rest' => ?_
    exact (yields_readValue_quoted_iff hq (Text.trimStart_append_cons hb hc _)).mpr
      ⟨_, yields_readQuoted_iff.mpr ⟨body, rest', hused rest', rfl⟩, rfl⟩

/-- A bare word ends with the sign after it. -/
theorem bareValueLocal {cs separators rest : List Char} {n : Node}
    (hcs : startsDelimited (trimStart cs) = false) (hrest : rest ≠ [])
    (h : Yields (readValue separators cs) (n, rest)) : Local (readValue separators) cs n rest := by
  obtain ⟨hne, heq⟩ := (yields_readValue_bare_iff hcs).mp h
  obtain ⟨rfl, rfl⟩ := Prod.mk.inj heq
  obtain ⟨c, start, hstart⟩ := List.exists_cons_of_ne_nil hne
  obtain ⟨b, hb, hc, hfront⟩ := Text.exists_front hstart
  rw [hstart] at hcs hrest ⊢
  obtain ⟨hspan, hword⟩ := spanBare_local rfl hrest
  refine ⟨b ++ (spanBare separators 0 (c :: start)).1, ?_, fun rest' hhead => ?_⟩
  · rw [List.append_assoc, ← hspan, hfront]
  · have hcons := head?_append_congr (spanBare separators 0 (c :: start)).1 hhead
    rw [← hspan] at hcons
    obtain ⟨more, hmore⟩ := exists_cons_of_head? hcons
    have htrim : trimStart (b ++ c :: more) = c :: more := Text.trimStart_append_cons hb hc more
    have hread := hword rest' hhead
    rw [List.append_assoc, hmore, htrim, hstart]
    rw [hmore] at hread
    have hbare : startsDelimited (trimStart (b ++ c :: more)) = false := by
      rw [htrim]
      exact hcs
    refine ⟨rfl, (yields_readValue_bare_iff hbare).mpr ?_⟩
    rw [htrim, hread]
    exact ⟨List.cons_ne_nil c more, rfl⟩

theorem valueLocal_of_shorter {cs : List Char}
    (hentries : ∀ start, start.length < cs.length → EntriesClosed start)
    (hitems : ∀ start, start.length < cs.length → ItemsClosed start) : ValueLocal cs := by
  intro separators n rest hrest h
  cases hcs : startsDelimited (trimStart cs) with
  | true => exact (valueClosed_of_shorter hentries hitems hcs h).local
  | false => exact bareValueLocal hcs hrest h

theorem entryValueLocal {cs rest : List Char} {n : Node} (hvalue : ValueLocal cs)
    (h : Yields (readEntryValue cs) (n, rest)) (hrest : rest ≠ []) :
    Local readEntryValue cs n rest := by
  by_cases hmissing : ∃ c start, trimStart cs = c :: start ∧ (c = ',' ∨ c = '}')
  · obtain ⟨c, start, hcs, hsign⟩ := hmissing
    obtain ⟨rfl, rfl⟩ := Prod.mk.inj ((yields_readEntryValue_missing_iff hsign hcs).mp h)
    obtain ⟨b, hb, hc, hfront⟩ := Text.exists_front hcs
    refine ⟨b, hfront, fun rest' hhead => ?_⟩
    obtain ⟨more, rfl⟩ := exists_cons_of_head? hhead
    have htrim := Text.trimStart_append_cons hb hc more
    rw [hcs, htrim]
    exact ⟨rfl, (yields_readEntryValue_missing_iff hsign htrim).mpr rfl⟩
  · have hpresent : ∀ c start, trimStart cs = c :: start → c ≠ ',' ∧ c ≠ '}' :=
      fun c start hcs => not_or.mp fun hsign => hmissing ⟨c, start, hcs, hsign⟩
    obtain ⟨used, rfl, hused⟩ := hvalue _ n rest hrest ((yields_readEntryValue_iff hpresent).mp h)
    refine ⟨used, rfl, fun rest' hhead => ?_⟩
    obtain ⟨hstart, hread⟩ := hused rest' hhead
    refine ⟨hstart, (yields_readEntryValue_iff fun c start hcs => ?_).mpr hread⟩
    rw [hcs] at hstart
    obtain ⟨more, hmore⟩ := exists_cons_of_head? hstart.symm
    exact hpresent c more hmore

/-- What follows an element up to the closing sign. -/
theorem Continues.closed {α : Type} {close : Char}
    {reader : (cs : List Char) → Except ReadFault (Within (List α) cs)} {x : α} {xs : List α}
    {after rest : List Char} (hshorter : ∀ more ys left, more.length < after.length →
      Yields (reader more) (ys, left) → Closed reader more ys left)
    (h : Continues close reader x after (xs, rest)) :
    ∃ used, after = used ++ rest ∧ EndsSolid used ∧
      ∀ rest', Continues close reader x (used ++ rest') (xs, rest') := by
  rcases h with ⟨more, ⟨ys, left⟩, hafter, hread, heq⟩ | ⟨more, hafter, heq⟩
  · obtain ⟨rfl, rfl⟩ := Prod.mk.inj heq
    obtain ⟨b, hb, hc, rfl⟩ := Text.exists_front hafter
    have hlength : more.length < (b ++ ',' :: more).length := by
      rw [List.length_append, List.length_cons]
      omega
    obtain ⟨used, rfl, hends, hused⟩ := hshorter more ys rest hlength hread
    refine ⟨b ++ ',' :: used, by simp, (hends.cons ',').append b, fun rest' => .inl ?_⟩
    refine ⟨used ++ rest', (ys, rest'), ?_, hused rest', rfl⟩
    rw [List.append_assoc, List.cons_append, Text.trimStart_append_cons hb hc]
  · obtain ⟨rfl, rfl⟩ := Prod.mk.inj heq
    obtain ⟨b, hb, hc, rfl⟩ := Text.exists_front hafter
    refine ⟨b ++ [close], by simp, ⟨b, close, rfl, hc⟩, fun rest' => .inr ⟨rest', ?_, rfl⟩⟩
    rw [List.append_assoc, List.singleton_append, Text.trimStart_append_cons hb hc]

theorem itemsClosed_of_shorter {cs : List Char} (hvalue : ValueLocal cs)
    (hshorter : ∀ more, more.length < cs.length → ItemsClosed more) : ItemsClosed cs := by
  intro items rest h
  cases hcs : trimStart cs with
  | nil => exact absurd h (not_yields_readItems_nil hcs)
  | cons c start =>
    by_cases hclose : c = ']'
    · subst hclose
      obtain ⟨rfl, rfl⟩ := Prod.mk.inj ((yields_readItems_close_iff hcs).mp h)
      obtain ⟨b, hb, hc, rfl⟩ := Text.exists_front hcs
      refine ⟨b ++ [']'], by simp, ⟨b, ']', rfl, hc⟩, fun rest' => ?_⟩
      rw [List.append_assoc]
      exact (yields_readItems_close_iff (Text.trimStart_append_cons hb hc rest')).mpr rfl
    · obtain ⟨value, after, hread, hmore⟩ := (yields_readItems_item_iff hclose hcs).mp h
      have hle : after.length ≤ cs.length := hread.choose
      obtain ⟨used, rfl, hends, hused⟩ := hmore.closed fun more ys left hlength =>
        hshorter more (Nat.lt_of_lt_of_le hlength hle) ys left
      obtain ⟨front, rfl, hfront⟩ := hvalue _ value _ (hends.append_ne_nil rest) hread
      refine ⟨front ++ used, by simp, hends.append front, fun rest' => ?_⟩
      obtain ⟨hstart, hread'⟩ := hfront (used ++ rest') (hends.head?_append rest rest')
      rw [hcs] at hstart
      obtain ⟨more, hmore⟩ := exists_cons_of_head? hstart
      rw [List.append_assoc]
      exact (yields_readItems_item_iff hclose hmore).mpr ⟨value, _, hread', hused rest'⟩

theorem head?_append_cons (b : List Char) (c : Char) (more more' : List Char) :
    (b ++ c :: more').head? = (b ++ c :: more).head? := by
  rw [List.head?_append, List.head?_append]
  rfl

/-- A key and its colon, whatever follows them. -/
theorem entryStart_local {c : Char} {start afterKey body : List Char} {key : String}
    (hkey : Yields (readKey (c :: start)) (key, afterKey))
    (hcolon : Yields (readColon afterKey) body) :
    ∃ front, c :: start = front ++ body ∧ ∀ body', ∃ start' afterKey',
      front ++ body' = c :: start' ∧ Yields (readKey (c :: start')) (key, afterKey') ∧
        Yields (readColon afterKey') body' := by
  obtain ⟨gap, hgap, hblank, rfl⟩ := Text.exists_front (yields_readColon_iff.mp hcolon)
  obtain ⟨used, hstart, hused⟩ := readKey_local hkey (by simp)
  refine ⟨used ++ gap ++ [':'], by rw [hstart]; simp, fun body' => ?_⟩
  -- the key ends where the blanks before the colon, or the colon itself, begin
  have hhead := head?_append_cons gap ':' body body'
  have hcons := head?_append_congr used hhead
  rw [← hstart] at hcons
  obtain ⟨start', hstart'⟩ := exists_cons_of_head? hcons
  refine ⟨start', gap ++ ':' :: body', ?_, hstart' ▸ hused _ hhead, ?_⟩
  · rw [← hstart']
    simp
  · exact yields_readColon_iff.mpr (Text.trimStart_append_cons hgap hblank body')

theorem entriesClosed_of_shorter {cs : List Char}
    (hvalue : ∀ body, body.length < cs.length → ValueLocal body)
    (hshorter : ∀ more, more.length < cs.length → EntriesClosed more) : EntriesClosed cs := by
  intro entries rest h
  cases hcs : trimStart cs with
  | nil => exact absurd h (not_yields_readEntries_nil hcs)
  | cons c start =>
    obtain ⟨b, hb, hc, rfl⟩ := Text.exists_front hcs
    by_cases hclose : c = '}'
    · subst hclose
      obtain ⟨rfl, rfl⟩ := Prod.mk.inj ((yields_readEntries_close_iff hcs).mp h)
      refine ⟨b ++ ['}'], by simp, ⟨b, '}', rfl, hc⟩, fun rest' => ?_⟩
      rw [List.append_assoc]
      exact (yields_readEntries_close_iff (Text.trimStart_append_cons hb hc rest')).mpr rfl
    · obtain ⟨key, afterKey, body, value, after, hkey, hne, hcolon, hread, hmore⟩ :=
        (yields_readEntries_entry_iff hclose hcs).mp h
      obtain ⟨front, hstart, hfront⟩ := entryStart_local hkey hcolon
      have hbody : body.length < (b ++ c :: start).length := by
        have hkeySize := hkey.choose
        have hcolonSize := hcolon.choose
        simp only at hkeySize
        rw [List.length_append]
        omega
      have hafter : after.length < (b ++ c :: start).length :=
        Nat.lt_of_le_of_lt hread.choose hbody
      obtain ⟨used, rfl, hends, hused⟩ := hmore.closed fun more ys left hlength =>
        hshorter more (Nat.lt_trans hlength hafter) ys left
      obtain ⟨text, rfl, htext⟩ :=
        entryValueLocal (hvalue body hbody) hread (hends.append_ne_nil rest)
      refine ⟨b ++ front ++ text ++ used, by rw [hstart]; simp, hends.append _, fun rest' => ?_⟩
      obtain ⟨-, hread'⟩ := htext (used ++ rest') (hends.head?_append rest rest')
      obtain ⟨start', afterKey', hsource, hkey', hcolon'⟩ := hfront (text ++ (used ++ rest'))
      have hwhole : b ++ front ++ text ++ used ++ rest' = b ++ c :: start' := by
        rw [← hsource]
        simp
      rw [hwhole]
      exact (yields_readEntries_entry_iff hclose (Text.trimStart_append_cons hb hc start')).mpr
        ⟨key, afterKey', _, value, _, hkey', hne, hcolon', hread', hused rest'⟩

/-- **Lists and mappings are closed.** -/
theorem closed (cs : List Char) : EntriesClosed cs ∧ ItemsClosed cs := by
  induction hlength : cs.length using Nat.strong_induction_on generalizing cs with
  | h length ih =>
    subst hlength
    have hshorter : ∀ more, more.length < cs.length → EntriesClosed more ∧ ItemsClosed more :=
      fun more hlt => ih more.length hlt more rfl
    have hvalue : ∀ body, body.length ≤ cs.length → ValueLocal body := by
      intro body hle
      exact valueLocal_of_shorter
        (fun more hlt => (hshorter more (Nat.lt_of_lt_of_le hlt hle)).1)
        (fun more hlt => (hshorter more (Nat.lt_of_lt_of_le hlt hle)).2)
    exact ⟨entriesClosed_of_shorter (fun body hlt => hvalue body (Nat.le_of_lt hlt))
        fun more hlt => (hshorter more hlt).1,
      itemsClosed_of_shorter (hvalue cs (Nat.le_refl _)) fun more hlt => (hshorter more hlt).2⟩

/-! ## A whole value -/

/-- **Blanks after a list or a mapping make no difference.** -/
theorem parseText_trimEnd {v : List Char} {n : Node} (hflow : startsFlow v = true)
    (h : parseText v = .ok n) : parseText (Text.trimEnd v) = .ok n := by
  have hdelimited : ∀ {cs}, startsFlow cs = true → startsDelimited (trimStart cs) = true := by
    intro cs hcs
    cases cs with
    | nil => cases hcs
    | cons c start =>
      rcases (by simpa [startsFlow] using hcs : c = '{' ∨ c = '[') with rfl | rfl <;> rfl
  obtain ⟨rest, hread, hrest⟩ := (parseText_eq_ok_iff (hdelimited hflow)).mp h
  have hblanks : Blanks rest := by
    obtain ⟨b, hb, heq⟩ := Text.exists_blanks_trimStart rest
    rw [hrest, List.append_nil] at heq
    exact heq ▸ hb
  obtain ⟨used, rfl, hends, hused⟩ := valueClosed_of_shorter
    (fun start _ => (closed start).1) (fun start _ => (closed start).2) (hdelimited hflow) hread
  have hflow' : startsFlow used = true := by
    have hne : used ≠ [] := List.append_nil used ▸ hends.append_ne_nil []
    obtain ⟨c, start, rfl⟩ := List.exists_cons_of_ne_nil hne
    exact hflow
  have hread' := hused []
  rw [List.append_nil] at hread'
  rw [Text.trimEnd_append used hblanks, hends.trimEnd_eq]
  exact (parseText_eq_ok_iff (hdelimited hflow')).mpr ⟨[], hread', rfl⟩

end PixelScene.Node
