import PixelScene.Proofs.Node.Flow

/-!
# Reading values in flow form

* `FlowText.readsAs`: a value is read off the front of any text, as far as its own text goes.
* `parseInline_flowText`: every way to write a node in flow form is read as that node.
* `Writable.exists_flowText`: every node with keys that are not empty and with numbers that some
  word stands for can be written.

The induction is over the way in which the node was written. What it needs of the rest of the text
is only that it does not go on with the last word, and in a whole value nothing is left. The result
is about `parse_inline`, at any line number, and keeps the order of entries and their duplicates.
-/

namespace PixelScene.Node

open Text (Blanks StartsSolid EndsSolid trimStart)

/-! ## The front of a value -/

/-- A character that starts a value: it is neither blank nor a sign that ends one. -/
def StartsValue (c : Char) : Prop :=
  Text.isBlank c = false ∧ c ≠ ',' ∧ c ≠ '}' ∧ c ≠ ']'

instance (c : Char) : Decidable (StartsValue c) := inferInstanceAs (Decidable (_ ∧ _))

/-- What follows a bare word: blanks and a sign that ends it. -/
def Ends (separators after : List Char) : Prop :=
  ∃ b d more, Blanks b ∧ d ∈ separators ∧ after = b ++ d :: more

/-- Reading takes the text off the front and gives the node; blanks after a bare word go with it. -/
def ReadsAs (n : Node) (v : List Char) : Prop :=
  (∃ c more, v = c :: more ∧ StartsValue c) ∧
    ∀ {separators before after}, Blanks before → Separators separators →
      (startsDelimited v = true ∨ Ends separators after) →
      ∃ rest, Yields (readValue separators (before ++ v ++ after)) (n, rest) ∧
        trimStart rest = trimStart after

/-- Reading takes the text of an entry off the front. -/
def ReadsAsEntry (e : String × Node) (v : List Char) : Prop :=
  (∃ c more, v = c :: more ∧ StartsValue c) ∧
    ∀ {after}, Ends [',', '}'] after →
      ∃ afterKey body rest, Yields (readKey (v ++ after)) (e.1, afterKey) ∧ e.1 ≠ "" ∧
        Yields (readColon afterKey) body ∧ Yields (readEntryValue body) (e.2, rest) ∧
        trimStart rest = trimStart after

theorem trimStart_ends {separators after : List Char} (h : Ends separators after)
    (hseps : Separators separators) :
    ∃ d more, d ∈ separators ∧ trimStart after = d :: more := by
  obtain ⟨b, d, more, hb, hd, rfl⟩ := h
  refine ⟨d, more, hd, ?_⟩
  rw [Text.trimStart_append hb]
  exact Text.trimStart_eq_self (hseps d hd).2.1

theorem trimStart_front {before v : List Char} (hb : Blanks before)
    (hv : ∃ c more, v = c :: more ∧ StartsValue c) (after : List Char) :
    trimStart (before ++ v ++ after) = v ++ after := by
  obtain ⟨c, more, rfl, hc, -⟩ := hv
  rw [List.append_assoc, Text.trimStart_append hb]
  exact Text.trimStart_eq_self hc

/-! ## Words, texts and keys -/

theorem Plain.startsDelimited_append {w : List Char} (h : Plain w) (after : List Char) :
    startsDelimited (w ++ after) = false := by
  obtain ⟨c, more, rfl, hc⟩ := h.exists_cons
  have hne : ∀ d, isPlain d = false → c ≠ d := fun d => ne_of_isPlain hc
  simp [startsDelimited, isQuote, hne '{' rfl, hne '[' rfl, hne '"' rfl, hne '\'' rfl]

theorem startsValue_of_isPlain {c : Char} (h : isPlain c = true) : StartsValue c :=
  ⟨isBlank_of_isPlain h, ne_of_isPlain h rfl, ne_of_isPlain h rfl, ne_of_isPlain h rfl⟩

theorem Plain.exists_startsValue {w : List Char} (h : Plain w) :
    ∃ c more, w = c :: more ∧ StartsValue c := by
  obtain ⟨c, more, rfl, hc⟩ := h.exists_cons
  exact ⟨c, more, rfl, startsValue_of_isPlain hc⟩

theorem readsAs_bare {n : Node} {w : List Char} (h : BareText n w) : ReadsAs n w := by
  have hw := h.plain
  refine ⟨hw.exists_startsValue, ?_⟩
  rintro separators before after hb hseps (hdelimited | ⟨b, d, more, hblanks, hd, rfl⟩)
  · have hbare := hw.startsDelimited_append []
    rw [List.append_nil, hdelimited] at hbare
    exact absurd hbare nofun
  · refine ⟨d :: more, ?_, (Text.trimStart_append hblanks _).symm⟩
    have hfront : trimStart (before ++ w ++ (b ++ d :: more)) = w ++ b ++ d :: more := by
      rw [trimStart_front hb hw.exists_startsValue, List.append_assoc]
    have hbare : startsDelimited (w ++ b ++ d :: more) = false := by
      rw [List.append_assoc, hw.startsDelimited_append]
    have htrim : Text.trim (w ++ b) = w :=
      Text.trim_append Text.blanks_nil hw.startsSolid hw.endsSolid hblanks
    refine (yields_readValue_bare_iff (by rw [hfront, hbare])).mpr ⟨?_, ?_⟩
    · rw [hfront]
      simp
    · rw [hfront, hw.spanBare hblanks hseps hd, htrim, h.scalar_eq]

theorem quote_append (cs after : List Char) :
    quote cs ++ after = '"' :: (escape cs ++ '"' :: after) := by simp [quote]

theorem yields_readQuoted_quote (cs after : List Char) :
    Yields (readQuoted '"' (escape cs ++ '"' :: after)) (String.ofList cs, after) :=
  yields_readQuoted_iff.mpr ⟨cs, after, spanQuoted_escape cs after, rfl⟩

theorem readsAs_quoted (s : String) : ReadsAs (.text s) (quote s.toList) := by
  have hstarts : ∃ c more, quote s.toList = c :: more ∧ StartsValue c := ⟨'"', _, rfl, by decide⟩
  refine ⟨hstarts, ?_⟩
  intro separators before after hb _ _
  refine ⟨after, ?_, rfl⟩
  have hfront := trimStart_front hb hstarts after
  rw [quote_append] at hfront
  refine (yields_readValue_quoted_iff rfl hfront).mpr
    ⟨_, yields_readQuoted_quote s.toList after, ?_⟩
  rw [String.ofList_toList]

/-- Reading takes a key off the front, and a colon comes next. -/
theorem KeyText.reads {key : String} {k b : List Char} (h : KeyText key k) (hb : Blanks b)
    (after : List Char) :
    ∃ afterKey, Yields (readKey (k ++ b ++ ':' :: after)) (key, afterKey) ∧ key ≠ "" ∧
      Yields (readColon afterKey) after := by
  cases h with
  | quoted ne_empty =>
    refine ⟨b ++ ':' :: after, ?_, ne_empty, ?_⟩
    · rw [List.append_assoc, quote_append]
      refine (yields_readKey_quoted_iff rfl).mpr ?_
      have hread := yields_readQuoted_quote key.toList (b ++ ':' :: after)
      rwa [String.ofList_toList] at hread
    · refine yields_readColon_iff.mpr ?_
      rw [Text.trimStart_append hb]
      exact Text.trimStart_eq_self rfl
  | bare word =>
    have hw := word.plain
    have hspan : spanBare [':', ',', '}'] 0 (key.toList ++ b ++ ':' :: after) = _ :=
      hw.spanBare hb separators_key List.mem_cons_self
    have htrim : Text.trim (key.toList ++ b) = key.toList :=
      Text.trim_append Text.blanks_nil hw.startsSolid hw.endsSolid hb
    refine ⟨':' :: after, ?_, ?_, yields_readColon_iff.mpr (Text.trimStart_eq_self rfl)⟩
    · obtain ⟨c, more, hkey, hc⟩ := hw.exists_cons
      have hcons : key.toList ++ b ++ ':' :: after = c :: (more ++ b ++ ':' :: after) := by
        rw [hkey]
        rfl
      have hquote : isQuote c = false := (inert_of_isPlain hc).1
      rw [hcons] at hspan ⊢
      rw [yields_readKey_bare_iff hquote, hspan, htrim, String.ofList_toList]
    · rintro rfl
      exact hw.ne_nil rfl

theorem KeyText.exists_startsValue {key : String} {k : List Char} (h : KeyText key k) :
    ∃ c more, k = c :: more ∧ StartsValue c := by
  cases h with
  | quoted ne_empty => exact ⟨'"', _, rfl, by decide⟩
  | bare word => exact word.plain.exists_startsValue

/-! ## Lists and mappings -/

/-- Reading goes through elements with commas between them, when it goes on after each element with
what follows it. -/
theorem Separated.yields {α : Type} {Writes : α → List Char → Prop} {close : Char}
    {reader : (cs : List Char) → Except ReadFault (Within (List α) cs)}
    (hblank : Text.isBlank close = false)
    (hclose : ∀ {cs start}, trimStart cs = close :: start → Yields (reader cs) ([], start))
    (helement : ∀ {x v before after r}, Writes x v → Blanks before → Ends [',', close] after →
      Continues close reader x after r → Yields (reader (before ++ v ++ after)) r)
    {xs : List α} {body : List Char} (h : Separated Writes close xs body) (after : List Char) :
    Yields (reader (body ++ after)) (xs, after) := by
  induction h with
  | @close b blanks =>
    refine hclose ?_
    rw [List.append_assoc, Text.trimStart_append blanks]
    exact Text.trimStart_eq_self hblank
  | @last x b v b' front element back =>
    have hends : Ends [',', close] (b' ++ close :: after) :=
      ⟨b', close, after, back, by simp, rfl⟩
    have hafter : trimStart (b' ++ close :: after) = close :: after := by
      rw [Text.trimStart_append back]
      exact Text.trimStart_eq_self hblank
    have hbody : b ++ v ++ b' ++ [close] ++ after = b ++ v ++ (b' ++ close :: after) := by simp
    rw [hbody]
    exact helement element front hends (.inr ⟨after, hafter, rfl⟩)
  | @comma x xs b v b' rest front element back more ih =>
    have hends : Ends [',', close] (b' ++ ',' :: (rest ++ after)) :=
      ⟨b', ',', rest ++ after, back, by simp, rfl⟩
    have hafter : trimStart (b' ++ ',' :: (rest ++ after)) = ',' :: (rest ++ after) := by
      rw [Text.trimStart_append back]
      exact Text.trimStart_eq_self rfl
    have hbody : b ++ v ++ b' ++ ',' :: rest ++ after =
        b ++ v ++ (b' ++ ',' :: (rest ++ after)) := by simp
    rw [hbody]
    exact helement element front hends (.inl ⟨rest ++ after, _, hafter, ih, rfl⟩)

theorem Continues.congr {α : Type} {close : Char}
    {reader : (cs : List Char) → Except ReadFault (Within (List α) cs)} {x : α}
    {after after' : List Char} {r : List α × List Char} (h : Continues close reader x after r)
    (heq : trimStart after' = trimStart after) : Continues close reader x after' r := by
  unfold Continues at h ⊢
  rwa [heq]

theorem Separated.yields_readItems {items : List Node} {body : List Char}
    (h : Separated ReadsAs ']' items body) (after : List Char) :
    Yields (readItems (body ++ after)) (items, after) := by
  refine h.yields rfl (fun hcs => (yields_readItems_close_iff hcs).mpr rfl) ?_ after
  rintro n v before after r ⟨⟨c, more, rfl, hc⟩, hread⟩ hb hends hr
  obtain ⟨rest, hvalue, hrest⟩ := hread hb separators_item (.inr hends)
  have hfront := trimStart_front hb ⟨c, more, rfl, hc⟩ after
  exact (yields_readItems_item_iff hc.2.2.2 hfront).mpr ⟨n, rest, hvalue, hr.congr hrest⟩

theorem Separated.yields_readEntries {entries : List (String × Node)} {body : List Char}
    (h : Separated ReadsAsEntry '}' entries body) (after : List Char) :
    Yields (readEntries (body ++ after)) (entries, after) := by
  refine h.yields rfl (fun hcs => (yields_readEntries_close_iff hcs).mpr rfl) ?_ after
  rintro ⟨key, n⟩ v before after r ⟨⟨c, more, rfl, hc⟩, hread⟩ hb hends hr
  obtain ⟨afterKey, body, rest, hkey, hne, hcolon, hvalue, hrest⟩ := hread hends
  have hfront := trimStart_front hb ⟨c, more, rfl, hc⟩ after
  exact (yields_readEntries_entry_iff hc.2.2.1 hfront).mpr
    ⟨key, afterKey, body, n, rest, hkey, hne, hcolon, hvalue, hr.congr hrest⟩

/-! ## Every value -/

theorem readsAs_list {items : List Node} {body : List Char}
    (h : Separated ReadsAs ']' items body) : ReadsAs (.list items) ('[' :: body) := by
  have hstarts : ∃ c more, '[' :: body = c :: more ∧ StartsValue c := ⟨'[', body, rfl, by decide⟩
  refine ⟨hstarts, ?_⟩
  intro separators before after hb _ _
  refine ⟨after, ?_, rfl⟩
  exact (yields_readValue_bracket_iff (trimStart_front hb hstarts after)).mpr
    ⟨(items, after), h.yields_readItems after, rfl⟩

theorem readsAs_map {entries : List (String × Node)} {body : List Char}
    (h : Separated ReadsAsEntry '}' entries body) : ReadsAs (.map entries) ('{' :: body) := by
  have hstarts : ∃ c more, '{' :: body = c :: more ∧ StartsValue c := ⟨'{', body, rfl, by decide⟩
  refine ⟨hstarts, ?_⟩
  intro separators before after hb _ _
  refine ⟨after, ?_, rfl⟩
  exact (yields_readValue_brace_iff (trimStart_front hb hstarts after)).mpr
    ⟨(entries, after), h.yields_readEntries after, rfl⟩

theorem readsAsEntry_value {key : String} {n : Node} {k b b' v : List Char} (name : KeyText key k)
    (front : Blanks b) (back : Blanks b') (value : ReadsAs n v) :
    ReadsAsEntry (key, n) (k ++ b ++ ':' :: (b' ++ v)) := by
  obtain ⟨c, more, rfl, hc⟩ := name.exists_startsValue
  refine ⟨⟨c, _, rfl, hc⟩, fun {after} hends => ?_⟩
  obtain ⟨hstarts, hread⟩ := value
  obtain ⟨afterKey, hkey, hne, hcolon⟩ := name.reads front (b' ++ v ++ after)
  obtain ⟨rest, hvalue, hrest⟩ := hread back separators_entry (.inr hends)
  refine ⟨afterKey, b' ++ v ++ after, rest, ?_, hne, hcolon, ?_, hrest⟩
  · have happend : c :: more ++ b ++ ':' :: (b' ++ v) ++ after =
        c :: more ++ b ++ ':' :: (b' ++ v ++ after) := by simp
    rwa [happend]
  · refine (yields_readEntryValue_iff fun d start hd => ?_).mpr hvalue
    obtain ⟨c', more', rfl, hc'⟩ := hstarts
    rw [trimStart_front back ⟨c', more', rfl, hc'⟩ after] at hd
    obtain ⟨rfl, -⟩ := List.cons.inj hd
    exact ⟨hc'.2.1, hc'.2.2.1⟩

theorem readsAsEntry_missing {key : String} {k b : List Char} (name : KeyText key k)
    (front : Blanks b) : ReadsAsEntry (key, .null) (k ++ b ++ [':']) := by
  obtain ⟨c, more, rfl, hc⟩ := name.exists_startsValue
  refine ⟨⟨c, _, rfl, hc⟩, fun {after} hends => ?_⟩
  obtain ⟨afterKey, hkey, hne, hcolon⟩ := name.reads front after
  obtain ⟨d, rest, hd, hafter⟩ := trimStart_ends hends separators_entry
  have hd : d = ',' ∨ d = '}' := by simpa using hd
  refine ⟨afterKey, after, d :: rest, ?_, hne, hcolon,
    (yields_readEntryValue_missing_iff hd hafter).mpr rfl, ?_⟩
  · have happend : c :: more ++ b ++ [':'] ++ after = c :: more ++ b ++ ':' :: after := by simp
    rwa [happend]
  · rw [hafter]
    rcases hd with rfl | rfl <;> rfl

theorem flowRules_readsAs : FlowRules ReadsAs ReadsAsEntry where
  bare := readsAs_bare
  quoted := readsAs_quoted
  list := readsAs_list
  map := readsAs_map
  value := readsAsEntry_value
  missing := readsAsEntry_missing

/-- **Reading takes a value in flow form off the front of a text.** -/
theorem FlowText.readsAs {n : Node} {v : List Char} (h : FlowText n v) : ReadsAs n v :=
  flowRules_readsAs.holds h

/-! ## A whole value -/

theorem FlowText.bareText_or_startsDelimited {n : Node} {v : List Char} (h : FlowText n v) :
    BareText n v ∨ startsDelimited v = true := by
  cases h with
  | bare word => exact .inl word
  | quoted s => exact .inr rfl
  | list inner => exact .inr rfl
  | map inner => exact .inr rfl

theorem startsDelimited_append {v : List Char} (h : startsDelimited v = true) (after : List Char) :
    startsDelimited (v ++ after) = true := by
  cases v with
  | nil => exact absurd h nofun
  | cons c more => exact h

/-- **A value in flow form is read as its node**, with any blanks around it. -/
theorem FlowText.parseText_eq {n : Node} {v b b' : List Char} (h : FlowText n v) (hb : Blanks b)
    (hb' : Blanks b') : parseText (b ++ v ++ b') = .ok n := by
  have hfront := trimStart_front hb h.readsAs.1 b'
  rcases h.bareText_or_startsDelimited with word | hdelimited
  · have hplain := word.plain
    have hbare : startsDelimited (v ++ b') = false := hplain.startsDelimited_append b'
    rw [parseText_bare (by rw [hfront, hbare]),
      Text.trim_append hb hplain.startsSolid hplain.endsSolid hb', word.scalar_eq]
  · have hstarts : startsDelimited (v ++ b') = true := startsDelimited_append hdelimited b'
    obtain ⟨rest, hread, hrest⟩ : ∃ rest, Yields (readValue [] (b ++ v ++ b')) (n, rest) ∧
        trimStart rest = trimStart b' :=
      h.readsAs.2 hb (List.forall_mem_nil _) (.inl hdelimited)
    refine (parseText_eq_ok_iff (by rw [hfront, hstarts])).mpr ⟨rest, hread, ?_⟩
    rw [hrest, ← List.append_nil b', Text.trimStart_append hb']
    rfl

/-! ## Nodes that can be written -/

/-- A node whose keys are as asked for, and whose numbers some word stands for. -/
inductive Writable (Key : String → Prop) : Node → Prop where
  | null : Writable Key .null
  | bool (b : Bool) : Writable Key (.bool b)
  | number {x : Float} (spelled : ∃ w, scalar w = .number x) : Writable Key (.number x)
  | text (s : String) : Writable Key (.text s)
  | list {items : List Node} (inner : ∀ n ∈ items, Writable Key n) : Writable Key (.list items)
  | map {entries : List (String × Node)} (keys : ∀ e ∈ entries, Key e.1)
      (inner : ∀ e ∈ entries, Writable Key e.2) : Writable Key (.map entries)

/-- Elements that can be written on one line can be written there with commas between them. -/
theorem exists_separated {α : Type} {Writes : α → List Char → Prop} {close : Char}
    (hclose : '\n' ≠ close) {xs : List α} (h : ∀ x ∈ xs, ∃ v, Writes x v ∧ '\n' ∉ v) :
    ∃ body, Separated Writes close xs body ∧ '\n' ∉ body := by
  induction xs with
  | nil => exact ⟨[close], .close Text.blanks_nil, by simp [hclose]⟩
  | cons x xs ih =>
    obtain ⟨⟨v, hv, hline⟩, hxs⟩ := List.forall_mem_cons.mp h
    obtain ⟨body, hbody, hlines⟩ := ih hxs
    exact ⟨_, .comma Text.blanks_nil hv Text.blanks_nil hbody, by simp [hline, hlines]⟩

/-- Every node with keys that are not empty can be written in flow form, on one line. -/
theorem Writable.exists_flowText {Key : String → Prop} (hkey : ∀ key, Key key → key ≠ "") {n : Node}
    (h : Writable Key n) : ∃ v, FlowText n v ∧ '\n' ∉ v := by
  have hbare : ∀ {m w}, BareText m w → ∃ v, FlowText m v ∧ '\n' ∉ v :=
    fun {m w} word => ⟨w, .bare word, word.plain.not_mem rfl⟩
  induction h with
  | null => exact hbare .null
  | bool b => exact hbare (.bool b)
  | number spelled =>
    obtain ⟨w, hw⟩ := spelled
    exact hbare (.number hw)
  | text s => exact ⟨_, .quoted s, not_mem_quote s.toList⟩
  | list inner ih =>
    have hclose : '\n' ≠ ']' := by decide
    obtain ⟨body, hbody, hline⟩ := exists_separated hclose ih
    exact ⟨_, .list hbody, by simp [hline]⟩
  | @map entries keys inner ih =>
    have hentries : ∀ e ∈ entries, ∃ v, EntryText e v ∧ '\n' ∉ v := by
      intro e he
      obtain ⟨v, hv, hline⟩ := ih e he
      have hkeyLine := not_mem_quote e.1.toList
      exact ⟨_, .value (.quoted (hkey e.1 (keys e he))) Text.blanks_nil Text.blanks_nil hv,
        by simp [hline, hkeyLine]⟩
    have hclose : '\n' ≠ '}' := by decide
    obtain ⟨body, hbody, hline⟩ := exists_separated hclose hentries
    exact ⟨_, .map hbody, by simp [hline]⟩

/-- **Values in flow form are read back.** A node with keys that are not empty and with numbers that
can be written has a flow form, and each of its flow forms is read as exactly that node. -/
theorem parseInline_flowText {n : Node} (h : Writable (· ≠ "") n) : (∃ v, FlowText n v) ∧
    ∀ {v b b' : List Char} (line : Nat), FlowText n v → Blanks b → Blanks b' →
      parseInline (b ++ v ++ b') line = .ok n := by
  constructor
  · obtain ⟨v, hv, -⟩ := h.exists_flowText fun _ hkey => hkey
    exact ⟨v, hv⟩
  · intro v b b' line hv hb hb'
    exact parseInline_eq_ok_iff.mpr (hv.parseText_eq hb hb')

theorem parseInline_flowText_nested :
    let n : Node := .map [("a\x7d", .list [.text "x\"[", .null]), ("a\x7d", .bool true)]
    Writable (· ≠ "") n ∧
      parseInline "\x7b \"a\x7d\" :[\"x\\\"[\" , null,], \"a\x7d\": true \x7d ".toList 1 =
        .ok n := by
  intro n
  have hblank : Blanks [' '] := Text.blanks_space
  have hn : Writable (· ≠ "") n := by
    have hkey : "a\x7d" ≠ "" := by decide
    refine .map ?_ ?_
    · simp only [List.forall_mem_cons]
      exact ⟨hkey, hkey, List.forall_mem_nil _⟩
    simp only [List.forall_mem_cons]
    refine ⟨.list ?_, .bool true, List.forall_mem_nil _⟩
    simp only [List.forall_mem_cons]
    exact ⟨.text _, .null, List.forall_mem_nil _⟩
  have hitems : Separated FlowText ']' [.text "x\"[", .null] "\"x\\\"[\" , null,]".toList :=
    .comma Text.blanks_nil (FlowText.quoted "x\"[") hblank
      (.comma hblank (FlowText.bare .null) Text.blanks_nil (.close Text.blanks_nil))
  have hkey : KeyText "a\x7d" "\"a\x7d\"".toList := .quoted (by decide)
  have hentries : Separated EntryText '}'
      [("a\x7d", .list [.text "x\"[", .null]), ("a\x7d", .bool true)]
      " \"a\x7d\" :[\"x\\\"[\" , null,], \"a\x7d\": true \x7d".toList :=
    .comma hblank (EntryText.value hkey hblank Text.blanks_nil (.list hitems)) Text.blanks_nil
      (.last hblank (EntryText.value hkey Text.blanks_nil hblank (.bare (.bool true))) hblank)
  exact ⟨hn, (parseInline_flowText hn).2 1 (.map hentries) Text.blanks_nil hblank⟩

end PixelScene.Node
