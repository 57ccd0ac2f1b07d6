import PixelScene.Node.Inline
import PixelScene.Proofs.Outcome
import PixelScene.Proofs.Text.Trim

/-!
# What the readers of inline values return

One statement for each reader and each sign that can come next, so that nothing after this module
has to open the readers.

A reader of values looks at its next character: a bracket, a brace, a quote, or anything else, which
begins a bare word. Behind a value it asks for a comma or a closing sign. The cases are those of the
engine (`Flow`), with the fault that each of them reports.
-/

namespace PixelScene.Node

open Text (trimStart)

section Equations

variable {separators cs rest : List Char}

/-! ## Quoted texts, keys and colons -/

theorem yields_readQuoted_iff {q : Char} {r : String × List Char} :
    Yields (readQuoted q cs) r ↔
      ∃ body rest, spanQuoted q cs = some (body, rest) ∧ r = (String.ofList body, rest) := by
  unfold readQuoted
  split
  · rename_i body rest h
    constructor
    · intro hr
      exact ⟨body, rest, h, yields_pure_iff.mp hr⟩
    · rintro ⟨body', rest', h', rfl⟩
      cases h.symm.trans h'
      exact yields_pure_iff.mpr rfl
  · rename_i h
    constructor
    · intro hr
      exact absurd hr not_yields_throw
    · rintro ⟨body', rest', h', -⟩
      exact absurd (h.symm.trans h') nofun

theorem yields_readKey_quoted_iff {q : Char} (hq : isQuote q = true) {r : String × List Char} :
    Yields (readKey (q :: cs)) r ↔ Yields (readQuoted q cs) r := by
  simp only [readKey, hq, if_true]
  refine (yields_bind_pure_iff (fun a => (a.1, a.2)) fun _ _ => ⟨_, rfl⟩).trans ⟨?_, ?_⟩
  · rintro ⟨a, h, rfl⟩
    exact h
  · exact fun h => ⟨r, h, rfl⟩

theorem yields_readKey_bare_iff {c : Char} (hc : isQuote c = false) {r : String × List Char} :
    Yields (readKey (c :: cs)) r ↔
      r = (String.ofList (Text.trim (spanBare [':', ',', '}'] 0 (c :: cs)).1),
        (spanBare [':', ',', '}'] 0 (c :: cs)).2) := by
  simp only [readKey, hc]
  exact yields_pure_iff

theorem skipBlanks_eq (h : trimStart cs = rest) :
    skipBlanks cs = ⟨rest, h ▸ trimStart_shorter cs⟩ := Subtype.ext h

theorem yields_readColon_iff {r : List Char} :
    Yields (readColon cs) r ↔ trimStart cs = ':' :: r := by
  unfold readColon
  cases hcs : trimStart cs with
  | nil =>
    rw [skipBlanks_eq hcs]
    exact ⟨fun h => absurd h not_yields_throw, nofun⟩
  | cons c rest =>
    rw [skipBlanks_eq hcs]
    by_cases hc : c = ':'
    · simp only [hc, if_true]
      refine yields_pure_iff.trans ⟨fun h => ?_, fun h => ?_⟩
      · rw [h]
      · exact (List.cons.inj h).2.symm
    · simp only [if_neg hc]
      refine ⟨fun h => absurd h not_yields_throw, fun h => ?_⟩
      exact absurd (List.cons.inj h).1 hc

/-! ## Values -/

variable {r : Node × List Char}

theorem yields_readValue_brace_iff (h : trimStart cs = '{' :: rest) :
    Yields (readValue separators cs) r ↔
      ∃ a, Yields (readEntries rest) a ∧ r = (.map a.1, a.2) := by
  rw [readValue, skipBlanks_eq h]
  simp only [if_true]
  apply yields_bind_pure_iff
  exact fun a h => ⟨_, rfl⟩

theorem yields_readValue_bracket_iff (h : trimStart cs = '[' :: rest) :
    Yields (readValue separators cs) r ↔
      ∃ a, Yields (readItems rest) a ∧ r = (.list a.1, a.2) := by
  rw [readValue, skipBlanks_eq h]
  simp only [if_neg (show '[' ≠ '{' by decide), if_true]
  apply yields_bind_pure_iff
  exact fun a h => ⟨_, rfl⟩

theorem yields_readValue_quoted_iff {q : Char} (hq : isQuote q = true)
    (h : trimStart cs = q :: rest) :
    Yields (readValue separators cs) r ↔
      ∃ a, Yields (readQuoted q rest) a ∧ r = (.text a.1, a.2) := by
  have hbrace : q ≠ '{' := by
    rintro rfl
    exact absurd hq nofun
  have hbracket : q ≠ '[' := by
    rintro rfl
    exact absurd hq nofun
  rw [readValue, skipBlanks_eq h]
  simp only [if_neg hbrace, if_neg hbracket, hq, if_true]
  apply yields_bind_pure_iff
  exact fun a h => ⟨_, rfl⟩

theorem yields_readValue_bare_iff (hcs : startsDelimited (trimStart cs) = false) :
    Yields (readValue separators cs) r ↔ trimStart cs ≠ [] ∧
      r = (scalar (Text.trim (spanBare separators 0 (trimStart cs)).1),
        (spanBare separators 0 (trimStart cs)).2) := by
  rw [readValue]
  cases h : trimStart cs with
  | nil =>
    rw [skipBlanks_eq h]
    exact ⟨fun hr => absurd hr not_yields_throw, fun hr => absurd rfl hr.1⟩
  | cons c rest =>
    rw [h] at hcs
    simp only [startsDelimited, Bool.or_eq_false_iff, beq_eq_false_iff_ne] at hcs
    obtain ⟨⟨hbrace, hbracket⟩, hquote⟩ := hcs
    rw [skipBlanks_eq h]
    simp only [if_neg hbrace, if_neg hbracket, hquote]
    refine yields_pure_iff.trans ⟨fun hr => ⟨List.cons_ne_nil c rest, hr⟩, fun hr => hr.2⟩

theorem yields_readEntryValue_missing_iff {c : Char} (hc : c = ',' ∨ c = '}')
    (h : trimStart cs = c :: rest) :
    Yields (readEntryValue cs) r ↔ r = (.null, c :: rest) := by
  rw [readEntryValue, skipBlanks_eq h]
  simp only [if_pos hc]
  exact yields_pure_iff

theorem yields_readEntryValue_iff
    (h : ∀ c rest, trimStart cs = c :: rest → c ≠ ',' ∧ c ≠ '}') :
    Yields (readEntryValue cs) r ↔ Yields (readValue [',', '}'] cs) r := by
  rw [readEntryValue]
  cases hcs : trimStart cs with
  | nil =>
    rw [skipBlanks_eq hcs, readValue, skipBlanks_eq hcs]
  | cons c rest =>
    rw [skipBlanks_eq hcs]
    obtain ⟨hcomma, hbrace⟩ := h c rest hcs
    simp only [hcomma, hbrace, or_self, if_false]

end Equations

/-! ## Entries and items -/

section Lists

variable {cs : List Char}

/-- What an element of a list or a mapping makes of what follows it: after a comma more elements are
read, and after the closing sign the element was the last. -/
def Continues {α : Type} (close : Char)
    (reader : (cs : List Char) → Except ReadFault (Within (List α) cs)) (x : α) (after : List Char)
    (r : List α × List Char) : Prop :=
  (∃ more a, trimStart after = ',' :: more ∧ Yields (reader more) a ∧ r = (x :: a.1, a.2)) ∨
    ∃ more, trimStart after = close :: more ∧ r = ([x], more)

/-- How the readers of lists and mappings read on behind an element. -/
def readOn {α : Type} (close : Char) (fault : ReadFault)
    (reader : (cs : List Char) → Except ReadFault (Within (List α) cs)) (x : α)
    {after cs : List Char} (hsize : after.length ≤ cs.length) :
    Except ReadFault (Within (List α) cs) :=
  match skipBlanks after with
  | ⟨[], _⟩ => throw fault
  | ⟨d :: more, hm⟩ =>
    have hmore : more.length ≤ cs.length := Nat.le_trans (Nat.le_of_lt hm) hsize
    if d = ',' then do
      let ⟨(xs, rest), hr⟩ ← reader more
      return ⟨(x :: xs, rest), Nat.le_trans hr hmore⟩
    else if d = close then return ⟨([x], more), hmore⟩
    else throw fault

theorem yields_readOn_iff {α : Type} {close : Char} {fault : ReadFault}
    {reader : (cs : List Char) → Except ReadFault (Within (List α) cs)} (x : α)
    {after : List Char} (hsize : after.length ≤ cs.length) (hclose : close ≠ ',')
    {r : List α × List Char} :
    Yields (readOn close fault reader x hsize) r ↔ Continues close reader x after r := by
  unfold readOn
  constructor
  · intro hr
    cases hafter : trimStart after with
    | nil =>
      rw [skipBlanks_eq hafter] at hr
      exact absurd hr not_yields_throw
    | cons d more =>
      rw [skipBlanks_eq hafter] at hr
      simp only at hr
      split at hr
      case isTrue hcomma =>
        obtain ⟨a, ha, rfl⟩ := (yields_bind_cons_iff x fun _ _ => ⟨_, rfl⟩).mp hr
        exact .inl ⟨more, a, by rw [hafter, hcomma], ha, rfl⟩
      case isFalse =>
        split at hr
        case isTrue hlast => exact .inr ⟨more, by rw [hafter, hlast], yields_pure_iff.mp hr⟩
        case isFalse => exact absurd hr not_yields_throw
  · rintro (⟨more, a, hafter, ha, rfl⟩ | ⟨more, hafter, rfl⟩)
    · rw [skipBlanks_eq hafter]
      simp only [if_true]
      exact (yields_bind_cons_iff x fun _ _ => ⟨_, rfl⟩).mpr ⟨a, ha, rfl⟩
    · rw [skipBlanks_eq hafter]
      simp only [if_neg hclose, if_true]
      exact yields_pure_iff.mpr rfl

theorem not_yields_readEntries_nil (h : trimStart cs = []) {r : List (String × Node) × List Char} :
    ¬ Yields (readEntries cs) r := by
  rw [readEntries, skipBlanks_eq h]
  exact not_yields_throw

theorem not_yields_readItems_nil (h : trimStart cs = []) {r : List Node × List Char} :
    ¬ Yields (readItems cs) r := by
  rw [readItems, skipBlanks_eq h]
  exact not_yields_throw

theorem yields_readEntries_close_iff {start : List Char} (h : trimStart cs = '}' :: start)
    {r : List (String × Node) × List Char} : Yields (readEntries cs) r ↔ r = ([], start) := by
  rw [readEntries, skipBlanks_eq h]
  exact yields_pure_iff

theorem yields_readEntries_entry_iff {c : Char} {start : List Char} (hc : c ≠ '}')
    (h : trimStart cs = c :: start) {r : List (String × Node) × List Char} :
    Yields (readEntries cs) r ↔
      ∃ key afterKey body value after, Yields (readKey (c :: start)) (key, afterKey) ∧ key ≠ "" ∧
        Yields (readColon afterKey) body ∧ Yields (readEntryValue body) (value, after) ∧
        Continues '}' readEntries (key, value) after r := by
  have hshorter : (c :: start).length ≤ cs.length := h ▸ trimStart_shorter cs
  have hsize : ∀ {key afterKey body value after}, Yields (readKey (c :: start)) (key, afterKey) →
      Yields (readColon afterKey) body → Yields (readEntryValue body) (value, after) →
      after.length ≤ cs.length := by
    intro key afterKey body value after hkey hbody hvalue
    have hkeySize := hkey.choose
    have hbodySize := hbody.choose
    have hvalueSize := hvalue.choose
    simp only at hkeySize hvalueSize
    omega
  rw [readEntries, skipBlanks_eq h]
  simp only [if_neg hc]
  constructor
  · intro hr
    obtain ⟨⟨key, afterKey⟩, _, hkey, hr⟩ := yields_bind_iff.mp hr
    simp only at hr
    split at hr
    · exact absurd hr not_yields_throw
    · rename_i hne
      obtain ⟨body, _, hbody, hr⟩ := yields_bind_iff.mp hr
      obtain ⟨⟨value, after⟩, _, hvalue, hr⟩ := yields_bind_iff.mp hr
      exact ⟨key, afterKey, body, value, after, hkey, by simpa using hne, hbody, hvalue,
        (yields_readOn_iff (key, value) (hsize hkey hbody hvalue) (by decide)).mp hr⟩
  · rintro ⟨key, afterKey, body, value, after, hkey, hne, hbody, hvalue, hr⟩
    refine yields_bind_iff.mpr ⟨(key, afterKey), hkey.choose, hkey, ?_⟩
    simp only
    rw [if_neg (by simpa using hne)]
    refine yields_bind_iff.mpr ⟨body, hbody.choose, hbody, ?_⟩
    refine yields_bind_iff.mpr ⟨(value, after), hvalue.choose, hvalue, ?_⟩
    exact (yields_readOn_iff (key, value) (hsize hkey hbody hvalue) (by decide)).mpr hr

theorem yields_readItems_close_iff {start : List Char} (h : trimStart cs = ']' :: start)
    {r : List Node × List Char} : Yields (readItems cs) r ↔ r = ([], start) := by
  rw [readItems, skipBlanks_eq h]
  exact yields_pure_iff

theorem yields_readItems_item_iff {c : Char} {start : List Char} (hc : c ≠ ']')
    (h : trimStart cs = c :: start) {r : List Node × List Char} :
    Yields (readItems cs) r ↔ ∃ value after, Yields (readValue [',', ']'] cs) (value, after) ∧
      Continues ']' readItems value after r := by
  rw [readItems, skipBlanks_eq h]
  simp only [if_neg hc]
  constructor
  · intro hr
    obtain ⟨⟨value, after⟩, _, hvalue, hr⟩ := yields_bind_iff.mp hr
    exact ⟨value, after, hvalue,
      (yields_readOn_iff value hvalue.choose (by decide)).mp hr⟩
  · rintro ⟨value, after, hvalue, hr⟩
    refine yields_bind_iff.mpr ⟨(value, after), hvalue.choose, hvalue, ?_⟩
    exact (yields_readOn_iff value hvalue.choose (by decide)).mpr hr

end Lists

/-! ## A whole value -/

theorem parseText_eq_ok_iff {cs : List Char} (h : startsDelimited (trimStart cs) = true)
    {n : Node} : parseText cs = .ok n ↔
      ∃ rest, Yields (readValue [] cs) (n, rest) ∧ trimStart rest = [] := by
  rw [parseText, if_pos h, bind_eq_ok_iff]
  constructor
  · rintro ⟨⟨⟨m, rest⟩, hle⟩, hread, hn⟩
    simp only at hn
    split at hn
    · rename_i hempty
      obtain rfl := pure_eq_ok_iff.mp hn
      exact ⟨rest, ⟨hle, hread⟩, List.isEmpty_iff.mp hempty⟩
    · exact absurd hn nofun
  · rintro ⟨rest, ⟨hle, hread⟩, hempty⟩
    refine ⟨⟨(n, rest), hle⟩, hread, ?_⟩
    simp only
    rw [if_pos (List.isEmpty_iff.mpr hempty)]
    rfl

theorem parseText_bare {cs : List Char} (h : startsDelimited (trimStart cs) = false) :
    parseText cs = .ok (scalar (Text.trim cs)) := by
  rw [parseText, if_neg (by simp [h])]
  rfl

theorem parseInline_eq_ok_iff {cs : List Char} {line : Nat} {n : Node} :
    parseInline cs line = .ok n ↔ parseText cs = .ok n := by
  unfold parseInline
  cases parseText cs with
  | error fault => exact ⟨fun h => absurd h nofun, fun h => absurd h nofun⟩
  | ok m =>
    constructor
    · intro h
      exact congrArg Except.ok (Except.ok.inj h)
    · intro h
      exact congrArg Except.ok (Except.ok.inj h)

end PixelScene.Node
