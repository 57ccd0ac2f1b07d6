import Mathlib.Data.List.TakeWhile
import PixelScene.Text.Blank

/-!
# Trimming

* `trimStart_append`, `trimEnd_append`: blanks at an end make no difference to trimming there.
* `Solid.trim_append`: a text with no blank at its ends is what is left when blanks around it are
  dropped.
* `exists_blanks_trimStart`, `exists_blanks_trimEnd`, `exists_blanks_trim`: what trimming drops are
  blanks.
* `trim_eq_nil_or_solid`, `trim_trim`: what is left has no blank at its ends.
* `trim_blanks_append`: blanks around any text make no difference to trimming.

Trimming drops what the Unicode property calls white space, on both sides, as the standard library
does. Most results about layout come down to it: a blank that is added where trimming drops it again
makes no difference.
-/

namespace PixelScene.Text

/-! ## Blanks -/

/-- A text of blanks only. -/
def Blanks (cs : List Char) : Prop := ∀ c ∈ cs, isBlank c = true

theorem blanks_nil : Blanks [] := List.forall_mem_nil _

theorem blanks_space : Blanks [' '] := List.forall_mem_singleton.mpr rfl

theorem blanks_replicate (n : Nat) : Blanks (List.replicate n ' ') := by
  intro c hc
  rw [(List.mem_replicate.mp hc).2]
  rfl

/-! ## Blanks at an end -/

theorem trimStart_append {b : List Char} (hb : Blanks b) (cs : List Char) :
    trimStart (b ++ cs) = trimStart cs :=
  List.dropWhile_append_of_pos hb

theorem trimEnd_append (cs : List Char) {b : List Char} (hb : Blanks b) :
    trimEnd (cs ++ b) = trimEnd cs := by
  have hrev : ∀ c ∈ b.reverse, isBlank c = true := fun c hc => hb c (List.mem_reverse.mp hc)
  rw [trimEnd, List.reverse_append, List.dropWhile_append_of_pos hrev, ← trimEnd]

/-- The blanks that trimming drops in front. -/
theorem exists_blanks_trimStart (cs : List Char) : ∃ b, Blanks b ∧ cs = b ++ trimStart cs :=
  ⟨cs.takeWhile isBlank, fun _ hc => List.mem_takeWhile_imp hc,
    List.takeWhile_append_dropWhile.symm⟩

/-- What is left after trimming starts with no blank. -/
theorem isBlank_of_trimStart {c : Char} {cs more : List Char} (h : trimStart cs = c :: more) :
    isBlank c = false := by
  have hne : trimStart cs ≠ [] := h ▸ List.cons_ne_nil c more
  have hhead : isBlank ((trimStart cs).head hne) = false := List.head_dropWhile_not isBlank hne
  simpa only [h, List.head_cons] using hhead

/-- The front of a text up to its first sign that is no blank. -/
theorem exists_front {c : Char} {cs more : List Char} (h : trimStart cs = c :: more) :
    ∃ b, Blanks b ∧ isBlank c = false ∧ cs = b ++ c :: more := by
  obtain ⟨b, hb, hcs⟩ := exists_blanks_trimStart cs
  exact ⟨b, hb, isBlank_of_trimStart h, h ▸ hcs⟩

theorem trimStart_append_cons {b : List Char} (hb : Blanks b) {c : Char} (hc : isBlank c = false)
    (more : List Char) : trimStart (b ++ c :: more) = c :: more := by
  rw [trimStart_append hb, trimStart_eq_self hc]

/-- The blanks that trimming drops at the end. -/
theorem exists_blanks_trimEnd (cs : List Char) : ∃ b, Blanks b ∧ cs = trimEnd cs ++ b := by
  obtain ⟨b, hb, hcs⟩ := exists_blanks_trimStart cs.reverse
  refine ⟨b.reverse, fun c hc => hb c (List.mem_reverse.mp hc), ?_⟩
  rw [← List.reverse_inj, List.reverse_append, List.reverse_reverse, trimEnd, List.reverse_reverse]
  exact hcs

/-! ## Texts without blanks at their ends -/

/-- The text starts with a character that is not blank. -/
def StartsSolid (cs : List Char) : Prop := ∃ c more, cs = c :: more ∧ isBlank c = false

/-- The text ends with a character that is not blank. -/
def EndsSolid (cs : List Char) : Prop := ∃ front c, cs = front ++ [c] ∧ isBlank c = false

theorem StartsSolid.append {cs : List Char} (h : StartsSolid cs) (ds : List Char) :
    StartsSolid (cs ++ ds) := by
  obtain ⟨c, more, rfl, hc⟩ := h
  exact ⟨c, more ++ ds, rfl, hc⟩

theorem EndsSolid.append {ds : List Char} (h : EndsSolid ds) (cs : List Char) :
    EndsSolid (cs ++ ds) := by
  obtain ⟨front, c, rfl, hc⟩ := h
  exact ⟨cs ++ front, c, (List.append_assoc ..).symm, hc⟩

theorem EndsSolid.cons {ds : List Char} (h : EndsSolid ds) (c : Char) : EndsSolid (c :: ds) :=
  h.append [c]

theorem EndsSolid.append_ne_nil {cs : List Char} (h : EndsSolid cs) (ds : List Char) :
    cs ++ ds ≠ [] := by
  obtain ⟨front, c, rfl, -⟩ := h
  simp

theorem EndsSolid.head?_append {cs : List Char} (h : EndsSolid cs) (ds ds' : List Char) :
    (cs ++ ds').head? = (cs ++ ds).head? := by
  have hne : cs ≠ [] := List.append_nil cs ▸ h.append_ne_nil []
  obtain ⟨c, more, rfl⟩ := List.exists_cons_of_ne_nil hne
  rfl

theorem EndsSolid.trimStart {cs : List Char} (h : EndsSolid cs) : EndsSolid (trimStart cs) := by
  obtain ⟨front, c, rfl, hc⟩ := h
  induction front with
  | nil => exact ⟨[], c, trimStart_eq_self hc, hc⟩
  | cons d front ih =>
    cases hd : isBlank d with
    | true =>
      rw [List.cons_append, Text.trimStart, List.dropWhile_cons_of_pos hd]
      exact ih
    | false => exact ⟨d :: front, c, trimStart_eq_self hd, hc⟩

theorem EndsSolid.trimStart_append {cs : List Char} (h : EndsSolid cs) (ds : List Char) :
    Text.trimStart (cs ++ ds) = Text.trimStart cs ++ ds := by
  have hne : cs.dropWhile isBlank ≠ [] := by
    have hne := h.trimStart.append_ne_nil []
    rwa [List.append_nil] at hne
  rw [Text.trimStart, List.dropWhile_append, List.isEmpty_eq_false_iff.mpr hne]
  rfl

theorem StartsSolid.trimStart_eq {cs : List Char} (h : StartsSolid cs) : trimStart cs = cs := by
  obtain ⟨c, more, rfl, hc⟩ := h
  exact trimStart_eq_self hc

theorem EndsSolid.trimEnd_eq {cs : List Char} (h : EndsSolid cs) : trimEnd cs = cs := by
  obtain ⟨front, c, rfl, hc⟩ := h
  have hrev : (front ++ [c]).reverse = c :: front.reverse := List.reverse_append
  rw [trimEnd, hrev, List.dropWhile_cons_of_neg (by simp [hc]), List.reverse_cons,
    List.reverse_reverse]

theorem StartsSolid.endsSolid_trimEnd {cs : List Char} (h : StartsSolid cs) :
    EndsSolid (trimEnd cs) := by
  obtain ⟨c, more, rfl, hc⟩ := h
  have hfront : EndsSolid (c :: more).reverse := by
    rw [List.reverse_cons]
    exact ⟨more.reverse, c, rfl, hc⟩
  obtain ⟨d, left, hd⟩ := List.exists_cons_of_ne_nil fun hnil =>
    hfront.trimStart.append_ne_nil [] (List.append_nil _ ▸ hnil)
  refine ⟨left.reverse, d, ?_, isBlank_of_trimStart hd⟩
  rw [trimEnd, ← trimStart, hd, List.reverse_cons]

/-- Dropping the blanks at the end leaves the first sign alone. -/
theorem exists_trimEnd_cons {c : Char} (hc : isBlank c = false) (more : List Char) :
    ∃ more', trimEnd (c :: more) = c :: more' := by
  have hends : EndsSolid (trimEnd (c :: more)) := StartsSolid.endsSolid_trimEnd ⟨c, more, rfl, hc⟩
  obtain ⟨d, left, hd⟩ := List.exists_cons_of_ne_nil fun hnil =>
    hends.append_ne_nil [] (List.append_nil _ ▸ hnil)
  obtain ⟨b, -, heq⟩ := exists_blanks_trimEnd (c :: more)
  rw [hd] at heq ⊢
  exact ⟨left, congrArg (· :: left) (List.cons.inj heq).1.symm⟩

/-- Dropping the blanks around a text that neither starts nor ends with one. -/
theorem trim_append {b cs b' : List Char} (hb : Blanks b) (hs : StartsSolid cs) (he : EndsSolid cs)
    (hb' : Blanks b') : trim (b ++ cs ++ b') = cs := by
  rw [trim, List.append_assoc, trimStart_append hb, (hs.append b').trimStart_eq,
    trimEnd_append cs hb', he.trimEnd_eq]

theorem trim_eq_self {cs : List Char} (hs : StartsSolid cs) (he : EndsSolid cs) : trim cs = cs := by
  rw [trim, hs.trimStart_eq, he.trimEnd_eq]

/-- The blanks that trimming drops at both ends. -/
theorem exists_blanks_trim (cs : List Char) :
    ∃ b b', Blanks b ∧ Blanks b' ∧ cs = b ++ trim cs ++ b' := by
  obtain ⟨b, hb, hstart⟩ := exists_blanks_trimStart cs
  obtain ⟨b', hb', hend⟩ := exists_blanks_trimEnd (trimStart cs)
  refine ⟨b, b', hb, hb', ?_⟩
  rw [trim, List.append_assoc, ← hend]
  exact hstart

/-- What is left has no blank at its ends, if anything is left. -/
theorem trim_eq_nil_or_solid (cs : List Char) :
    trim cs = [] ∨ StartsSolid (trim cs) ∧ EndsSolid (trim cs) := by
  unfold trim
  cases h : trimStart cs with
  | nil => exact .inl rfl
  | cons c more =>
    have hc : isBlank c = false := isBlank_of_trimStart h
    obtain ⟨more', heq⟩ := exists_trimEnd_cons hc more
    exact .inr ⟨⟨c, more', heq, hc⟩, StartsSolid.endsSolid_trimEnd ⟨c, more, rfl, hc⟩⟩

theorem trim_trim (cs : List Char) : trim (trim cs) = trim cs := by
  rcases trim_eq_nil_or_solid cs with hnil | ⟨hstarts, hends⟩
  · rw [hnil, trim_nil]
  · exact trim_eq_self hstarts hends

theorem not_mem_of_blanks {c : Char} (hc : isBlank c = false) {b : List Char} (hb : Blanks b) :
    c ∉ b := fun hmem => absurd (hc.symm.trans (hb c hmem)) nofun

/-- What stands behind a solid character is all that blanks at the end can be a part of. -/
theorem exists_of_append_blanks {xs b ys zs : List Char} {c : Char} (hc : isBlank c = false)
    (hb : Blanks b) (h : xs ++ b = ys ++ c :: zs) : ∃ zs', xs = ys ++ c :: zs' ∧ zs = zs' ++ b := by
  rcases List.append_eq_append_iff.mp h with ⟨as, rfl, hblanks⟩ | ⟨as, rfl, hsolid⟩
  · exact absurd (hblanks ▸ List.mem_append_right as List.mem_cons_self) (not_mem_of_blanks hc hb)
  · cases as with
    | nil =>
      obtain rfl : c :: zs = b := hsolid
      exact absurd List.mem_cons_self (not_mem_of_blanks hc hb)
    | cons d as =>
      obtain ⟨rfl, rfl⟩ := List.cons.inj hsolid
      exact ⟨as, rfl, rfl⟩

theorem length_trim_le (cs : List Char) : (trim cs).length ≤ cs.length := by
  obtain ⟨b, b', -, -, h⟩ := exists_blanks_trim cs
  have hlength : cs.length = b.length + (trim cs).length + b'.length := by
    simpa only [List.length_append] using congrArg List.length h
  omega

/-- Blanks around a text make no difference to trimming. -/
theorem trim_blanks_append {b b' : List Char} (hb : Blanks b) (cs : List Char)
    (hb' : Blanks b') : trim (b ++ cs ++ b') = trim cs := by
  obtain ⟨d, d', hd, hd', hcs⟩ := exists_blanks_trim cs
  have happend : ∀ {us vs : List Char}, Blanks us → Blanks vs → Blanks (us ++ vs) :=
    fun hus hvs => List.forall_mem_append.mpr ⟨hus, hvs⟩
  have hsplit : b ++ cs ++ b' = (b ++ d) ++ trim cs ++ (d' ++ b') := by
    calc b ++ cs ++ b' = b ++ (d ++ trim cs ++ d') ++ b' := by rw [← hcs]
      _ = (b ++ d) ++ trim cs ++ (d' ++ b') := by simp only [List.append_assoc]
  rw [hsplit]
  rcases trim_eq_nil_or_solid cs with hnil | ⟨hstarts, hends⟩
  · have hall : Blanks (b ++ d ++ (d' ++ b')) := happend (happend hb hd) (happend hd' hb')
    have hstart : trimStart (b ++ d ++ (d' ++ b')) = [] := by
      have h := trimStart_append hall []
      rwa [List.append_nil] at h
    rw [hnil, List.append_nil, trim, hstart]
    rfl
  · exact trim_append (happend hb hd) hstarts hends (happend hd' hb')

end PixelScene.Text
