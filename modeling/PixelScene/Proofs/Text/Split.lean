import PixelScene.Text.Blank

/-!
# Cutting at a mark

* `splitAt_eq_self`, `splitAt_append_cons`: a text is one part up to its first mark.
* `splitAt_intercalate`, `not_mem_of_mem_splitAt`: the parts are what was joined with marks, and no
  part has a mark.
* `splitAt_of_cutLast?`: cutting at the last mark takes the last part off.
* `splitAt_append`: what is added without a mark goes into the last part.

Paths are cut at slashes and command words at signs, and both are put together again. The engine
uses the standard library for this (`split`, `rsplit_once`), whose parts are never fewer than one.
-/

namespace PixelScene.Text

variable {mark : Char} {cs ds : List Char}

theorem splitAt_cons_of_ne {c : Char} (hc : c ≠ mark) {part : List Char} {parts : List (List Char)}
    (h : splitAt mark cs = part :: parts) : splitAt mark (c :: cs) = (c :: part) :: parts := by
  rw [splitAt, if_neg hc, h]

theorem splitAt_mark_cons (cs : List Char) : splitAt mark (mark :: cs) = [] :: splitAt mark cs := by
  rw [splitAt, if_pos rfl]

/-- A text without marks is one part. -/
theorem splitAt_eq_self (h : mark ∉ cs) : splitAt mark cs = [cs] := by
  induction cs with
  | nil => rfl
  | cons c cs ih =>
    rw [List.mem_cons, not_or] at h
    obtain ⟨hc, hcs⟩ := h
    exact splitAt_cons_of_ne (Ne.symm hc) (ih hcs)

/-- The first part ends at the first mark. -/
theorem splitAt_append_cons (h : mark ∉ cs) (rest : List Char) :
    splitAt mark (cs ++ mark :: rest) = cs :: splitAt mark rest := by
  induction cs with
  | nil => exact splitAt_mark_cons rest
  | cons c cs ih =>
    rw [List.mem_cons, not_or] at h
    obtain ⟨hc, hcs⟩ := h
    exact splitAt_cons_of_ne (Ne.symm hc) (ih hcs)

/-- A text has a first part. -/
theorem exists_splitAt_eq_cons (mark : Char) (cs : List Char) :
    ∃ part parts, splitAt mark cs = part :: parts :=
  List.exists_cons_of_ne_nil (splitAt_ne_nil mark cs)

theorem not_mem_of_mem_splitAt : ∀ part ∈ splitAt mark cs, mark ∉ part := by
  induction cs with
  | nil => simp [splitAt]
  | cons c cs ih =>
    by_cases hc : c = mark
    · subst hc
      rw [splitAt_mark_cons]
      exact List.forall_mem_cons.mpr ⟨List.not_mem_nil, ih⟩
    · obtain ⟨part, parts, hparts⟩ := exists_splitAt_eq_cons mark cs
      rw [hparts] at ih
      obtain ⟨hpart, hrest⟩ := List.forall_mem_cons.mp ih
      rw [splitAt_cons_of_ne hc hparts]
      refine List.forall_mem_cons.mpr ⟨fun hmem => ?_, hrest⟩
      rcases List.mem_cons.mp hmem with heq | hmem
      · exact hc heq.symm
      · exact hpart hmem

/-- **Parts that are joined with marks come out again.** -/
theorem splitAt_intercalate {parts : List (List Char)} (hne : parts ≠ [])
    (h : ∀ part ∈ parts, mark ∉ part) : splitAt mark ([mark].intercalate parts) = parts := by
  induction parts with
  | nil => exact absurd rfl hne
  | cons part parts ih =>
    obtain ⟨hpart, hparts⟩ := List.forall_mem_cons.mp h
    cases parts with
    | nil =>
      rw [List.intercalate_singleton]
      exact splitAt_eq_self hpart
    | cons next parts =>
      rw [List.intercalate_cons_cons, List.append_assoc, List.singleton_append,
        splitAt_append_cons hpart, ih (List.cons_ne_nil next parts) hparts]

/-! ## The last part -/

theorem splitAt_of_cutLast?_eq_none (h : cutLast? mark cs = none) : splitAt mark cs = [cs] := by
  induction cs with
  | nil => rfl
  | cons c cs ih =>
    rw [cutLast?] at h
    split at h
    · exact absurd h nofun
    · rename_i hcut
      split at h
      · exact absurd h nofun
      · rename_i hc
        exact splitAt_cons_of_ne hc (ih hcut)

/-- Cutting at the last mark takes the last part off. -/
theorem splitAt_of_cutLast? {before after : List Char}
    (h : cutLast? mark cs = some (before, after)) :
    splitAt mark cs = splitAt mark before ++ [after] := by
  induction cs generalizing before with
  | nil => exact absurd h nofun
  | cons c cs ih =>
    rw [cutLast?] at h
    split at h
    · rename_i front back hcut
      obtain ⟨rfl, rfl⟩ := Prod.mk.inj (Option.some.inj h)
      by_cases hc : c = mark
      · subst hc
        rw [splitAt_mark_cons, splitAt_mark_cons, ih hcut, List.cons_append]
      · obtain ⟨part, parts, hparts⟩ := exists_splitAt_eq_cons mark front
        have hcs := ih hcut
        rw [hparts, List.cons_append] at hcs
        rw [splitAt_cons_of_ne hc hcs, splitAt_cons_of_ne hc hparts, List.cons_append]
    · rename_i hcut
      split at h
      · rename_i hc
        obtain ⟨rfl, rfl⟩ := Prod.mk.inj (Option.some.inj h)
        rw [hc, splitAt_mark_cons, splitAt_of_cutLast?_eq_none hcut]
        rfl
      · exact absurd h nofun

/-- What is added without a mark goes into the last part. -/
theorem splitAt_append {front : List (List Char)} {last : List Char}
    (h : splitAt mark cs = front ++ [last]) (hds : mark ∉ ds) :
    splitAt mark (cs ++ ds) = front ++ [last ++ ds] := by
  induction cs generalizing front last with
  | nil =>
    obtain ⟨rfl, hlast⟩ : front = [] ∧ last = [] := by
      cases front with
      | nil => exact ⟨rfl, (List.cons.inj h).1.symm⟩
      | cons _ front => exact absurd (List.cons.inj h).2 (by simp)
    subst hlast
    exact splitAt_eq_self hds
  | cons c cs ih =>
    by_cases hc : c = mark
    · subst hc
      rw [splitAt_mark_cons] at h
      cases front with
      | nil => exact absurd (List.cons.inj h).2 (splitAt_ne_nil c cs)
      | cons first front =>
        obtain ⟨rfl, hrest⟩ := List.cons.inj h
        rw [List.cons_append, splitAt_mark_cons, ih hrest, List.cons_append]
    · obtain ⟨part, parts, hparts⟩ := exists_splitAt_eq_cons mark cs
      rw [splitAt_cons_of_ne hc hparts] at h
      cases front with
      | nil =>
        obtain ⟨rfl, rfl⟩ := List.cons.inj h
        have hmore : splitAt mark (cs ++ ds) = [] ++ [part ++ ds] := ih hparts
        exact splitAt_cons_of_ne hc hmore
      | cons first front =>
        obtain ⟨rfl, rfl⟩ := List.cons.inj h
        have hmore : splitAt mark (cs ++ ds) = part :: front ++ [last ++ ds] := ih hparts
        exact splitAt_cons_of_ne hc hmore

end PixelScene.Text
