import Mathlib.Data.List.Basic
import Mathlib.Data.List.Induction

/-!
# First occurrences

`List.eraseDups` keeps the first occurrence of every member of a list. Files are entered, and names
are declared, in the order of first occurrences.

* `nodup_eraseDups`: nothing is kept twice.
* `eraseDups_append_of_subset`: what occurs before adds nothing.
* `pairwise_idxOf_eraseDups`: what is kept stands in the order in which it occurs first.
* `eraseDups_flatMap_eraseDups`, `findSome?_eraseDups`: a list and its first occurrences declare the
  same names in the same order, and the same one is found first.

The engine has two loops of this kind: the set of visited files, which lets a file through once, and
tables that keep the first declaration of a name. Both are described by what they let through in
order, so that their agreement becomes a fact about lists.
-/

namespace PixelScene

variable {α β : Type} [BEq α] [LawfulBEq α]

theorem nodup_eraseDups (l : List α) : l.eraseDups.Nodup := by
  match l with
  | [] => exact List.nodup_nil
  | a :: l =>
    have hlen : (l.filter fun b => !b == a).length < (a :: l).length :=
      Nat.lt_succ_of_le (List.length_filter_le _ l)
    rw [List.eraseDups_cons, List.nodup_cons]
    refine ⟨?_, nodup_eraseDups _⟩
    rw [List.mem_eraseDups, List.mem_filter]
    rintro ⟨-, ha⟩
    simp at ha
termination_by l.length
decreasing_by exact hlen

theorem eraseDups_of_nodup {l : List α} (h : l.Nodup) : l.eraseDups = l := by
  induction l with
  | nil => rfl
  | cons a l ih =>
    obtain ⟨ha, hl⟩ := List.nodup_cons.mp h
    have hfilter : (l.filter fun b => !b == a) = l := by
      refine List.filter_eq_self.mpr fun b hb => ?_
      have hne : b ≠ a := fun e => ha (e ▸ hb)
      simpa using hne
    rw [List.eraseDups_cons, hfilter, ih hl]

theorem removeAll_eq_nil {l m : List α} (h : ∀ x ∈ m, x ∈ l) : m.removeAll l = [] := by
  refine List.filter_eq_nil_iff.mpr fun x hx => ?_
  simpa using h x hx

/-- What occurs before adds nothing. -/
theorem eraseDups_append_of_subset {l m : List α} (h : ∀ x ∈ m, x ∈ l) :
    (l ++ m).eraseDups = l.eraseDups := by
  rw [List.eraseDups_append, removeAll_eq_nil h, List.eraseDups_nil, List.append_nil]

theorem removeAll_eraseDups (m l : List α) : m.removeAll l.eraseDups = m.removeAll l := by
  refine List.filter_congr fun x _ => ?_
  simp

theorem eraseDups_eraseDups_append (l m : List α) :
    (l.eraseDups ++ m).eraseDups = (l ++ m).eraseDups := by
  rw [List.eraseDups_append, List.eraseDups_append, eraseDups_of_nodup (nodup_eraseDups l),
    removeAll_eraseDups]

theorem eraseDups_concat (l : List α) (a : α) [Decidable (a ∈ l)] :
    (l ++ [a]).eraseDups = if a ∈ l then l.eraseDups else l.eraseDups ++ [a] := by
  split
  · rename_i ha
    exact eraseDups_append_of_subset fun x hx => List.mem_singleton.mp hx ▸ ha
  · rename_i ha
    have hnew : [a].removeAll l = [a] := by simp [List.removeAll, ha]
    rw [List.eraseDups_append, hnew]
    rfl

/-- What is kept stands in the order in which it occurs first. -/
theorem pairwise_idxOf_eraseDups (l : List α) :
    l.eraseDups.Pairwise fun a b => l.idxOf a < l.idxOf b := by
  classical
  induction l using List.reverseRecOn with
  | nil => exact .nil
  | append_singleton l a ih =>
    -- what occurs already has its first place in front of what comes later
    have hplace {x : α} (hx : x ∈ l.eraseDups) : (l ++ [a]).idxOf x = l.idxOf x :=
      List.idxOf_append_of_mem (List.mem_eraseDups.mp hx)
    have hbefore : l.eraseDups.Pairwise fun x y => (l ++ [a]).idxOf x < (l ++ [a]).idxOf y :=
      ih.imp_of_mem fun hx hy hlt => by rwa [hplace hx, hplace hy]
    rw [eraseDups_concat]
    split
    · exact hbefore
    · rename_i ha
      refine List.pairwise_append.mpr ⟨hbefore, List.pairwise_singleton .., fun x hx y hy => ?_⟩
      rw [List.mem_singleton.mp hy, hplace hx, List.idxOf_append_of_notMem ha]
      exact Nat.lt_add_right _ (List.idxOf_lt_length_of_mem (List.mem_eraseDups.mp hx))

theorem eraseDups_append_eraseDups (l m : List α) :
    (l ++ m.eraseDups).eraseDups = (l ++ m).eraseDups := by
  classical
  induction m using List.reverseRecOn with
  | nil => rfl
  | append_singleton m a ih =>
    rw [eraseDups_concat m a, ← List.append_assoc, eraseDups_concat (l ++ m) a, ← ih]
    by_cases hm : a ∈ m
    · rw [if_pos hm, if_pos (List.mem_append_right _ hm)]
    · rw [if_neg hm, ← List.append_assoc, eraseDups_concat]
      simp only [List.mem_append, List.mem_eraseDups]

/-- The first occurrences of a list tell the same names in the same order as the list. -/
theorem eraseDups_flatMap_eraseDups [BEq β] [LawfulBEq β] (f : α → List β) (l : List α) :
    (l.eraseDups.flatMap f).eraseDups = (l.flatMap f).eraseDups := by
  classical
  induction l using List.reverseRecOn with
  | nil => rfl
  | append_singleton l a ih =>
    calc ((l ++ [a]).eraseDups.flatMap f).eraseDups
        = (l.eraseDups.flatMap f ++ f a).eraseDups := by
          rw [eraseDups_concat]
          split
          · rename_i ha
            exact (eraseDups_append_of_subset fun x hx =>
              List.mem_flatMap.mpr ⟨a, List.mem_eraseDups.mpr ha, hx⟩).symm
          · rw [List.flatMap_append, List.flatMap_singleton]
      _ = ((l.eraseDups.flatMap f).eraseDups ++ f a).eraseDups :=
          (eraseDups_eraseDups_append _ _).symm
      _ = (l.flatMap f ++ f a).eraseDups := by rw [ih, eraseDups_eraseDups_append]
      _ = ((l ++ [a]).flatMap f).eraseDups := by rw [List.flatMap_append, List.flatMap_singleton]

/-- The first occurrences of a list have the same first finding as the list. -/
theorem findSome?_eraseDups (f : α → Option β) (l : List α) :
    l.eraseDups.findSome? f = l.findSome? f := by
  classical
  induction l using List.reverseRecOn with
  | nil => rfl
  | append_singleton l a ih =>
    rw [List.findSome?_append, ← ih, eraseDups_concat]
    split
    · rename_i ha
      cases hl : l.eraseDups.findSome? f with
      | none =>
        have hf : f a = none := List.findSome?_eq_none_iff.mp hl a (List.mem_eraseDups.mpr ha)
        rw [List.findSome?_singleton, hf, Option.none_or]
      | some b => rw [Option.some_or]
    · rw [List.findSome?_append]

end PixelScene
