import PixelScene.Import.Path
import PixelScene.Proofs.Text.Split

/-!
# Where an import path leads

An import path is followed component by component from the directory of the importing file, or from
the root when it starts with a slash. The directories on the way are a stack: a name goes on top,
`..` takes the top off, and an empty component or `.` does nothing.

* `visit` is what one component does, and `Escapes` says that a `..` comes when nothing is left.
* `joinPath?_eq_none_iff`, `joinPath?_eq_some`: an import path is refused when it escapes or leads
  to the root itself, and means the final stack otherwise.
* `ordinary_joinPath?`, `ordinary_candidates`: every component of what an import path may mean is
  the name of a directory or a file, unless the importing file itself has a `..` in its path.

The stack is the engine's own (`join_import_path`), which keeps the parts of the path in a list and
takes the last one off for `..`. Of the importing file it takes the directory, from which it drops
empty parts and `.`, but no `..`: hence the assumption that there is none. Blanks around an import
path do not count, and the path of the importing file is taken as it is.
-/

namespace PixelScene

/-! ## Components -/

/-- The components of a path: what stands between its slashes. -/
def components (path : List Char) : List (List Char) := Text.splitAt '/' path

/-- The component that leads to the directory above. -/
def parentPart : List Char := ['.', '.']

/-- The component is a name: it is not empty, and neither `.` nor `..`. -/
def IsName (part : List Char) : Prop := part ≠ [] ∧ part ≠ ['.'] ∧ part ≠ parentPart

instance (part : List Char) : Decidable (IsName part) := inferInstanceAs (Decidable (_ ∧ _))

/-- Every component of the path is a name. -/
def Ordinary (path : List Char) : Prop := ∀ part ∈ components path, IsName part

instance (path : List Char) : Decidable (Ordinary path) :=
  inferInstanceAs (Decidable (∀ part ∈ components path, IsName part))

theorem Ordinary.parentPart_not_mem {path : List Char} (h : Ordinary path) :
    parentPart ∉ components path := fun hmem => (h parentPart hmem).2.2 rfl

/-! ## Following components -/

/-- The stack of directories after a component. -/
def visit (stack : List (List Char)) (part : List Char) : List (List Char) :=
  if part = [] ∨ part = ['.'] then stack
  else if part = parentPart then stack.dropLast
  else stack ++ [part]

/-- Among the parts is a `..` that finds nothing on the stack. -/
def Escapes (stack parts : List (List Char)) : Prop :=
  ∃ before after, parts = before ++ parentPart :: after ∧ before.foldl visit stack = []

variable {stack parts : List (List Char)} {part : List Char}

theorem visit_of_skipped (h : part = [] ∨ part = ['.']) : visit stack part = stack := if_pos h

theorem visit_parentPart : visit stack parentPart = stack.dropLast := rfl

theorem visit_of_isName (h : IsName part) : visit stack part = stack ++ [part] := by
  obtain ⟨hnil, hpoint, hup⟩ := h
  rw [visit, if_neg (not_or_intro hnil hpoint), if_neg hup]

/-- A component does nothing, leads up, or is a name. -/
theorem part_cases (part : List Char) :
    (part = [] ∨ part = ['.']) ∨ part = parentPart ∨ IsName part := by
  by_cases hskip : part = [] ∨ part = ['.']
  · exact .inl hskip
  by_cases hup : part = parentPart
  · exact .inr (.inl hup)
  · obtain ⟨hnil, hpoint⟩ := not_or.mp hskip
    exact .inr (.inr ⟨hnil, hpoint, hup⟩)

theorem not_escapes_nil : ¬ Escapes stack [] := by
  rintro ⟨before, after, hparts, -⟩
  cases before <;> cases hparts

theorem escapes_cons_iff : Escapes stack (part :: parts) ↔
    part = parentPart ∧ stack = [] ∨ Escapes (visit stack part) parts := by
  constructor
  · rintro ⟨before, after, hparts, hstack⟩
    cases before with
    | nil => exact .inl ⟨(List.cons.inj hparts).1, hstack⟩
    | cons first before =>
      obtain ⟨rfl, rfl⟩ := List.cons.inj hparts
      exact .inr ⟨before, after, rfl, hstack⟩
  · rintro (⟨rfl, hstack⟩ | ⟨before, after, rfl, hstack⟩)
    · exact ⟨[], parts, rfl, hstack⟩
    · exact ⟨part :: before, after, rfl, hstack⟩

theorem escapes_cons_of_ne (h : part ≠ parentPart) :
    Escapes stack (part :: parts) ↔ Escapes (visit stack part) parts :=
  escapes_cons_iff.trans (or_iff_right fun hup => h hup.1)

/-- A component that is skipped makes no difference. -/
theorem escapes_cons_of_skipped (h : part = [] ∨ part = ['.']) :
    Escapes stack (part :: parts) ↔ Escapes stack parts := by
  have hne : part ≠ parentPart := by rcases h with rfl | rfl <;> exact nofun
  rw [escapes_cons_of_ne hne, visit_of_skipped h]

/-- Only names are put on the stack. -/
theorem mem_foldl_visit {name : List Char} (h : name ∈ parts.foldl visit stack) :
    name ∈ stack ∨ name ∈ parts ∧ IsName name := by
  induction parts generalizing stack with
  | nil => exact .inl h
  | cons part parts ih =>
    rcases ih h with hmem | ⟨hmem, hname⟩
    · rcases part_cases part with hskip | rfl | hname
      · rw [visit_of_skipped hskip] at hmem
        exact .inl hmem
      · exact .inl (List.dropLast_subset stack hmem)
      · rw [visit_of_isName hname] at hmem
        rcases List.mem_append.mp hmem with hmem | hmem
        · exact .inl hmem
        · obtain rfl := List.mem_singleton.mp hmem
          exact .inr ⟨List.mem_cons_self, hname⟩
    · exact .inr ⟨List.mem_cons_of_mem part hmem, hname⟩

/-! ## The walk -/

/-- The walk keeps the stack as a list, last directory first, and ends where a `..` escapes. -/
theorem walk?_eq_none_iff (reversed parts : List (List Char)) :
    walk? reversed parts = none ↔ Escapes reversed.reverse parts := by
  fun_induction walk? reversed parts with
  | case1 => exact iff_of_false nofun not_escapes_nil
  | case2 reversed part more hskip ih => rw [ih, escapes_cons_of_skipped hskip]
  | case3 more => exact iff_of_true rfl (escapes_cons_iff.mpr (.inl ⟨rfl, rfl⟩))
  | case4 more name parents _ ih =>
    have hsome : (name :: parents).reverse ≠ [] := by simp
    rw [ih, ← parentPart, escapes_cons_iff, or_iff_right fun hup => hsome hup.2, visit_parentPart,
      List.reverse_cons, List.dropLast_concat]
  | case5 reversed part more hskip hup ih =>
    obtain ⟨hnil, hpoint⟩ := not_or.mp hskip
    rw [ih, escapes_cons_of_ne hup, visit_of_isName ⟨hnil, hpoint, hup⟩, List.reverse_cons]

/-- A walk that does not end early leads to the final stack. -/
theorem foldl_visit_of_walk? {reversed parts last : List (List Char)}
    (h : walk? reversed parts = some last) : parts.foldl visit reversed.reverse = last.reverse := by
  fun_induction walk? reversed parts with
  | case1 => rw [Option.some.inj h, List.foldl_nil]
  | case2 reversed part more hskip ih => rw [List.foldl_cons, visit_of_skipped hskip, ih h]
  | case3 => exact absurd h nofun
  | case4 more name parents _ ih =>
    rw [List.foldl_cons, ← parentPart, visit_parentPart, List.reverse_cons, List.dropLast_concat,
      ih h]
  | case5 reversed part more hskip hup ih =>
    obtain ⟨hnil, hpoint⟩ := not_or.mp hskip
    rw [List.foldl_cons, visit_of_isName ⟨hnil, hpoint, hup⟩, ← List.reverse_cons, ih h]

/-! ## Joining -/

/-- The directory of a file as a stack. -/
def directoryStack (current : List Char) : List (List Char) :=
  (components current).dropLast.filter fun part => part ≠ [] ∧ part ≠ ['.']

/-- The stack that an import path in the file `current` starts from: it is empty for a path that
starts with a slash, and the directory of the file otherwise. -/
def startStack (current path : List Char) : List (List Char) :=
  if (Text.trim path).head? = some '/' then [] else directoryStack current

/-- The components of an import path. -/
def pathParts (path : List Char) : List (List Char) := components (Text.trim path)

/-- The stack that an import path in the file `current` ends with. -/
def finalStack (current path : List Char) : List (List Char) :=
  (pathParts path).foldl visit (startStack current path)

variable {current path joined : List Char}

theorem directoryParts_eq (current : List Char) :
    directoryParts current = directoryStack current := by
  unfold directoryParts directoryStack components
  split
  · rename_i hcut
    rw [Text.splitAt_of_cutLast? hcut, List.dropLast_concat]
  · rename_i hcut
    rw [Text.splitAt_of_cutLast?_eq_none hcut]
    rfl

/-- Where the walk for an import path starts, and what it follows. -/
theorem startingPoint_spec (current path : List Char) :
    (Escapes (startingPoint current path).1.reverse (components (startingPoint current path).2) ↔
      Escapes (startStack current path) (pathParts path)) ∧
      (components (startingPoint current path).2).foldl visit
        (startingPoint current path).1.reverse = finalStack current path := by
  unfold startingPoint finalStack startStack pathParts
  split
  · rename_i rest hpath
    rw [hpath, List.head?_cons, if_pos rfl, components, components, Text.splitAt_mark_cons,
      List.foldl_cons, visit_of_skipped (.inl rfl), escapes_cons_of_skipped (.inl rfl)]
    exact ⟨Iff.rfl, rfl⟩
  · rename_i hpath
    have hhead : (Text.trim path).head? ≠ some '/' := by
      intro hhead
      obtain ⟨rest, hrest⟩ := List.head?_eq_some_iff.mp hhead
      exact hpath rest hrest
    rw [if_neg hhead, directoryParts_eq]
    simp only [List.reverse_reverse, and_self]

/-- An import path is refused, or means its final stack. -/
theorem joinPath?_cases (current path : List Char) :
    (joinPath? current path = none ∧
      (Escapes (startStack current path) (pathParts path) ∨ finalStack current path = [])) ∨
    (joinPath? current path = some (joinParts (finalStack current path)) ∧
      ¬ Escapes (startStack current path) (pathParts path) ∧ finalStack current path ≠ []) := by
  obtain ⟨hescapes, hfinal⟩ := startingPoint_spec current path
  rw [← hescapes, ← hfinal, ← walk?_eq_none_iff]
  unfold joinPath? components
  cases hwalk : walk? (startingPoint current path).1
      (Text.splitAt '/' (startingPoint current path).2) with
  | none => exact .inl ⟨by simp only [hwalk], .inl rfl⟩
  | some last =>
    rw [foldl_visit_of_walk? hwalk]
    cases last with
    | nil => exact .inl ⟨by simp only [hwalk], .inr rfl⟩
    | cons name parents =>
      exact .inr ⟨by simp only [hwalk], Option.some_ne_none _, by simp⟩

/-- **An import path is refused when it escapes, or leads to the root itself.** -/
theorem joinPath?_eq_none_iff (current path : List Char) : joinPath? current path = none ↔
    Escapes (startStack current path) (pathParts path) ∨ finalStack current path = [] := by
  rcases joinPath?_cases current path with ⟨hnone, hrefused⟩ | ⟨hsome, hstays, hne⟩
  · exact iff_of_true hnone hrefused
  · exact iff_of_false (hsome ▸ nofun) (not_or_intro hstays hne)

/-- An import path that is not refused means its final stack. -/
theorem joinPath?_eq_some (h : joinPath? current path = some joined) :
    joined = joinParts (finalStack current path) ∧ finalStack current path ≠ [] := by
  rcases joinPath?_cases current path with ⟨hnone, -⟩ | ⟨hsome, -, hne⟩
  · exact absurd (hnone.symm.trans h) nofun
  · exact ⟨Option.some.inj (h.symm.trans hsome), hne⟩

/-! ## Ordinary paths -/

/-- What is on the final stack is a name, and was between two slashes. -/
theorem isName_of_mem_finalStack (hcurrent : parentPart ∉ components current) :
    ∀ part ∈ finalStack current path, IsName part ∧ '/' ∉ part := by
  intro part hpart
  rcases mem_foldl_visit hpart with hmem | ⟨hmem, hname⟩
  · unfold startStack directoryStack at hmem
    split at hmem
    · exact absurd hmem List.not_mem_nil
    · obtain ⟨hmem, hkept⟩ := List.mem_filter.mp hmem
      have hcomponent : part ∈ components current := List.dropLast_subset _ hmem
      obtain ⟨hnil, hpoint⟩ : part ≠ [] ∧ part ≠ ['.'] := by simpa using hkept
      refine ⟨⟨hnil, hpoint, ?_⟩, Text.not_mem_of_mem_splitAt part hcomponent⟩
      rintro rfl
      exact hcurrent hcomponent
  · exact ⟨hname, Text.not_mem_of_mem_splitAt part hmem⟩

/-- The components of what an import path means are the final stack. -/
theorem components_of_joinPath? (hcurrent : parentPart ∉ components current)
    (h : joinPath? current path = some joined) :
    components joined = finalStack current path := by
  obtain ⟨rfl, hne⟩ := joinPath?_eq_some h
  exact Text.splitAt_intercalate hne fun part hpart =>
    (isName_of_mem_finalStack hcurrent part hpart).2

theorem ordinary_joinPath? (hcurrent : parentPart ∉ components current)
    (h : joinPath? current path = some joined) : Ordinary joined := by
  intro part hpart
  rw [components_of_joinPath? hcurrent h] at hpart
  exact (isName_of_mem_finalStack hcurrent part hpart).1

/-- With the ending of scripts an ordinary path stays ordinary. -/
theorem Ordinary.addEnding (h : Ordinary joined) :
    Ordinary (joined ++ '.' :: scriptEnding.toList) := by
  have hne : components joined ≠ [] := Text.splitAt_ne_nil '/' joined
  have hlast := List.dropLast_concat_getLast hne
  have hending : '/' ∉ '.' :: scriptEnding.toList := by decide
  have hcomponents := Text.splitAt_append hlast.symm hending
  intro part hpart
  rw [components, hcomponents] at hpart
  rcases List.mem_append.mp hpart with hpart | hpart
  · exact h part (List.dropLast_subset _ hpart)
  · -- the last component has grown too long for `.` and `..`
    obtain rfl := List.mem_singleton.mp hpart
    have hlength : 4 ≤ ((components joined).getLast hne ++ '.' :: scriptEnding.toList).length := by
      rw [List.length_append]
      exact Nat.le_add_left 4 _
    refine ⟨?_, ?_, ?_⟩ <;> exact fun heq => absurd (heq ▸ hlength) (by decide)

theorem ordinary_candidates (h : Ordinary joined) :
    ∀ candidate ∈ candidates joined, Ordinary candidate := by
  unfold candidates
  split
  · exact List.forall_mem_singleton.mpr h
  · exact List.forall_mem_cons.mpr ⟨h, List.forall_mem_singleton.mpr h.addEnding⟩

end PixelScene
