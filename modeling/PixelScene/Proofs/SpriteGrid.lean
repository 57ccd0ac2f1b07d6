import PixelScene.Proofs.Atlas
import PixelScene.Proofs.Import.Order
import PixelScene.Proofs.Number.Comparison
import PixelScene.Proofs.Outcome

/-!
# The sprite grid

The side of a grid cell is set by the `$Grid` entries of sprite statements. A number below one is
refused, but what is not a number is not below one, and has zero for its integer part.

* `Node.gridNumbers`: the numbers that a tree gives to `$Grid`; the last of them counts.
* `Script.KeepsGrid`: reading statements goes through these numbers. `KeepsGrid.apply` is the step,
  `Script.keepsGrid_of_parse` the whole run.
* `gridSize_eq_zero_iff`: when the grid of a parsed and of a resolved script is zero.

The check is `number < 1` on a double, and every comparison with what is not a number is false. The
reader of frames, a few lines further on, asks the other way round and does refuse it. An integer
part of zero then makes every cell of the grid start at the same pixel. What is said here covers
imports as well: a resolved script has the grid of the first file that sets one.
-/

namespace PixelScene

/-! ## The numbers of a tree -/

namespace Statement

/-- The number that an entry of a sprite statement gives to `$Grid`, if it does. -/
def entryGrid (e : String × Node) : List Float :=
  if e.1 = gridKey then e.2.asNumber?.toList else []

/-- The numbers that a statement gives to `$Grid`, in order. -/
def gridNumbers (word : Keyword) (body : Node) : List Float :=
  match word, body with
  | .sprites, .map entries => entries.flatMap entryGrid
  | _, _ => []

end Statement

/-- The numbers that the statements of a tree give to `$Grid`, from top to bottom. -/
def Node.gridNumbers : Node → List Float
  | .map statements => statements.flatMap fun e => Statement.gridNumbers (Statement.keyword e.1) e.2
  | _ => []

namespace Script

/-- The number that counts for the grid of a source text, if it is a script that has one. -/
def gridNumber? (source : List Char) : Option Float :=
  (parse source).toOption.bind fun _ =>
    (Node.read source).toOption.bind fun root => root.gridNumbers.getLast?

/-! ## Reading statements -/

/-- The grid of a script is that of the last of some numbers, none of which is below one. -/
structure KeepsGrid (xs : List Float) (s : Script) : Prop where
  side : s.spriteGrid = xs.getLast?.map Number.truncateWord32
  accepted : ∀ x ∈ xs, ¬ x < 1

theorem keepsGrid_empty : KeepsGrid [] empty := ⟨rfl, List.forall_mem_nil _⟩

theorem KeepsGrid.of_eq {xs : List Float} {s s' : Script} (h : KeepsGrid xs s)
    (heq : s'.spriteGrid = s.spriteGrid) : KeepsGrid xs s' := ⟨heq.trans h.side, h.accepted⟩

theorem KeepsGrid.spriteEntry {xs : List Float} {s s' : Script} {e : String × Node}
    (hs : KeepsGrid xs s) (h : Statement.spriteEntry s e.1 e.2 = .ok s') :
    KeepsGrid (xs ++ Statement.entryGrid e) s' := by
  simp only [Statement.spriteEntry] at h
  unfold Statement.entryGrid
  split at h
  · rename_i hkey
    rw [bind_eq_ok_iff] at h
    obtain ⟨size, hsize, h⟩ := h
    have hnumber : e.2.asNumber? = some size := by
      unfold Statement.number at hsize
      split at hsize
      · rename_i hnumber
        rw [hnumber, Except.ok.inj hsize]
      · cases hsize
    rw [if_pos hkey, hnumber, Option.toList_some]
    split at h
    · exact absurd h throw_bind_ne_ok
    · rename_i haccepted
      obtain rfl := pure_eq_ok_iff.mp h
      refine ⟨?_, List.forall_mem_append.mpr ⟨hs.accepted, List.forall_mem_singleton.mpr haccepted⟩⟩
      rw [List.getLast?_concat, Option.map_some]
  · rename_i hkey
    rw [bind_eq_ok_iff] at h
    obtain ⟨sprite, -, h⟩ := h
    obtain rfl := pure_eq_ok_iff.mp h
    rw [if_neg hkey, List.append_nil]
    exact hs.of_eq rfl

theorem spriteGrid_apply {s s' : Script} {word : Statement.Keyword} {body : Node}
    (h : Statement.apply s word body = .ok s') (hword : word ≠ .sprites) :
    s'.spriteGrid = s.spriteGrid := by
  cases word with
  | sprites => exact absurd rfl hword
  | entity name =>
    simp only [Statement.apply] at h
    split at h
    · exact absurd h throw_bind_ne_ok
    · rw [bind_eq_ok_iff] at h
      obtain ⟨entity, -, h⟩ := h
      exact pure_eq_ok_iff.mp h ▸ rfl
  | source | imports | unknown => exact pure_eq_ok_iff.mp h ▸ rfl
  | events | layers | placements =>
    simp only [Statement.apply, bind_eq_ok_iff] at h
    obtain ⟨items, -, parsed, -, h⟩ := h
    exact pure_eq_ok_iff.mp h ▸ rfl
  | globals | inputs | backgrounds =>
    simp only [Statement.apply, bind_eq_ok_iff] at h
    obtain ⟨parsed, -, h⟩ := h
    exact pure_eq_ok_iff.mp h ▸ rfl

/-- **A statement adds its numbers.** -/
theorem KeepsGrid.apply {xs : List Float} {s s' : Script} {word : Statement.Keyword} {body : Node}
    (hs : KeepsGrid xs s) (h : Statement.apply s word body = .ok s') :
    KeepsGrid (xs ++ Statement.gridNumbers word body) s' := by
  by_cases hword : word = .sprites
  · subst hword
    simp only [Statement.apply, bind_eq_ok_iff] at h
    obtain ⟨entries, hentries, h⟩ := h
    unfold Statement.entries at hentries
    unfold Statement.gridNumbers
    split at hentries
    · obtain rfl := Except.ok.inj hentries
      exact foldlM_trace (fun xs b e b' hb he => hb.spriteEntry he) hs h
    · obtain rfl := Except.ok.inj hentries
      rw [List.append_nil]
      exact pure_eq_ok_iff.mp h ▸ hs
    · cases hentries
  · have hnone : Statement.gridNumbers word body = [] := by
      unfold Statement.gridNumbers
      split
      · exact absurd rfl hword
      · rfl
    rw [hnone, List.append_nil]
    exact hs.of_eq (spriteGrid_apply h hword)

theorem keepsGrid_of_ofNode {root : Node} {s : Script} (h : ofNode root = .ok s) :
    KeepsGrid root.gridNumbers s := by
  unfold ofNode at h
  split at h
  · exact foldlM_trace (fun xs b e b' hb he => hb.apply he) keepsGrid_empty h
  · exact Except.ok.inj h ▸ keepsGrid_empty
  · exact absurd h nofun

/-- The grid of a parsed script is that of the number that counts. -/
theorem keepsGrid_of_parse {source : List Char} {s : Script} (h : parse source = .ok s) :
    s.spriteGrid = (gridNumber? source).map Number.truncateWord32 ∧
      ∀ x ∈ gridNumber? source, ¬ x < 1 := by
  have hparse := h
  unfold parse at h
  rw [bind_eq_ok_iff] at h
  obtain ⟨root, hread, h⟩ := h
  cases hnode : Node.read source with
  | error e => exact absurd (hnode ▸ hread) nofun
  | ok root' =>
    rw [hnode] at hread
    obtain rfl := Except.ok.inj hread
    cases hroot : ofNode root' with
    | error e => exact absurd (hroot ▸ h) nofun
    | ok script =>
      obtain rfl := Except.ok.inj (hroot ▸ h)
      have hkeeps := keepsGrid_of_ofNode hroot
      have hnumber : gridNumber? source = root'.gridNumbers.getLast? := by
        rw [gridNumber?, hparse, hnode]
        rfl
      rw [hnumber]
      exact ⟨hkeeps.side, fun x hx => hkeeps.accepted x (List.mem_of_getLast? hx)⟩

end Script

/-! ## Imports -/

namespace Entry

variable (e : Entry)

/-- The number that counts for the grid of a file itself. -/
def fileGrid? (file : String) : Option Float :=
  (e.textOf file).toOption.bind fun text => Script.gridNumber? text.toList

/-- The number that counts for the grid of an entry with its imports: that of the first file with
one. -/
def gridNumber? : Option Float := e.files.findSome? e.fileGrid?

theorem keepsGrid_script (file : String) :
    (e.script file).spriteGrid = (e.fileGrid? file).map Number.truncateWord32 ∧
      ∀ x ∈ e.fileGrid? file, ¬ x < 1 := by
  unfold script parsed? Script.ofContents? fileGrid?
  cases e.textOf file with
  | error _ => exact ⟨rfl, nofun⟩
  | ok text =>
    cases hparse : Script.parse text.toList with
    | error _ =>
      have hnumber : Script.gridNumber? text.toList = none := by
        rw [Script.gridNumber?, hparse]
        rfl
      simp only [Except.toOption, hparse, Option.bind_some, hnumber]
      exact ⟨rfl, nofun⟩
    | ok s =>
      simp only [Except.toOption, hparse, Option.bind_some]
      exact Script.keepsGrid_of_parse hparse

/-- The grid of a resolved script is that of the number that counts. -/
theorem keepsGrid_resolve :
    (resolve e.tree e.text e.id).script.spriteGrid = e.gridNumber?.map Number.truncateWord32 ∧
      ∀ x ∈ e.gridNumber?, ¬ x < 1 := by
  obtain ⟨-, -, hmerged, -⟩ := resolve_flattens e
  constructor
  · have hfiles : Script.spriteGrid ∘ e.script =
        fun file => (e.fileGrid? file).map Number.truncateWord32 :=
      funext fun file => (e.keepsGrid_script file).1
    rw [hmerged.spriteGrid, List.findSome?_map, hfiles, gridNumber?, List.map_findSome?]
    rfl
  · intro x hx
    obtain ⟨file, -, hfile⟩ := List.exists_of_findSome?_eq_some hx
    exact (e.keepsGrid_script file).2 x hfile

end Entry

/-! ## When the grid is zero -/

theorem Script.gridSize_eq_zero_of {s : Script} {number : Option Float}
    (h : s.spriteGrid = number.map Number.truncateWord32 ∧ ∀ x ∈ number, ¬ x < 1) :
    s.gridSize = 0 ↔ number.map Number.exact = some .notNumber := by
  obtain ⟨hside, haccepted⟩ := h
  rw [Script.gridSize, hside]
  cases number with
  | none => exact iff_of_false (by decide) nofun
  | some x =>
    rw [Option.map_some, Option.getD_some, Option.map_some, Option.some_inj]
    rcases (Number.not_lt_one_iff x).mp (haccepted x rfl) with hnan | hpos
    · refine iff_of_true ?_ hnan
      rw [Number.truncateWord32, hnan]
      rfl
    · refine iff_of_false (by omega) fun hnan => ?_
      rw [Number.truncateWord32, hnan] at hpos
      exact absurd hpos (by decide)

/-- A frame of a sprite on the grid is one cell. -/
theorem frame?_of_grid {s : Script} {i k id : Nat} {name : String} {column row frames : Nat}
    (hnumbers : s.Numbers i k id)
    (hat : s.sprites.at? i = some (name, .grid column row frames)) :
    ∃ f, (Atlas.ofScript s).frame? id = some f ∧ f.width = s.gridSize ∧ f.height = s.gridSize := by
  obtain ⟨e, he, hk, hid⟩ := hnumbers
  obtain rfl := Option.some.inj (hat.symm.trans he)
  exact ⟨_, Atlas.frame?_of_numbers he hk hid, rfl, rfl⟩

/--
**The grid of a script is zero just when the `$Grid` that counts is not a number.** This holds of
every source text that is a script and of every script with its imports; and a frame of a sprite on
the grid is as wide and as high as the grid.
-/
theorem gridSize_eq_zero_iff (e : Entry) (source : List Char) :
    (∀ s, Script.parse source = .ok s →
      (s.gridSize = 0 ↔ (Script.gridNumber? source).map Number.exact = some .notNumber)) ∧
    ((resolve e.tree e.text e.id).script.gridSize = 0 ↔
      e.gridNumber?.map Number.exact = some .notNumber) ∧
    ∀ (s : Script) (i k id : Nat) (name : String) (column row frames : Nat), s.Numbers i k id →
      s.sprites.at? i = some (name, .grid column row frames) →
      ∃ f, (Atlas.ofScript s).frame? id = some f ∧ f.width = s.gridSize ∧ f.height = s.gridSize :=
  ⟨fun _ h => Script.gridSize_eq_zero_of (Script.keepsGrid_of_parse h),
    Script.gridSize_eq_zero_of e.keepsGrid_resolve, fun _ _ _ _ _ _ _ _ => frame?_of_grid⟩

/-- A sprite on a grid of eight. -/
def eightSource : List Char := "Sprites:\n  $Grid: \"8\"\n  idle: [\"2\", \"1\"]\n".toList

set_option maxRecDepth 20000 in
theorem read_eightSource : Node.read eightSource = .ok (.map [("Sprites",
    .map [("$Grid", .text "8"), ("idle", .list [.text "2", .text "1"])])]) := by cbv

/-- The script of `eightSource`. -/
def eightScript : Script :=
  { Script.empty with spriteGrid := some 8, sprites := .ofList [("idle", .grid 2 1 1)] }

set_option maxRecDepth 20000 in
theorem parse_eightSource : Script.parse eightSource = .ok eightScript := by
  rw [Script.parse, read_eightSource]
  rfl

theorem gridSize_eq_zero_iff_eight :
    Script.parse eightSource = .ok eightScript ∧ eightScript.gridSize ≠ 0 ∧
      ∃ f, (Atlas.ofScript eightScript).frame? 1 = some f ∧ f.width = 8 ∧ f.height = 8 := by
  obtain ⟨hparsed, -, hframes⟩ :=
    gridSize_eq_zero_iff ⟨FileTree.empty, "main.msc", "Sprites:"⟩ eightSource
  have hnumber : (Script.gridNumber? eightSource).map Number.exact ≠ some .notNumber := by
    rw [Script.gridNumber?, parse_eightSource, read_eightSource]
    decide +kernel
  have hnumbers : eightScript.Numbers 0 0 1 := ⟨("idle", .grid 2 1 1), rfl, by decide, rfl⟩
  exact ⟨parse_eightSource, mt (hparsed _ parse_eightSource).mp hnumber,
    hframes eightScript 0 0 1 "idle" 2 1 1 hnumbers rfl⟩

/-- A sprite on a grid whose side is not a number. -/
def sidelessSource : List Char :=
  "Sprites:\n  $Grid: \"nan\"\n  idle: [\"2\", \"1\"]\n".toList

set_option maxRecDepth 20000 in
theorem read_sidelessSource : Node.read sidelessSource = .ok (.map [("Sprites",
    .map [("$Grid", .text "nan"), ("idle", .list [.text "2", .text "1"])])]) := by cbv

/-- The script of `sidelessSource`. -/
def sidelessScript : Script :=
  { Script.empty with spriteGrid := some 0, sprites := .ofList [("idle", .grid 2 1 1)] }

set_option maxRecDepth 20000 in
theorem sideless_grid : Script.parse sidelessSource = .ok sidelessScript ∧
    sidelessScript.gridSize = 0 ∧
      ((Atlas.ofScript sidelessScript).frame? 1).map (fun f => (f.width, f.height)) =
        some (0, 0) := by
  refine ⟨?_, rfl, rfl⟩
  rw [Script.parse, read_sidelessSource]
  rfl

end PixelScene
