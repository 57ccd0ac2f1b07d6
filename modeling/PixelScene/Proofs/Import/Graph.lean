import Mathlib.Logic.Relation
import PixelScene.Import.Resolve

/-!
# The import graph

Files import files. An `Entry` is a project together with the file that it is entered by; the text
of this file is given apart, since it may differ from the one that the project has.

* `Imports` is the edge of the graph: an import line of one file leads to another script file.
* `Reachable` files are those that the edges lead to from the entry, and `Acyclic` says that none of
  them leads back to itself. `Entry.acyclic_of_rank` lets it be checked.

An edge is what the engine would follow: a line whose path means a file of the project, of the kind
of scripts. Whether the file was entered before plays no part in it, since this is a question of a
walk and not of the project. The entry has a text of its own, as an editor may hold one that was not
saved.
-/

namespace PixelScene

/-- The script file that an import line of `file` leads to. -/
def FileTree.scriptFile? (tree : FileTree) (file path : String) : Option String :=
  match tree.find? file path with
  | some f => if f.kind = .script then some f.id else none
  | none => none

theorem FileTree.scriptFile?_eq_some_iff {tree : FileTree} {file path target : String} :
    tree.scriptFile? file path = some target ↔
      ∃ f, tree.find? file path = some f ∧ f.kind = .script ∧ f.id = target := by
  unfold scriptFile?
  cases tree.find? file path with
  | none => simp
  | some f => simp

theorem FileTree.mem_keys_of_scriptFile? {tree : FileTree} {file path target : String}
    (h : tree.scriptFile? file path = some target) : target ∈ tree.files.keys := by
  obtain ⟨f, hfind, -, rfl⟩ := scriptFile?_eq_some_iff.mp h
  exact contains_of_find? hfind

/-- What the contents of a file declare, if they can be read and parsed. -/
def Script.ofContents? (contents : Except String String) : Option Script :=
  match contents with
  | .ok text => (Script.parse text.toList).toOption
  | .error _ => none

/-- A project and the file that it is entered by, with the text that this file has. -/
structure Entry where
  tree : FileTree
  id : String
  text : String

namespace Entry

variable (e : Entry)

/-- The text of a file. -/
def textOf (file : String) : Except String String :=
  if file = e.id then .ok e.text else e.tree.text file

/-- What a file declares itself, if it can be read and parsed. -/
def parsed? (file : String) : Option Script := Script.ofContents? (e.textOf file)

/-- What a file declares itself; one that cannot be read or parsed declares nothing. -/
def script (file : String) : Script := (e.parsed? file).getD Script.empty

/-- An import line of `file` leads to the script file `target`. -/
def Imports (file target : String) : Prop :=
  ∃ script, e.parsed? file = some script ∧
    ∃ path ∈ script.imports, e.tree.scriptFile? file path = some target

/-- Import lines lead from the entry to `file`. -/
def Reachable (file : String) : Prop := Relation.ReflTransGen e.Imports e.id file

/-- No file that import lines lead to from the entry imports itself, however indirectly. -/
def Acyclic : Prop := ∀ file, e.Reachable file → ¬ Relation.TransGen e.Imports file file

variable {e}

theorem imports_iff {file target : String} : e.Imports file target ↔
    ∃ path ∈ (e.script file).imports, e.tree.scriptFile? file path = some target := by
  unfold Imports script
  cases e.parsed? file with
  | none => simp [Script.empty]
  | some s => simp

theorem mem_of_imports {file target : String} (h : e.Imports file target) :
    file ∈ e.id :: e.tree.files.keys := by
  obtain ⟨script, hparsed, -⟩ := h
  by_cases hid : file = e.id
  · exact List.mem_cons.mpr (.inl hid)
  · refine List.mem_cons_of_mem _ ((Dictionary.get?_isSome_iff_mem_keys _ _).mp ?_)
    unfold parsed? textOf at hparsed
    rw [if_neg hid, FileTree.text] at hparsed
    cases hget : e.tree.files.get? file with
    | none =>
      rw [hget] at hparsed
      exact absurd hparsed nofun
    | some contents => rfl

/-- A number for each file that every import lowers shows that no file imports itself. -/
theorem acyclic_of_rank (rank : String → Nat)
    (h : ∀ file ∈ e.id :: e.tree.files.keys, ∀ path ∈ (e.script file).imports,
      ∀ target ∈ e.tree.scriptFile? file path, rank target < rank file) : e.Acyclic := by
  have hlower : ∀ file target, Relation.TransGen e.Imports file target →
      rank target < rank file := by
    intro file target hpath
    refine Relation.TransGen.trans_induction_on hpath (fun {x y} hedge => ?_)
      (fun _ _ hxy hyz => Nat.lt_trans hyz hxy)
    obtain ⟨path, hline, hfind⟩ := imports_iff.mp hedge
    exact h x (mem_of_imports hedge) path hline y hfind
  exact fun file _ hcycle => Nat.lt_irrefl _ (hlower file file hcycle)

end Entry

end PixelScene
