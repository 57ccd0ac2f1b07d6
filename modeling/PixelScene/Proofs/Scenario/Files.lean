import PixelScene.Proofs.Disk
import PixelScene.Proofs.Import.Confined
import PixelScene.Scenario.Run

/-!
# The files of a scenario

The run of a scenario depends on the files that its script is put together from: the script itself,
and every path that is looked up for an import line. Whatever else is written to the disk, a
recording among it, the script is the same.

* `Scenario.Asks`: the files that a scenario asks for, whether they are there or not.
* `Scenario.resolution_write?`: writing any other file makes no difference to its script.

The paths are those on the disk, with the folder of the scenario in front. Whether two paths mean
one file is decided by the place that they mean, not by their text. A scenario that asks for the
file in which its own recording is kept is possible, and excluded where it would matter.
-/

namespace PixelScene

namespace Scenario

variable {s : Scenario} {d d' : Disk} {folder : String}

/-- The file of a script in a project, with the text that it has. -/
def scriptEntry (d : Disk) (path text : String) : Entry where
  tree := d.tree (FilePath.folder path)
  id := FilePath.name path
  text := text

/-- A scenario asks for a file of the disk. A script that is written into the scenario brings its
imports with it, and asks for none. -/
def Asks (s : Scenario) (d : Disk) (folder id : String) : Prop :=
  ∃ script, s.script = some script ∧ (d.id? (FilePath.inside folder script) = some id ∨
    ∃ text, d.text (FilePath.inside folder script) = .ok text ∧
      ∃ file ∈ (scriptEntry d (FilePath.inside folder script) text).lookups,
        d.idIn? (FilePath.folder (FilePath.inside folder script)) file = some id)

/-- **A scenario has the same script after any file that it does not ask for was written.** -/
theorem resolution_write? {path : String} {content : Content}
    (h : d.write? path content = some d')
    (hasks : ∀ id, d.id? path = some id → ¬ s.Asks d folder id) :
    s.resolution d' folder = s.resolution d folder := by
  unfold resolution
  cases hscript : s.script with
  | none => cases s.source <;> rfl
  | some script =>
    obtain ⟨place, hplace, -, -⟩ := Disk.write?_eq_some h
    have hid : d.id? path = some (String.ofList (joinParts place)) := by
      rw [Disk.id?, hplace]
      rfl
    have hother : d.id? (FilePath.inside folder script) ≠ d.id? path := fun heq =>
      hasks _ hid ⟨script, hscript, .inl (heq.trans hid)⟩
    dsimp only
    rw [Disk.text_write?_of_ne h hother]
    cases htext : d.text (FilePath.inside folder script) with
    | error cause => rfl
    | ok text =>
      let e := scriptEntry d (FilePath.inside folder script) text
      have hfiles : ∀ file ∈ e.lookups,
          (d'.tree (FilePath.folder (FilePath.inside folder script))).files.get? file =
            e.tree.files.get? file := fun file hfile =>
        Disk.get?_tree_write?_of_ne h fun heq =>
          hasks _ hid ⟨script, hscript, .inr ⟨text, htext, file, hfile, heq.trans hid⟩⟩
      refine congrArg Except.ok (Entry.resolve_congr (e := e) (fun file hfile => ?_)
        fun file hfile => ?_)
      · rw [FileTree.contains_eq_isSome, FileTree.contains_eq_isSome, hfiles file hfile]
      · have hlooked := List.mem_cons_of_mem e.id (e.reads_subset_importLookups hfile)
        rw [FileTree.text, FileTree.text, hfiles file hlooked]

end Scenario

end PixelScene
