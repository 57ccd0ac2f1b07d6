import PixelScene.Proofs.Import.Graph
import PixelScene.Proofs.Script.Merge

/-!
# Merging along import lines

Resolvers differ in the import lines that they pass over. What they have in common is that the file
of every other line is merged into the file with the line, after its own lines.

* `Merges` is such a merge, and `Merges.mergedFrom` flattens it.
* `Merges.transGen_of_mem`: what is merged is imported, if only indirectly.

Two resolvers are compared later, one with a memory of what it has entered and one without. Both
fold the file of a line into the script of the file with the line (`merge_import`), when the line's
turn has come; what differs is which lines have a turn.
-/

namespace PixelScene

/-- Merging what the import lines of `file` lead to into a script gives another script, and `merged`
are the files that went in. Only lines that `Skips` allows are passed over. -/
inductive Merges (e : Entry) (Skips : (file path : String) → Prop) : (file : String) →
    (paths : List String) → Script → (merged : List String) → Script → Prop where
  | done {file : String} {s : Script} : Merges e Skips file [] s [] s
  | skip {file path : String} {more merged : List String} {s s' : Script}
      (skips : Skips file path) (rest : Merges e Skips file more s merged s') :
      Merges e Skips file (path :: more) s merged s'
  | merge {file path target : String} {more below after : List String} {s imported s' : Script}
      (leads : e.tree.scriptFile? file path = some target)
      (inner : Merges e Skips target (e.script target).imports (e.script target) below imported)
      (rest : Merges e Skips file more (s.absorb imported) after s') :
      Merges e Skips file (path :: more) s (target :: below ++ after) s'

namespace Merges

variable {e : Entry} {Skips : (file path : String) → Prop} {file : String}
  {paths merged : List String} {s s' : Script}

/-- **Nested merges come to the same as one.** -/
theorem mergedFrom (h : Merges e Skips file paths s merged s') {parts : List Script}
    (hs : s.MergedFrom parts) : s'.MergedFrom (parts ++ merged.map e.script) := by
  induction h generalizing parts with
  | done => exact (List.append_nil parts).symm ▸ hs
  | skip _ _ ih => exact ih hs
  | @merge _ _ target _ below _ _ imported _ _ _ _ ihinner ihrest =>
    have himported : imported.MergedFrom ((target :: below).map e.script) :=
      ihinner (.single (e.script target))
    have hafter := ihrest (hs.absorb himported)
    rwa [List.append_assoc, ← List.map_append] at hafter

theorem sameOwn (h : Merges e Skips file paths s merged s') : Script.SameOwn s' s := by
  induction h with
  | done => exact .refl _
  | skip _ _ ih => exact ih
  | merge _ _ _ _ ih => exact ih.of_absorb

theorem transGen_of_mem (h : Merges e Skips file paths s merged s')
    (hpaths : ∀ path ∈ paths, path ∈ (e.script file).imports) :
    ∀ x ∈ merged, Relation.TransGen e.Imports file x := by
  induction h with
  | done => exact fun x hx => absurd hx List.not_mem_nil
  | skip _ _ ih => exact ih fun p hp => hpaths p (List.mem_cons_of_mem _ hp)
  | @merge file path target _ below after _ _ _ leads _ _ ihinner ihrest =>
    have hedge : e.Imports file target :=
      Entry.imports_iff.mpr ⟨path, hpaths path List.mem_cons_self, leads⟩
    intro x hx
    rcases List.mem_append.mp hx with hx | hx
    · rcases List.mem_cons.mp hx with rfl | hx
      · exact .single hedge
      · exact .head hedge (ihinner (fun p hp => hp) x hx)
    · exact ihrest (fun p hp => hpaths p (List.mem_cons_of_mem _ hp)) x hx

end Merges

end PixelScene
