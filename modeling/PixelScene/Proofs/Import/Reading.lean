import PixelScene.Proofs.Import.Walk

/-!
# Every file is read once

The resolver recurses into what a file says, so no measure of the text ends it. What ends it is that
a file is entered once and that the project has only so many files.

* `resolveWithin` is the same recursion with nothing but a bound on how deep imports may nest.
  `Follows.foldlM_eq`: it gets through a walk when the bound covers the files not yet entered.
* `Follows.readsEntered`: a walk reads just the files that it enters, each of them when it is
  entered.
* `resolve_reads_once`: a resolution ends within the number of files, and reads no file twice and
  the entry never.

Neither the text nor the number of import lines bounds a resolution, since a cycle of two files has
an unending way through it. The set of visited files is what makes it end, and the number of files
in the project is the bound. The entry is in that set from the start, so an import that leads back
to it is passed over without a read.
-/

namespace PixelScene

/-! ## The depth of imports -/

/-- One import line of `file`, given what becomes of a file that was just entered. -/
def followLine (tree : FileTree) (inner : String → Script × Walk → Option (Script × Walk))
    (file : String) (r : Script × Walk) (path : String) : Option (Script × Walk) :=
  match importTarget tree r.2 file path with
  | .fault fault => some (r.1, r.2.note fault)
  | .known => some r
  | .fresh f _ _ => (inner f.id (enterFile tree r.2 f)).map fun imported =>
      (r.1.absorb imported.1, imported.2)

/-- What becomes of a file that was just entered, given what it declares itself and the walk so far,
or nothing if imports nest `depth` deep. -/
def resolveWithin (tree : FileTree) : (depth : Nat) → (file : String) → (own : Script × Walk) →
    Option (Script × Walk)
  | 0, _, _ => none
  | depth + 1, file, own =>
    own.1.imports.foldlM (followLine tree (resolveWithin tree depth) file) own

variable {e : Entry} {file : String} {paths new : List String} {s s' : Script} {w w' : Walk}

/-- A bound that covers the files not yet entered lets the recursion through. -/
theorem Follows.foldlM_eq (h : Follows e file paths s w new s' w') (depth : Nat)
    (hdepth : e.tree.unentered w.entered ≤ depth) :
    paths.foldlM (followLine e.tree (resolveWithin e.tree depth) file) (s, w) = some (s', w') := by
  induction h generalizing depth with
  | done => rfl
  | fault target _ ih =>
    rw [List.foldlM_cons, followLine, target]
    exact ih depth hdepth
  | known target _ ih =>
    rw [List.foldlM_cons, followLine, target]
    exact ih depth hdepth
  | @fresh file path more _ _ s imported s' w v w' f isFile isNew target hid inner _ ihinner
      ihrest =>
    have hlt := unentered_enterFile_lt isFile isNew
    have hrest : e.tree.unentered v.entered ≤ depth :=
      Nat.le_trans (FileTree.unentered_anti inner.entered_subset) (by omega)
    obtain ⟨d, rfl⟩ : ∃ d, depth = d + 1 := ⟨depth - 1, by omega⟩
    have hown : enterFile e.tree w f = (e.script f.id, (enterFile e.tree w f).2) :=
      Prod.ext (Entry.enterFile_fst hid isNew) rfl
    rw [List.foldlM_cons, followLine, target]
    simp only [resolveWithin]
    rw [hown, ihinner d (by omega)]
    exact ihrest (d + 1) hrest

/-! ## What is read -/

theorem reads_parseFile (w : Walk) (text id name : String) :
    (parseFile w text id name).2.reads = w.reads := by
  unfold parseFile
  simp only
  split <;> rfl

theorem reads_enterFile (tree : FileTree) (w : Walk) (f : FileRef) :
    (enterFile tree w f).2.reads = w.reads ++ [f.id] := by
  unfold enterFile
  simp only
  split
  · rfl
  · rw [reads_parseFile]
    rfl

/-- The files read are those entered after the entry, and the project has all of them. -/
structure Walk.ReadsEntered (w : Walk) (tree : FileTree) (id : String) : Prop where
  entered : w.entered = id :: w.reads
  files : ∀ file ∈ w.reads, file ∈ tree.files.keys

theorem Follows.readsEntered (h : Follows e file paths s w new s' w')
    (hw : w.ReadsEntered e.tree e.id) : w'.ReadsEntered e.tree e.id := by
  refine h.invariant (P := fun v => v.ReadsEntered e.tree e.id)
    (fun v _ hv => ⟨hv.entered, hv.files⟩) (fun v f isFile _ hv => ⟨?_, fun x hx => ?_⟩) hw
  · rw [entered_enterFile, reads_enterFile, hv.entered, List.cons_append]
  · rw [reads_enterFile] at hx
    rcases List.mem_append.mp hx with hx | hx
    · exact hv.files x hx
    · rw [List.mem_singleton.mp hx]
      exact isFile

theorem Entry.readsEntered_start (e : Entry) : e.start.ReadsEntered e.tree e.id := by
  have hreads : e.start.reads = [] := reads_parseFile _ _ _ _
  refine ⟨?_, fun x hx => ?_⟩
  · rw [e.entered_start, hreads]
  · rw [hreads] at hx
    exact absurd hx List.not_mem_nil

/-- **A resolution ends, and reads no file twice.** Imports nest no deeper than the project has
files, so the recursion gets through with this bound or any above it. What is read is in the
project, no file is read twice, and the entry is not read at all. -/
theorem resolve_reads_once (e : Entry) :
    let r := resolve e.tree e.text e.id
    (∀ depth > e.tree.files.keys.length,
      resolveWithin e.tree depth e.id (e.script e.id, e.start) = some (r.script, r.toWalk)) ∧
      (∀ file ∈ r.reads, file ∈ e.tree.files.keys) ∧ r.reads.Nodup ∧ e.id ∉ r.reads := by
  obtain ⟨_, -, hfollows⟩ := e.follows_resolution
  have hreads := hfollows.readsEntered e.readsEntered_start
  have hnodup := hfollows.nodup_entered (by simp)
  rw [hreads.entered, List.nodup_cons] at hnodup
  refine ⟨fun depth hdepth => ?_, hreads.files, hnodup.2, hnodup.1⟩
  obtain ⟨d, rfl⟩ : ∃ d, depth = d + 1 := ⟨depth - 1, by omega⟩
  refine hfollows.foldlM_eq d (Nat.le_trans (List.length_filter_le _ _) ?_)
  omega

end PixelScene
