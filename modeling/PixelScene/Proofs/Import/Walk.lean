import PixelScene.Proofs.Import.Merging

/-!
# The walk over the imports

`Follows` says what the walk over the import lines of a file does, one constructor for each thing
that a line can lead to. The resolver follows it (`follows_resolveImports`,
`Entry.follows_resolution`), so what holds of every walk is proved by induction on `Follows`.

A line leads nowhere, to a file that is no script, to one that was entered before, to one that cannot
be read, or to one that is parsed and walked in its turn (`resolve_text`). The constructors have these
cases in the words of the model, with the problem that each of them notes. A file that cannot be
parsed has no lines, so its walk is over at once. Everything that the engine remembers during a
resolution is in the `Walk`: there is no other state that a line could depend on.
-/

namespace PixelScene

/-! ## One line -/

section Line

variable {tree : FileTree} {w : Walk} {file path : String}

theorem scriptFile?_of_fault {fault : ImportFault}
    (h : importTarget tree w file path = .fault fault) : tree.scriptFile? file path = none := by
  unfold importTarget at h
  unfold FileTree.scriptFile?
  split at h
  · rename_i hfind
    rw [hfind]
  · rename_i f hfind
    split at h
    · rename_i hkind
      rw [hfind]
      exact if_neg hkind
    · split at h <;> exact absurd h nofun

theorem scriptFile?_of_known (h : importTarget tree w file path = .known) :
    ∃ target, tree.scriptFile? file path = some target ∧ target ∈ w.entered := by
  unfold importTarget at h
  split at h
  · exact absurd h nofun
  · rename_i f hfind
    split at h
    · exact absurd h nofun
    · rename_i hkind
      split at h
      · rename_i hknown
        exact ⟨f.id, FileTree.scriptFile?_eq_some_iff.mpr ⟨f, hfind, not_not.mp hkind, rfl⟩, hknown⟩
      · exact absurd h nofun

theorem scriptFile?_of_fresh {f : FileRef} {isFile : f.id ∈ tree.files.keys}
    {isNew : f.id ∉ w.entered} (h : importTarget tree w file path = .fresh f isFile isNew) :
    tree.scriptFile? file path = some f.id := by
  unfold importTarget at h
  split at h
  · exact absurd h nofun
  · rename_i g hfind
    split at h
    · exact absurd h nofun
    · rename_i hkind
      split at h
      · exact absurd h nofun
      · obtain rfl : g = f := (ImportTarget.fresh.inj h)
        exact FileTree.scriptFile?_eq_some_iff.mpr ⟨g, hfind, not_not.mp hkind, rfl⟩

end Line

/-! ## One file -/

/-- Parses a file that was read, and tells what it declares itself. -/
def parseFile (w : Walk) (text id name : String) : Script × Walk :=
  let parsing := w.parse text id
  match parsing.1 with
  | .error e => (Script.empty, parsing.2.note (.badScript name e))
  | .ok script => (script, parsing.2)

/-- Enters a file, and tells what it declares itself. -/
def enterFile (tree : FileTree) (w : Walk) (f : FileRef) : Script × Walk :=
  let reading := (w.enter f.id).read tree f.id
  match reading.1 with
  | .error cause => (Script.empty, reading.2.note (.unreadable f.name cause))
  | .ok text => parseFile reading.2 text f.id f.name

@[simp] theorem entered_parseFile (w : Walk) (text id name : String) :
    (parseFile w text id name).2.entered = w.entered := by
  unfold parseFile
  simp only
  split <;> rfl

@[simp] theorem entered_enterFile (tree : FileTree) (w : Walk) (f : FileRef) :
    (enterFile tree w f).2.entered = w.entered ++ [f.id] := by
  unfold enterFile
  simp only
  split
  · rfl
  · rw [entered_parseFile]
    rfl

theorem nodup_entered_enterFile (tree : FileTree) {w : Walk} {f : FileRef} (hw : w.entered.Nodup)
    (isNew : f.id ∉ w.entered) : (enterFile tree w f).2.entered.Nodup := by
  rw [entered_enterFile, List.nodup_append]
  refine ⟨hw, List.nodup_singleton f.id, fun x hx y hy hxy => isNew ?_⟩
  rw [← List.mem_singleton.mp hy, ← hxy]
  exact hx

theorem unentered_enterFile_lt {tree : FileTree} {w : Walk} {f : FileRef}
    (isFile : f.id ∈ tree.files.keys) (isNew : f.id ∉ w.entered) :
    tree.unentered (enterFile tree w f).2.entered < tree.unentered w.entered := by
  rw [entered_enterFile]
  exact FileTree.unentered_append_lt isFile isNew

theorem resolveImports_nil (tree : FileTree) (file : String) (s : Script) (w : Walk) :
    (resolveImports tree file s [] w).1 = (s, w) := by rw [resolveImports]

/-- The imports of a file are followed from what the file declares itself. -/
theorem resolveFile_eq (tree : FileTree) (text id name : String) (w : Walk) :
    (resolveFile tree text id name w).1 =
      (resolveImports tree id (parseFile w text id name).1 (parseFile w text id name).1.imports
        (parseFile w text id name).2).1 := by
  rw [resolveFile]
  split
  · rename_i e hparse
    have hown : parseFile w text id name =
        (Script.empty, (w.parse text id).2.note (.badScript name e)) := by
      simp only [parseFile, hparse]
    rw [hown]
    exact (resolveImports_nil tree id Script.empty _).symm
  · rename_i script hparse
    have hown : parseFile w text id name = (script, (w.parse text id).2) := by
      simp only [parseFile, hparse]
    rw [hown]

/-- A script that imports nothing is resolved by parsing it. -/
theorem resolve_of_parse {tree : FileTree} {text id : String} {script : Script}
    (hparse : Script.parse text.toList = .ok script) (himports : script.imports = []) :
    resolve tree text id = ⟨⟨[id], [], [id], []⟩, script⟩ := by
  have hfile := resolveFile_eq tree text id (tree.entryName id) (Walk.start id)
  have hown : parseFile (Walk.start id) text id (tree.entryName id) =
      (script, ⟨[id], [], [id], []⟩) := by
    simp only [parseFile, Walk.parse, hparse]
    rfl
  rw [hown, himports, resolveImports_nil] at hfile
  rw [resolve, hfile]

/-- A script that cannot be parsed is reported under the name of the entry. -/
theorem resolve_of_parse_error {tree : FileTree} {text id : String} {fault : ScriptError}
    (hparse : Script.parse text.toList = .error fault) :
    resolve tree text id =
      ⟨⟨[id], [], [id], [.badScript (tree.entryName id) fault]⟩, Script.empty⟩ := by
  have hfile := resolveFile_eq tree text id (tree.entryName id) (Walk.start id)
  have hown : parseFile (Walk.start id) text id (tree.entryName id) =
      (Script.empty, ⟨[id], [], [id], [.badScript (tree.entryName id) fault]⟩) := by
    simp only [parseFile, Walk.parse, hparse]
    rfl
  rw [hown] at hfile
  rw [resolve, hfile, show Script.empty.imports = [] from rfl, resolveImports_nil]

/-- A file that is entered goes into its importer with everything that it imports. -/
theorem resolveImports_fresh {tree : FileTree} {w : Walk} {file path : String} {f : FileRef}
    {isFile : f.id ∈ tree.files.keys} {isNew : f.id ∉ w.entered}
    (target : importTarget tree w file path = .fresh f isFile isNew) (s : Script)
    (more : List String) :
    let own := enterFile tree w f
    let imported := (resolveImports tree f.id own.1 own.1.imports own.2).1
    (resolveImports tree file s (path :: more) w).1 =
      (resolveImports tree file (s.absorb imported.1) more imported.2).1 := by
  simp only
  rw [resolveImports, target]
  simp only
  split
  · rename_i cause hread
    have hown : enterFile tree w f = (Script.empty,
        ((w.enter f.id).read tree f.id).2.note (.unreadable f.name cause)) := by
      simp only [enterFile, hread]
    rw [hown, show Script.empty.imports = [] from rfl, resolveImports_nil, Script.absorb_empty]
  · rename_i text hread
    have hown : enterFile tree w f =
        parseFile ((w.enter f.id).read tree f.id).2 text f.id f.name := by
      simp only [enterFile, hread]
    rw [hown, ← resolveFile_eq]

/-! ## One file of an entry -/

namespace Entry

variable {e : Entry} {w : Walk}

theorem parseFile_fst (w : Walk) (text id name : String) :
    (parseFile w text id name).1 = (Script.parse text.toList).toOption.getD Script.empty := by
  unfold parseFile Walk.parse
  cases Script.parse text.toList <;> rfl

theorem script_self (e : Entry) :
    e.script e.id = (Script.parse e.text.toList).toOption.getD Script.empty := by
  simp only [script, parsed?, Script.ofContents?, textOf, if_true]

theorem textOf_of_new (hid : e.id ∈ w.entered) {file : String} (hnew : file ∉ w.entered) :
    e.textOf file = e.tree.text file := by
  have hne : file ≠ e.id := fun h => hnew (h ▸ hid)
  exact if_neg hne

theorem enterFile_fst (hid : e.id ∈ w.entered) {f : FileRef} (hnew : f.id ∉ w.entered) :
    (enterFile e.tree w f).1 = e.script f.id := by
  simp only [enterFile, Walk.read, script, parsed?, Script.ofContents?, textOf_of_new hid hnew]
  cases e.tree.text f.id with
  | error cause => rfl
  | ok text => exact parseFile_fst _ text f.id f.name

theorem id_mem_enterFile (hid : e.id ∈ w.entered) (f : FileRef) :
    e.id ∈ (enterFile e.tree w f).2.entered := by
  rw [entered_enterFile]
  exact List.mem_append_left _ hid

end Entry

/-! ## The walk -/

/-- The walk over the import lines of `file` leads from one script and walk to another, and enters
the files `new`. -/
inductive Follows (e : Entry) : (file : String) → (paths : List String) →
    Script → Walk → (new : List String) → Script → Walk → Prop where
  | done {file : String} {s : Script} {w : Walk} : Follows e file [] s w [] s w
  | fault {file path : String} {more new : List String} {s s' : Script} {w w' : Walk}
      {fault : ImportFault} (target : importTarget e.tree w file path = .fault fault)
      (rest : Follows e file more s (w.note fault) new s' w') :
      Follows e file (path :: more) s w new s' w'
  | known {file path : String} {more new : List String} {s s' : Script} {w w' : Walk}
      (target : importTarget e.tree w file path = .known)
      (rest : Follows e file more s w new s' w') : Follows e file (path :: more) s w new s' w'
  | fresh {file path : String} {more below after : List String} {s imported s' : Script}
      {w v w' : Walk} {f : FileRef} {isFile : f.id ∈ e.tree.files.keys} {isNew : f.id ∉ w.entered}
      (target : importTarget e.tree w file path = .fresh f isFile isNew)
      (hid : e.id ∈ w.entered)
      (inner : Follows e f.id (e.script f.id).imports (e.script f.id) (enterFile e.tree w f).2
        below imported v)
      (rest : Follows e file more (s.absorb imported) v after s' w') :
      Follows e file (path :: more) s w (f.id :: below ++ after) s' w'

namespace Follows

variable {e : Entry} {file : String} {paths new : List String} {s s' : Script} {w w' : Walk}

/-- What noting a problem and entering a new file keep holds at the end of a walk. -/
theorem invariant {P : Walk → Prop} (hnote : ∀ w fault, P w → P (w.note fault))
    (henter : ∀ w f, f.id ∈ e.tree.files.keys → f.id ∉ w.entered → P w →
      P (enterFile e.tree w f).2)
    (h : Follows e file paths s w new s' w') (hw : P w) : P w' := by
  induction h with
  | done => exact hw
  | fault _ _ ih => exact ih (hnote _ _ hw)
  | known _ _ ih => exact ih hw
  | @fresh _ _ _ _ _ _ _ _ w _ _ f isFile isNew _ _ _ _ ihinner ihrest =>
    exact ihrest (ihinner (henter w f isFile isNew hw))

/-- A walk enters the files `new`, in this order. -/
theorem entered_eq (h : Follows e file paths s w new s' w') : w'.entered = w.entered ++ new := by
  induction h with
  | done => exact (List.append_nil _).symm
  | fault _ _ ih => exact ih
  | known _ _ ih => exact ih
  | fresh _ _ _ _ ihinner ihrest =>
    rw [ihrest, ihinner, entered_enterFile]
    simp only [List.append_assoc, List.cons_append, List.nil_append]

theorem entered_subset (h : Follows e file paths s w new s' w') :
    ∀ x ∈ w.entered, x ∈ w'.entered := by
  rw [h.entered_eq]
  exact fun x hx => List.mem_append_left new hx

theorem nodup_entered (h : Follows e file paths s w new s' w') (hw : w.entered.Nodup) :
    w'.entered.Nodup := by
  exact h.invariant (P := fun v => v.entered.Nodup) (fun v _ hv => hv)
    (fun v f _ isNew hv => nodup_entered_enterFile e.tree hv isNew) hw

/-- A walk merges some of what its lines lead to. -/
theorem merges (h : Follows e file paths s w new s' w') :
    Merges e (fun _ _ => True) file paths s new s' := by
  induction h with
  | done => exact .done
  | fault _ _ ih => exact .skip trivial ih
  | known _ _ ih => exact .skip trivial ih
  | fresh target _ _ _ ihinner ihrest => exact .merge (scriptFile?_of_fresh target) ihinner ihrest

end Follows

/-- **The resolver follows import lines.** -/
theorem follows_resolveImports {e : Entry} (file : String) (s : Script) (paths : List String)
    (w : Walk) (hid : e.id ∈ w.entered) :
    ∃ new, Follows e file paths s w new (resolveImports e.tree file s paths w).1.1
      (resolveImports e.tree file s paths w).1.2 := by
  match paths with
  | [] =>
    rw [resolveImports_nil]
    exact ⟨_, .done⟩
  | path :: more =>
    match target : importTarget e.tree w file path with
    | .fault fault =>
      obtain ⟨_, h⟩ := follows_resolveImports file s more (w.note fault) hid
      rw [resolveImports, target]
      exact ⟨_, .fault target h⟩
    | .known =>
      obtain ⟨_, h⟩ := follows_resolveImports file s more w hid
      rw [resolveImports, target]
      exact ⟨_, .known target h⟩
    | .fresh f isFile isNew =>
      have hid' := Entry.id_mem_enterFile hid f
      obtain ⟨_, hinner⟩ := follows_resolveImports f.id (e.script f.id) (e.script f.id).imports
        (enterFile e.tree w f).2 hid'
      obtain ⟨_, hrest⟩ := follows_resolveImports file _ more _ (hinner.entered_subset _ hid')
      rw [resolveImports_fresh target, Entry.enterFile_fst hid isNew]
      exact ⟨_, .fresh target hid hinner hrest⟩
termination_by (e.tree.unentered w.entered, paths.length)
decreasing_by
  · exact Prod.Lex.right _ (Nat.lt_succ_self _)
  · exact Prod.Lex.right _ (Nat.lt_succ_self _)
  · exact Prod.Lex.left _ _ (unentered_enterFile_lt isFile isNew)
  · exact Prod.Lex.left _ _ (Nat.lt_of_le_of_lt
      (resolveImports e.tree f.id _ _ (enterFile e.tree w f).2).2
      (unentered_enterFile_lt isFile isNew))

/-! ## The walk from an entry -/

namespace Entry

variable (e : Entry)

/-- The resolution of everything that the entry imports. -/
def resolution : Resolution := resolve e.tree e.text e.id

/-- The walk once the entry is parsed. -/
def start : Walk :=
  (parseFile (Walk.start e.id) e.text e.id (e.tree.entryName e.id)).2

@[simp] theorem entered_start : e.start.entered = [e.id] := entered_parseFile _ _ _ _

/-- A resolution follows the import lines of the entry. -/
theorem follows_resolution : ∃ new, e.resolution.entered = e.id :: new ∧
    Follows e e.id (e.script e.id).imports (e.script e.id) e.start new e.resolution.script
      e.resolution.toWalk := by
  have hid : e.id ∈ e.start.entered := by simp
  obtain ⟨new, h⟩ := follows_resolveImports e.id (e.script e.id) (e.script e.id).imports e.start hid
  rw [script_self, ← parseFile_fst (Walk.start e.id) e.text e.id (e.tree.entryName e.id)] at h ⊢
  unfold start at h ⊢
  rw [← resolveFile_eq] at h
  refine ⟨new, h.entered_eq.trans ?_, h⟩
  rw [entered_parseFile]
  rfl

end Entry

end PixelScene
