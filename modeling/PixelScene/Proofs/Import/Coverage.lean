import PixelScene.Proofs.Import.Walk

/-!
# Nothing is missed

One list of entered files and one list of problems serve all branches of a resolution. A line that
is passed over must lead to a file that was entered on another branch.

* `Entry.mem_entered_iff`: the files entered are those that import lines lead to from the entry.
* `Entry.parses_eq`: the files parsed are those entered that can be read.
* `Follows.faults_eq_nil_iff`: a walk notes no problem just when its lines and the files that it
  enters have none.
* `resolve_covers`: in a project of texts, the files parsed are the reachable ones, and a clean
  resolution means that none of them has a problem.

The statement is about projects held in memory, in which every file can be read. Reachability is
over import lines of parsed files, so a file whose text makes no sense imports nothing. A clean
result is what the inspector and the rehearser rely on when they report that a script has no
problem.
-/

namespace PixelScene

variable {e : Entry} {file : String} {paths new : List String} {s s' : Script} {w w' : Walk}

/-! ## What is entered -/

/-- The script files that the lines of a walk lead to are entered at its end. -/
theorem Follows.mem_of_line (h : Follows e file paths s w new s' w') {path target : String}
    (hpath : path ∈ paths) (htarget : e.tree.scriptFile? file path = some target) :
    target ∈ w'.entered := by
  induction h with
  | done => exact absurd hpath List.not_mem_nil
  | fault fault _ ih =>
    rcases List.mem_cons.mp hpath with rfl | hpath
    · rw [scriptFile?_of_fault fault] at htarget
      exact absurd htarget nofun
    · exact ih hpath htarget
  | known known rest ih =>
    rcases List.mem_cons.mp hpath with rfl | hpath
    -- entered on another branch, and entered files stay entered
    · obtain ⟨x, hx, hmem⟩ := scriptFile?_of_known known
      obtain rfl := Option.some.inj (hx.symm.trans htarget)
      exact rest.entered_subset x hmem
    · exact ih hpath htarget
  | @fresh _ _ _ _ _ _ _ _ w v _ f _ _ fresh _ inner rest _ ih =>
    rcases List.mem_cons.mp hpath with rfl | hpath
    · obtain rfl := Option.some.inj ((scriptFile?_of_fresh fresh).symm.trans htarget)
      have hf : f.id ∈ (enterFile e.tree w f).2.entered := by
        rw [entered_enterFile]
        exact List.mem_append_right _ (List.mem_singleton_self _)
      exact rest.entered_subset _ (inner.entered_subset _ hf)
    · exact ih hpath htarget

/-- Every import of the files that a walk enters is entered at its end. -/
theorem Follows.imports_closed (h : Follows e file paths s w new s' w') :
    ∀ x ∈ new, ∀ target, e.Imports x target → target ∈ w'.entered := by
  induction h with
  | done => exact fun x hx => absurd hx List.not_mem_nil
  | fault _ _ ih => exact ih
  | known _ _ ih => exact ih
  | fresh _ _ inner rest ihinner ihrest =>
    intro x hx target htarget
    rcases List.mem_append.mp hx with hx | hx
    · refine rest.entered_subset target ?_
      rcases List.mem_cons.mp hx with rfl | hx
      · obtain ⟨path, hpath, hfind⟩ := Entry.imports_iff.mp htarget
        exact inner.mem_of_line hpath hfind
      · exact ihinner x hx target htarget
    · exact ihrest x hx target htarget

/-- **The files entered are the reachable ones.** -/
theorem Entry.mem_entered_iff (e : Entry) (file : String) :
    file ∈ e.resolution.entered ↔ e.Reachable file := by
  obtain ⟨new, hentered, h⟩ := e.follows_resolution
  constructor
  · intro hfile
    rw [hentered] at hfile
    rcases List.mem_cons.mp hfile with rfl | hfile
    · exact .refl
    · exact (h.merges.transGen_of_mem (fun _ hp => hp) file hfile).to_reflTransGen
  · intro hreach
    induction hreach with
    | refl =>
      rw [hentered]
      exact List.mem_cons_self
    | @tail x target _ hedge ih =>
      rw [hentered] at ih
      rcases List.mem_cons.mp ih with rfl | hx
      · obtain ⟨path, hpath, hfind⟩ := Entry.imports_iff.mp hedge
        exact h.mem_of_line hpath hfind
      · exact h.imports_closed x hx target hedge

/-! ## What is parsed -/

/-- Whether the text of a file can be read. -/
def Entry.isReadable (e : Entry) (file : String) : Bool :=
  match e.textOf file with
  | .ok _ => true
  | .error _ => false

theorem parses_parseFile (w : Walk) (text id name : String) :
    (parseFile w text id name).2.parses = w.parses ++ [id] := by
  unfold parseFile
  simp only
  split <;> rfl

theorem parses_enterFile (hid : e.id ∈ w.entered) {f : FileRef} (hnew : f.id ∉ w.entered) :
    (enterFile e.tree w f).2.parses = w.parses ++ [f.id].filter e.isReadable := by
  have htext := Entry.textOf_of_new hid hnew
  unfold enterFile Walk.read
  cases hread : e.tree.text f.id with
  | error cause =>
    have hreadable : e.isReadable f.id = false := by rw [Entry.isReadable, htext, hread]
    rw [List.filter_cons_of_neg (by simp [hreadable]), List.filter_nil, List.append_nil]
    rfl
  | ok text =>
    have hreadable : e.isReadable f.id = true := by rw [Entry.isReadable, htext, hread]
    rw [List.filter_cons_of_pos hreadable, List.filter_nil]
    exact parses_parseFile _ _ _ _

theorem Follows.parses_eq (h : Follows e file paths s w new s' w') :
    w'.parses = w.parses ++ new.filter e.isReadable := by
  induction h with
  | done => exact (List.append_nil _).symm
  | fault _ _ ih => exact ih
  | known _ _ ih => exact ih
  | @fresh _ _ _ below after _ _ _ w v w' f _ isNew _ hid _ _ ihinner ihrest =>
    calc w'.parses
        = (w.parses ++ [f.id].filter e.isReadable ++ below.filter e.isReadable) ++
            after.filter e.isReadable := by rw [ihrest, ihinner, parses_enterFile hid isNew]
      _ = w.parses ++ ([f.id] ++ below ++ after).filter e.isReadable := by
          simp only [List.filter_append, List.append_assoc]

/-- **The files parsed are those entered that can be read.** -/
theorem Entry.parses_eq (e : Entry) :
    e.resolution.parses = e.resolution.entered.filter e.isReadable := by
  obtain ⟨new, hentered, h⟩ := e.follows_resolution
  have hstart : e.start.parses = [e.id] := parses_parseFile _ _ _ _
  have hself : e.isReadable e.id = true := by
    unfold isReadable textOf
    rw [if_pos rfl]
  rw [hentered, h.parses_eq, hstart, List.filter_cons_of_pos hself, List.singleton_append]

/-! ## What is noted -/

/-- A file can be parsed, and each of its import lines means a script file. -/
def Entry.Faultless (e : Entry) (file : String) : Prop :=
  ∃ script, e.parsed? file = some script ∧
    ∀ path ∈ script.imports, ∃ target, e.tree.find? file path = some target ∧ target.kind = .script

theorem Entry.faultless_iff : e.Faultless file ↔ (e.parsed? file).isSome ∧
    ∀ path ∈ (e.script file).imports, (e.tree.scriptFile? file path).isSome := by
  have hline : ∀ path, (e.tree.scriptFile? file path).isSome ↔
      ∃ target, e.tree.find? file path = some target ∧ target.kind = .script := by
    intro path
    rw [Option.isSome_iff_exists]
    constructor
    · rintro ⟨_, h⟩
      obtain ⟨target, hfind, hkind, -⟩ := FileTree.scriptFile?_eq_some_iff.mp h
      exact ⟨target, hfind, hkind⟩
    · rintro ⟨target, hfind, hkind⟩
      exact ⟨target.id, FileTree.scriptFile?_eq_some_iff.mpr ⟨target, hfind, hkind, rfl⟩⟩
  unfold Faultless script
  simp only [hline]
  cases e.parsed? file with
  | none => simp
  | some script => simp

theorem faults_note_ne_nil (w : Walk) (fault : ImportFault) : (w.note fault).faults ≠ [] :=
  List.append_ne_nil_of_right_ne_nil w.faults (List.cons_ne_nil fault [])

theorem faults_parseFile_eq_nil_iff (w : Walk) (text id name : String) :
    (parseFile w text id name).2.faults = [] ↔
      w.faults = [] ∧ (Script.parse text.toList).toOption.isSome := by
  unfold parseFile Walk.parse
  cases Script.parse text.toList with
  | error err =>
    constructor
    · intro h
      exact absurd h (faults_note_ne_nil _ _)
    · rintro ⟨-, h⟩
      exact absurd h nofun
  | ok script => exact ⟨fun h => ⟨h, rfl⟩, fun h => h.1⟩

theorem faults_enterFile_eq_nil_iff (hid : e.id ∈ w.entered) {f : FileRef}
    (hnew : f.id ∉ w.entered) :
    (enterFile e.tree w f).2.faults = [] ↔ w.faults = [] ∧ (e.parsed? f.id).isSome := by
  unfold enterFile Walk.read Entry.parsed? Script.ofContents?
  rw [Entry.textOf_of_new hid hnew]
  cases e.tree.text f.id with
  | error cause =>
    constructor
    · intro h
      exact absurd h (faults_note_ne_nil _ _)
    · rintro ⟨-, h⟩
      exact absurd h nofun
  | ok text => exact faults_parseFile_eq_nil_iff _ text f.id f.name

/-- **A walk notes no problem just when its lines and the files that it enters have none.** -/
theorem Follows.faults_eq_nil_iff (h : Follows e file paths s w new s' w') :
    w'.faults = [] ↔ w.faults = [] ∧
      (∀ path ∈ paths, (e.tree.scriptFile? file path).isSome) ∧ ∀ x ∈ new, e.Faultless x := by
  induction h with
  | done => simp
  | fault target _ ih =>
    rw [ih, List.forall_mem_cons, scriptFile?_of_fault target]
    simp [faults_note_ne_nil]
  | known target _ ih =>
    obtain ⟨x, hx, -⟩ := scriptFile?_of_known target
    rw [ih, List.forall_mem_cons, hx]
    simp
  | @fresh _ _ _ below after _ _ _ _ _ _ f _ isNew target hid _ _ ihinner ihrest =>
    rw [ihrest, ihinner, faults_enterFile_eq_nil_iff hid isNew, List.forall_mem_cons,
      scriptFile?_of_fresh target, List.cons_append, List.forall_mem_cons, List.forall_mem_append,
      Entry.faultless_iff]
    constructor
    · rintro ⟨⟨⟨hw, hparsed⟩, hlines, hbelow⟩, hmore, hafter⟩
      exact ⟨hw, ⟨rfl, hmore⟩, ⟨hparsed, hlines⟩, hbelow, hafter⟩
    · rintro ⟨hw, ⟨-, hmore⟩, ⟨hparsed, hlines⟩, hbelow, hafter⟩
      exact ⟨⟨⟨hw, hparsed⟩, hlines, hbelow⟩, hmore, hafter⟩

/-- **A resolution is clean when none of the reachable files has a problem.** -/
theorem Entry.isClean_iff (e : Entry) :
    e.resolution.isClean = true ↔ ∀ file, e.Reachable file → e.Faultless file := by
  obtain ⟨new, hentered, h⟩ := e.follows_resolution
  have hstart : e.start.faults = [] ↔ (e.parsed? e.id).isSome := by
    unfold start parsed? Script.ofContents? textOf
    rw [faults_parseFile_eq_nil_iff, if_pos rfl]
    exact ⟨fun hparsed => hparsed.2, fun hparsed => ⟨rfl, hparsed⟩⟩
  calc e.resolution.isClean = true
      ↔ e.resolution.faults = [] := List.isEmpty_iff
    _ ↔ e.Faultless e.id ∧ ∀ x ∈ new, e.Faultless x := by
        rw [h.faults_eq_nil_iff, hstart, faultless_iff, and_assoc]
    _ ↔ ∀ file ∈ e.resolution.entered, e.Faultless file := by rw [hentered, List.forall_mem_cons]
    _ ↔ ∀ file, e.Reachable file → e.Faultless file := by simp only [e.mem_entered_iff]

/-! ## Projects of texts -/

/-- Every file of the project can be read. -/
def FileTree.AllTexts (tree : FileTree) : Prop :=
  ∀ id contents, tree.files.get? id = some contents → ∃ text, contents = .ok text

theorem FileTree.AllTexts.insert {tree : FileTree} (h : tree.AllTexts) (id text : String) :
    (tree.insert id text).AllTexts := by
  intro other contents hget
  rw [FileTree.insert, Dictionary.get?_insert] at hget
  split at hget
  · exact ⟨text, (Option.some.inj hget).symm⟩
  · exact h other contents hget

theorem FileTree.allTexts_ofTexts (texts : List (String × String)) :
    (FileTree.ofTexts texts).AllTexts := by
  have hfold : ∀ tree : FileTree, tree.AllTexts →
      (texts.foldl (fun t f => t.insert f.1 f.2) tree).AllTexts := by
    induction texts with
    | nil => exact fun tree h => h
    | cons f more ih => exact fun tree h => ih _ (h.insert f.1 f.2)
  exact hfold FileTree.empty fun id contents hget => absurd hget nofun

theorem FileTree.AllTexts.isReadable (h : e.tree.AllTexts) (hreach : e.Reachable file) :
    e.isReadable file = true := by
  unfold Entry.isReadable Entry.textOf
  -- the entry has its own text; any other file was found in the project by an import line
  rcases hreach.cases_tail with rfl | ⟨x, -, hedge⟩
  · rw [if_pos rfl]
  · obtain ⟨_, -, _, -, hfind⟩ := hedge
    have hkey := FileTree.mem_keys_of_scriptFile? hfind
    obtain ⟨contents, hget⟩ :=
      Option.isSome_iff_exists.mp ((Dictionary.get?_isSome_iff_mem_keys _ _).mpr hkey)
    obtain ⟨text, rfl⟩ := h file contents hget
    by_cases hid : file = e.id
    · rw [if_pos hid]
    · rw [if_neg hid, FileTree.text, hget]

/-- **A resolution covers the reachable files and reports every problem.** In a project of texts,
the files parsed are those that import lines lead to from the entry, and the resolution is clean
just when each of them can be parsed and each of their import lines means a script file. -/
theorem resolve_covers (texts : List (String × String)) (id text : String) :
    let e : Entry := ⟨FileTree.ofTexts texts, id, text⟩
    let r := resolve e.tree e.text e.id
    (∀ file, file ∈ r.parses ↔ e.Reachable file) ∧
      (r.isClean = true ↔ ∀ file, e.Reachable file → e.Faultless file) := by
  intro e r
  refine ⟨fun file => ?_, e.isClean_iff⟩
  have hparses : r.parses = r.entered.filter e.isReadable := e.parses_eq
  rw [hparses, List.mem_filter]
  constructor
  · rintro ⟨hentered, -⟩
    exact (e.mem_entered_iff file).mp hentered
  · intro hreach
    have htexts : e.tree.AllTexts := FileTree.allTexts_ofTexts texts
    exact ⟨(e.mem_entered_iff file).mpr hreach, htexts.isReadable hreach⟩

end PixelScene
