import PixelScene.Import.Path
import PixelScene.Script.Statement

/-!
# Resolving imports

The imports of a script are followed depth first, each file at most once in a whole resolution: a
file that is reached a second time, through a cycle or by another way, adds nothing. The definitions
of a file are folded into the file that imports it, together with what the file imports itself
(`ImportResolver`, with `resolve` and `resolve_text`).

Every file that is entered was in the project and not entered before, so the number of files not yet
entered bounds the recursion.

* `FileTree.find?`: the file that an import statement means.
* `resolve`: the merged script, and every problem met on the way.
* A `Walk` also keeps the files that were asked for their text and the texts that were parsed, in
  order. The engine keeps neither; they make its calls visible to statements about them.

A project is a finite map from paths to contents. Reading a file that is in it fails only where its
content is no text, as on a disk; a project held in memory has texts only.
-/

namespace PixelScene

/-! ## Projects -/

/-- The files of a project by path: the text of each, or why it cannot be read. -/
structure FileTree where
  files : Dictionary (Except String String)

namespace FileTree

/-- The project without files. -/
def empty : FileTree := ⟨∅⟩

/-- A project with one more file; a path from the root may start with `/`. -/
def insert (tree : FileTree) (id text : String) : FileTree :=
  ⟨tree.files.insert (String.ofList (id.toList.dropWhile (· == '/'))) (.ok text)⟩

/-- The project of some texts. -/
def ofTexts (texts : List (String × String)) : FileTree :=
  texts.foldl (fun t f => t.insert f.1 f.2) empty

/-- Whether there is a file at a path. -/
def contains (tree : FileTree) (id : String) : Bool := tree.files.keys.contains id

/-- The file that an import path means in the file `current`. -/
def find? (tree : FileTree) (current path : String) : Option FileRef := do
  let joined ← joinPath? current.toList path.toList
  let id ← ((candidates joined).map String.ofList).find? tree.contains
  return FileRef.ofId id

/-- The text of a file. -/
def text (tree : FileTree) (id : String) : Except String String :=
  match tree.files.get? id with
  | some contents => contents
  | none => .error s!"file '{id}' is not in the project"

/-- How many files have not been entered. -/
def unentered (tree : FileTree) (entered : List String) : Nat :=
  (tree.files.keys.filter fun id => !entered.contains id).length

/-- The file that an import means is in the project. -/
theorem contains_of_find? {tree : FileTree} {current path : String} {f : FileRef}
    (h : tree.find? current path = some f) : f.id ∈ tree.files.keys := by
  simp only [find?, Option.bind_eq_bind, Option.bind_eq_some_iff, Option.pure_def,
    Option.some.injEq] at h
  obtain ⟨_, _, id, hid, rfl⟩ := h
  have := List.find?_some hid
  simpa [contains, FileRef.ofId] using this

/-- The more files are entered, the fewer are left. -/
theorem unentered_anti {tree : FileTree} {entered entered' : List String}
    (h : ∀ id ∈ entered, id ∈ entered') : tree.unentered entered' ≤ tree.unentered entered := by
  unfold unentered
  simp only [← List.countP_eq_length_filter]
  refine List.countP_mono_left fun id _ hid => ?_
  simp only [Bool.not_eq_true', List.contains_eq_mem, decide_eq_false_iff_not] at hid ⊢
  exact fun hmem => hid (h id hmem)

/-- Entering a file of the project for the first time lowers the number of those that are left. -/
theorem unentered_append_lt {tree : FileTree} {entered : List String} {id : String}
    (hid : id ∈ tree.files.keys) (hnew : id ∉ entered) :
    tree.unentered (entered ++ [id]) < tree.unentered entered := by
  have hleft : (tree.files.keys.filter fun x => !(entered ++ [id]).contains x) =
      (tree.files.keys.filter fun x => !entered.contains x).filter (· != id) := by
    rw [List.filter_filter]
    refine List.filter_congr fun x _ => ?_
    by_cases hx : x = id <;> simp [hx]
  unfold unentered
  rw [hleft, List.length_filter_lt_length_iff_exists]
  exact ⟨id, List.mem_filter.mpr ⟨hid, by simpa using hnew⟩, by simp⟩

end FileTree

/-! ## Problems -/

/-- What can go wrong with an import. -/
inductive ImportFault where
  | badScript (file : String) (e : ScriptError)
  | notFound (path : String)
  | notScript (path : String)
  | unreadable (file cause : String)

/-- The wording of a problem. -/
def ImportFault.message : ImportFault → String
  | badScript file e => s!"Parse error in {file}: {e.message}"
  | notFound path => s!"Import not found: \"{path}\""
  | notScript path => s!"{path} is not a script file"
  | unreadable file cause => s!"Failed to read {file}: {cause}"

/-! ## The walk -/

/-- The files entered so far, those whose text was asked for and those whose text was parsed, each
in order, and the problems met. -/
structure Walk where
  entered : List String
  reads : List String
  parses : List String
  faults : List ImportFault

namespace Walk

/-- The walk that has come no further than the entry file. -/
def start (id : String) : Walk := ⟨[id], [], [], []⟩

/-- Notes a problem. -/
def note (w : Walk) (fault : ImportFault) : Walk := { w with faults := w.faults ++ [fault] }

/-- Enters a file. -/
def enter (w : Walk) (id : String) : Walk := { w with entered := w.entered ++ [id] }

/-- Asks the project for the text of a file. -/
def read (w : Walk) (tree : FileTree) (id : String) : Except String String × Walk :=
  (tree.text id, { w with reads := w.reads ++ [id] })

/-- Parses the text of a file. -/
def parse (w : Walk) (text id : String) : Except ScriptError Script × Walk :=
  (Script.parse text.toList, { w with parses := w.parses ++ [id] })

end Walk

/-- What an import statement leads to. -/
inductive ImportTarget (tree : FileTree) (w : Walk) where
  | fault (f : ImportFault)
  | known
  | fresh (f : FileRef) (isFile : f.id ∈ tree.files.keys) (isNew : f.id ∉ w.entered)

/-- What an import statement of the file `current` leads to. -/
def importTarget (tree : FileTree) (w : Walk) (current path : String) : ImportTarget tree w :=
  match h : tree.find? current path with
  | none => .fault (.notFound path)
  | some f =>
    if f.kind ≠ .script then .fault (.notScript path)
    else if hnew : f.id ∈ w.entered then .known
    else .fresh f (FileTree.contains_of_find? h) hnew

/-- A script and a walk that left no more files unentered than there were. -/
abbrev Walked (tree : FileTree) (w : Walk) :=
  { r : Script × Walk // tree.unentered r.2.entered ≤ tree.unentered w.entered }

mutual

/-- The script of a file with everything that it imports. -/
def resolveFile (tree : FileTree) (text id name : String) (w : Walk) : Walked tree w :=
  let parsing := w.parse text id
  match parsing.1 with
  | .error e => ⟨(Script.empty, parsing.2.note (.badScript name e)), Nat.le_refl _⟩
  | .ok script => resolveImports tree id script script.imports parsing.2
termination_by (tree.unentered w.entered, 1, 0)
decreasing_by exact Prod.Lex.right _ (Prod.Lex.left _ _ Nat.zero_lt_one)

/-- A script with what the import paths of its file lead to. -/
def resolveImports (tree : FileTree) (id : String) (script : Script) (paths : List String)
    (w : Walk) : Walked tree w :=
  match paths with
  | [] => ⟨(script, w), Nat.le_refl _⟩
  | path :: more =>
    match importTarget tree w id path with
    | .fault f =>
      let ⟨r, h⟩ := resolveImports tree id script more (w.note f)
      ⟨r, h⟩
    | .known => resolveImports tree id script more w
    | .fresh f isFile isNew =>
      let reading := (w.enter f.id).read tree f.id
      have hlt : tree.unentered reading.2.entered < tree.unentered w.entered :=
        FileTree.unentered_append_lt isFile isNew
      match reading.1 with
      | .error cause =>
        let ⟨r, h⟩ := resolveImports tree id script more (reading.2.note (.unreadable f.name cause))
        ⟨r, Nat.le_trans h (Nat.le_of_lt hlt)⟩
      | .ok text =>
        let ⟨(imported, w'), h'⟩ := resolveFile tree text f.id f.name reading.2
        have hlt' : tree.unentered w'.entered < tree.unentered w.entered :=
          Nat.lt_of_le_of_lt h' hlt
        let ⟨r, h⟩ := resolveImports tree id (script.absorb imported) more w'
        ⟨r, Nat.le_trans h (Nat.le_of_lt hlt')⟩
termination_by (tree.unentered w.entered, 0, paths.length)
decreasing_by
  · exact Prod.Lex.right _ (Prod.Lex.right _ (Nat.lt_succ_self _))
  · exact Prod.Lex.right _ (Prod.Lex.right _ (Nat.lt_succ_self _))
  · exact Prod.Lex.left _ _ hlt
  · exact Prod.Lex.left _ _ hlt
  · exact Prod.Lex.left _ _ hlt'

end

/-! ## Resolutions -/

/-- A merged script, and the walk that led to it. -/
structure Resolution extends Walk where
  script : Script

namespace Resolution

/-- The wordings of the problems. -/
def errors (r : Resolution) : List String := r.faults.map ImportFault.message

/-- Whether there were no problems. -/
def isClean (r : Resolution) : Bool := r.faults.isEmpty

end Resolution

/-- What the entry file is called in the wording of a problem. -/
def FileTree.entryName (tree : FileTree) (id : String) : String :=
  if tree.contains id then (FileRef.ofId id).name else id

/-- The script of an entry text with everything that it imports. -/
def resolve (tree : FileTree) (text id : String) : Resolution :=
  let r := resolveFile tree text id (tree.entryName id) (Walk.start id)
  ⟨r.1.2, r.1.1⟩

end PixelScene
