import PixelScene.Cartridge
import PixelScene.Import.Resolve
import PixelScene.Json.Reader

/-!
# Files of a program

The programs see the files beneath a folder as a value. A path is written relative to that folder;
every part of it but the last has to be a folder, also where `.` or `..` follows, and there is no
way out of the folder. Folders are there for the sake of the files in them.

* `Disk.locate?`: the place that a path means.
* `Disk.text`, `Disk.json?`: what a file holds. `Disk.write?`: gives a file new content.
* `Disk.tree`: the files beneath a folder as the project that imports are looked up in (`DiskTree`).

Links, permissions and files that others change meanwhile are left out: what a disk holds is what
was there when the program started, and what the program wrote. A file that cannot be read as text
is told apart from one that is not there, since the messages of the programs do.
-/

namespace PixelScene

/-! ## Paths -/

namespace FilePath

/-- A path without the separators and points at its end. -/
def trimEnd : (reversed : List Char) → List Char
  | '/' :: rest => trimEnd rest
  | '.' :: '/' :: rest => trimEnd rest
  | reversed => reversed.reverse

/-- The folder of a path, empty for a path of one part. -/
def folder (path : String) : String :=
  match Text.cutLast? '/' path.toList with
  | some ([], _) => "/"
  | some (before, _) => String.ofList (trimEnd before.reverse)
  | none => ""

/-- The last part of a path. -/
def name (path : String) : String := String.ofList (lastPart path.toList)

/-- The path of a name in a folder; a name from the root stays as it is. -/
def inside (folder name : String) : String :=
  if folder.isEmpty || name.toList.head? == some '/' then name
  else if folder.toList.getLast? == some '/' then folder ++ name
  else folder ++ "/" ++ name

/-- A name without its last ending; a point in front makes no ending. -/
def stem (name : List Char) : List Char :=
  match Text.cutLast? '.' name with
  | some (c :: cs, _) => c :: cs
  | _ => name

/-- The last ending of a path, if its name has one. -/
def ending? (path : String) : Option String :=
  match Text.cutLast? '.' (lastPart path.toList) with
  | some (_ :: _, ending) => some (String.ofList ending)
  | _ => none

/-- A path with another ending. -/
def withEnding (path ending : String) : String :=
  let name := lastPart path.toList
  String.ofList (path.toList.take (path.toList.length - name.length) ++ stem name
    ++ '.' :: ending.toList)

end FilePath

/-! ## Content -/

/-- What a file holds. -/
inductive Content where
  | bytes (b : ByteArray)
  | picture (p : Picture)
deriving Inhabited

namespace Content

/-- The text of a file; a picture is none. -/
def text? : Content → Option String
  | bytes b => String.fromUTF8? b
  | picture _ => none

/-- A text as content. -/
def ofText (text : String) : Content := bytes text.toUTF8

end Content

/-- Why a file cannot be read. -/
inductive FileFault where
  | missing
  | folder
  | notText
deriving DecidableEq, Repr

/-- The wording of a fault. -/
def FileFault.message : FileFault → String
  | missing => "No such file or directory (os error 2)"
  | folder => "Is a directory (os error 21)"
  | notText => "stream did not contain valid UTF-8"

/-! ## Keys that begin alike -/

theorem lt_of_append_lt {front : List Char} {cs ds : List Char} (h : front ++ cs < front ++ ds) :
    cs < ds := by
  induction front with
  | nil => exact h
  | cons c front ih =>
    rcases List.cons_lt_cons_iff.mp h with hlt | ⟨-, hlt⟩
    · exact absurd hlt (Char.lt_irrefl c)
    · exact ih hlt

/-- The entries whose keys begin with `front`, each under what follows it. -/
def Dictionary.behind {α β : Type} (front : List Char) (f : List Char → α → β)
    (d : Dictionary α) : Dictionary β where
  entries := d.entries.filterMap fun e =>
    (Text.dropFront? front e.1.toList).map fun rest => (String.ofList rest, f rest e.2)
  ascending := by
    rw [List.pairwise_map, List.pairwise_filterMap]
    refine (List.pairwise_map.mp d.ascending).imp fun {e e'} hlt g hg g' hg' => ?_
    obtain ⟨rest, hrest, rfl⟩ := Option.map_eq_some_iff.mp hg
    obtain ⟨rest', hrest', rfl⟩ := Option.map_eq_some_iff.mp hg'
    have hlist : e.1.toList < e'.1.toList := hlt
    rw [Text.dropFront?_eq_some_iff.mp hrest, Text.dropFront?_eq_some_iff.mp hrest'] at hlist
    show (String.ofList rest).toList < (String.ofList rest').toList
    rw [String.toList_ofList, String.toList_ofList]
    exact lt_of_append_lt hlist

/-! ## Disks -/

/-- The files beneath a folder, by their parts with `/` between them. -/
structure Disk where
  files : Dictionary Content

namespace Disk

instance : Inhabited Disk := ⟨⟨∅⟩⟩

/-- What the places of the files beneath a folder begin with. -/
def front (place : List (List Char)) : List Char :=
  if place.isEmpty then [] else joinParts place ++ ['/']

/-- What follows a folder in the place of a file beneath it. -/
def beneath? (place : List (List Char)) (id : String) : Option (List Char) :=
  Text.dropFront? (front place) id.toList

/-- Whether a place is a folder: the outermost one is, and any with a file beneath it. -/
def isFolderAt (d : Disk) (place : List (List Char)) : Bool :=
  place.isEmpty || d.files.keys.any fun id => (beneath? place id).isSome

/-- Follows the parts of a path from a place, whose parts are given last first. -/
def walk? (d : Disk) : (reversed parts : List (List Char)) → Option (List (List Char))
  | reversed, [] => some reversed.reverse
  | reversed, part :: more =>
    if !d.isFolderAt reversed.reverse then none
    else if part = [] ∨ part = ['.'] then d.walk? reversed more
    else if part = ['.', '.'] then
      match reversed with
      | [] => none
      | _ :: parents => d.walk? parents more
    else d.walk? (part :: reversed) more

/-- The place that a path means, whether there is something or not. -/
def locate? (d : Disk) (path : String) : Option (List (List Char)) :=
  match path.toList with
  | [] => none
  | '/' :: _ => none
  | cs => d.walk? [] (Text.splitAt '/' cs)

/-- The file at a place. -/
def fileAt? (d : Disk) (place : List (List Char)) : Option Content :=
  d.files.get? (String.ofList (joinParts place))

/-- The file that a path means. -/
def file? (d : Disk) (path : String) : Option Content := (d.locate? path).bind d.fileAt?

/-- Whether a path means a folder. -/
def isFolder (d : Disk) (path : String) : Bool := (d.locate? path).any d.isFolderAt

/-- Whether a path means a file or a folder. -/
def contains (d : Disk) (path : String) : Bool := (d.file? path).isSome || d.isFolder path

/-- The text of a file. -/
def text (d : Disk) (path : String) : Except FileFault String :=
  match d.file? path with
  | some content =>
    match content.text? with
    | some text => .ok text
    | none => .error .notText
  | none => .error (if d.isFolder path then .folder else .missing)

/-- The JSON value of a file. -/
def json? (d : Disk) (path : String) : Option Json :=
  ((d.file? path).bind Content.text?).bind fun text => Json.parse? text.toList

/-- Gives a file new content, if its folder is there and the path does not mean a folder. -/
def write? (d : Disk) (path : String) (content : Content) : Option Disk := do
  let place ← d.locate? path
  if d.isFolderAt place then none
  else return ⟨d.files.insert (String.ofList (joinParts place)) content⟩

/-- The names of the files right in a folder, ascending. -/
def filesIn (d : Disk) (path : String) : List String :=
  match d.locate? path with
  | some place =>
    (d.files.keys.filterMap (beneath? place)).filter (!·.contains '/') |>.map String.ofList
  | none => []

/-- The text of a file of a project, or why it cannot be read. -/
def projectText (folder : String) (id : List Char) (content : Content) : Except String String :=
  match content.text? with
  | some text => .ok text
  | none =>
    let path := FilePath.inside folder (String.ofList id)
    .error s!"reading script {path}: {FileFault.notText.message}"

/-- The folder of a project; no path at all means the outermost one. -/
def root? (d : Disk) (folder : String) : Option (List (List Char)) :=
  if folder.isEmpty then some [] else d.locate? folder

/-- The files beneath a folder as a project. -/
def tree (d : Disk) (folder : String) : FileTree :=
  match d.root? folder with
  | some place => ⟨d.files.behind (front place) (projectText folder)⟩
  | none => FileTree.empty

end Disk

end PixelScene
