import PixelScene.Text.Blank

/-!
# Paths of files

A file of a project is known by its path from the root of the project, with `/` between the parts.
Import paths are written relative to the importing file, or from the root when they start with `/`.

* `joinPath?` normalizes an import path: empty parts and `.` vanish, `..` takes the part before it
  away, and a path that would leave the root is refused (`join_import_path`).
* `candidates` are the paths that are looked up for it, the second with the ending of scripts.
* `FileKind.ofPath` tells scripts and pictures by the ending of their names.

A path is text and nothing else: whether it names a file is the question of
`PixelScene.Import.Resolve`.
-/

namespace PixelScene

/-! ## Kinds of files -/

/-- What a file holds, as far as its name tells. -/
inductive FileKind where
  | script
  | image
  | other
deriving DecidableEq, Repr

/-- The ending of the names of scripts. -/
def scriptEnding : String := "msc"

/-- The endings of the names of pictures. -/
def imageEndings : List String := ["png", "jpg", "jpeg", "gif", "bmp", "webp"]

namespace FileKind

/-- The kind of a file, by what follows the last point of its path. -/
def ofPath (cs : List Char) : FileKind :=
  match Text.cutLast? '.' cs with
  | none => other
  | some (_, after) =>
    let ending := String.ofList (after.map Char.toLower)
    if ending = scriptEnding then script
    else if imageEndings.contains ending then image
    else other

end FileKind

/-! ## Files -/

/-- A file of a project: its path from the root, the last part of the path, and its kind. -/
structure FileRef where
  id : String
  name : String
  kind : FileKind
deriving DecidableEq, Repr

/-- The last part of a path. -/
def lastPart (cs : List Char) : List Char :=
  match Text.cutLast? '/' cs with
  | some (_, after) => after
  | none => cs

/-- The file at a path. -/
def FileRef.ofId (id : String) : FileRef :=
  ⟨id, String.ofList (lastPart id.toList), FileKind.ofPath id.toList⟩

/-! ## Joining -/

/-- The parts of the directory of a file, without empty ones and points. -/
def directoryParts (current : List Char) : List (List Char) :=
  match Text.cutLast? '/' current with
  | some (directory, _) => (Text.splitAt '/' directory).filter fun p => p ≠ [] ∧ p ≠ ['.']
  | none => []

/-- Follows the parts of a path from a directory, whose parts are given last first. -/
def walk? : (reversed parts : List (List Char)) → Option (List (List Char))
  | reversed, [] => some reversed
  | reversed, part :: more =>
    if part = [] ∨ part = ['.'] then walk? reversed more
    else if part = ['.', '.'] then
      match reversed with
      | [] => none
      | _ :: parents => walk? parents more
    else walk? (part :: reversed) more

/-- Parts with `/` between them. -/
def joinParts (parts : List (List Char)) : List Char := ['/'].intercalate parts

/-- The directory that a path starts from, last part first, and the path from there. -/
def startingPoint (current path : List Char) : List (List Char) × List Char :=
  match Text.trim path with
  | '/' :: rest => ([], rest)
  | relative => ((directoryParts current).reverse, relative)

/-- The path from the root that an import path means in the file `current`. -/
def joinPath? (current path : List Char) : Option (List Char) :=
  let (start, relative) := startingPoint current path
  match walk? start (Text.splitAt '/' relative) with
  | none | some [] => none
  | some parts => some (joinParts parts.reverse)

/-- The paths that an import may mean: one without an ending may leave out that of scripts. -/
def candidates (joined : List Char) : List (List Char) :=
  if (lastPart joined).contains '.' then [joined]
  else [joined, joined ++ '.' :: scriptEnding.toList]

end PixelScene
