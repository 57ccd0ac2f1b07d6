import PixelScene.Picture.Png
import PixelScene.Program.Command

/-!
# The command line

The first word names a program and the others are its words. The program sees the files beneath the
current folder; what it changes is written back. This is the only module that does input and output:
everything a program does in between is `Command.run`, a function of the words, of the files and of
a number left to chance.

* `Source.standard`: where the programs draw their random numbers from.
-/

namespace PixelScene

/-! ## Random numbers -/

/-- A number between two bounds, and the generator after it. -/
def draw (g : StdGen) (bounds : Int × Int) : Int × StdGen :=
  let (n, g') := randNat g 0 (bounds.2 - bounds.1).toNat
  (bounds.1 + n, g')

theorem randNat_le (g : StdGen) (n : Nat) : (randNat g 0 n).1 ≤ n := by
  simp only [randNat, gt_iff_lt, Nat.not_lt_zero, if_false, Nat.zero_add, Nat.sub_zero]
  exact Nat.le_of_lt_succ (Nat.mod_lt _ n.succ_pos)

theorem draw_mem (g : StdGen) {low high : Int} (h : low ≤ high) :
    low ≤ (draw g (low, high)).1 ∧ (draw g (low, high)).1 ≤ high := by
  have hle := randNat_le g (high - low).toNat
  have hdraw : (draw g (low, high)).1 = low + (randNat g 0 (high - low).toNat).1 := rfl
  omega

/-- The source that core's generator makes of a seed. What was drawn before moves it on. -/
def Source.standard (seed : Nat) : Source where
  next earlier low high :=
    let g := earlier.foldr (fun bounds g => (draw g bounds).2) (mkStdGen seed)
    (draw g (low, high)).1
  next_mem _ _ _ h := draw_mem _ h

/-! ## Files -/

/-- The bytes of a file. -/
def Content.toBytes : Content → ByteArray
  | .bytes b => b
  | .picture p => ⟨p.toPng.toArray⟩

/-- The files beneath a folder, each path after `front`. -/
partial def filesBeneath (front : String) (folder : IO (Array IO.FS.DirEntry)) :
    IO (List (String × Content)) := do
  let mut files := []
  for entry in ← folder do
    let path := front ++ entry.fileName
    if ← entry.path.isDir then
      files := files ++ (← filesBeneath (path ++ "/") entry.path.readDir)
    else
      files := files ++ [(path, .bytes (← IO.FS.readBinFile entry.path))]
  return files

/-- Writes back a file that was changed. -/
def writeChanged (before : Disk) (file : String × Content) : IO Unit := do
  let bytes := file.2.toBytes
  match before.files.get? file.1 with
  | some content => if content.toBytes != bytes then IO.FS.writeBinFile file.1 bytes
  | none => IO.FS.writeBinFile file.1 bytes

/-- Runs a program in the current folder. -/
def runHere (command : Command) (words : List String) : IO UInt32 := do
  let here ← IO.currentDir
  let disk : Disk := ⟨Dictionary.ofList (← filesBeneath "" here.readDir)⟩
  let outcome := @Command.run ⟨Source.standard⟩ command words (← IO.rand 0 UInt32.size) disk
  IO.print outcome.console.results
  IO.eprint outcome.console.notes
  for file in outcome.console.disk.files.entries do writeChanged disk file
  return UInt32.ofNat outcome.code

end PixelScene

open PixelScene

/-- Runs the program that the first word names. -/
def main : List String → IO UInt32
  | [] => do
    IO.eprintln ("programs: " ++ ", ".intercalate (Command.all.map Command.name))
    return 2
  | name :: words =>
    match Command.ofName? name with
    | some command => runHere command words
    | none => do
      IO.eprintln s!"unknown program '{name}'"
      return 2
