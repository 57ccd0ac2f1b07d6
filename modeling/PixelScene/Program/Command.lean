import PixelScene.Program.Inspect
import PixelScene.Program.Play
import PixelScene.Program.Rehearse

/-!
# Commands

The three programs by their names. A program gets the words of its command line, the files that it
can see, and a number left to chance; it gives an exit code, texts and the files as it leaves them.

* `Command.run` runs a program. Programs that start a world draw random numbers, so it takes a
  `Generator`.

What is left out of a process is the order in which its two texts and its files appear: each of the
texts is complete when the program ends, and files are written at the end.
-/

namespace PixelScene

/-- The programs. -/
inductive Command where
  | inspect
  | rehearse
  | play
deriving DecidableEq, Repr

namespace Command

/-- The programs in order. -/
def all : List Command := [inspect, rehearse, play]

/-- The name of a program. -/
def name : Command → String
  | inspect => "msc_tool"
  | rehearse => "msc_harness"
  | play => "msc_engine"

/-- The program of a name. -/
def ofName? (name : String) : Option Command := all.find? (·.name == name)

@[simp] theorem ofName?_name (c : Command) : ofName? c.name = some c := by
  cases c <;> decide

/-- Runs a program on the words that follow its name. -/
def run [Generator] (c : Command) (words : List String) (chance : Nat) (disk : Disk) : Outcome :=
  match c with
  | inspect => Inspect.run words disk
  | rehearse => Rehearse.run words disk
  | play => Play.run (c.name :: words) chance disk

end Command

end PixelScene
