import PixelScene.Camera
import PixelScene.Memory.Slot

/-!
# The world

What a running script owns from one tick to the next: its memory, the size of its canvas, the number
of ticks so far, the camera, and the state of the random numbers that shake it (`EngineState`).

* `World.start` is a world with a canvas of zeros (`with_seed`).
* `World.ofMemory` takes up a memory that was saved before (`from_buffer`).

Random numbers come from a library that is no part of the engine, and only the shake of the screen
asks for them (`gen_range`). What the engine relies on is that a draw keeps to its bounds, and that
the seed and the draws so far decide it. So the library is a parameter:

* A `Source` is any way of drawing that keeps to the bounds (`Source.next_mem`); a `Random` is a
  source in use.
* A `Generator` makes a source of a seed. Whatever starts a world from a seed takes one, and results
  about such runs hold for every generator.

The number of ticks is a natural number; the engine has 64 bits for it.
-/

namespace PixelScene

/-! ## Random numbers -/

/-- How random numbers are drawn: the next one, by the bounds of the draws before it, the latest
first, and its own bounds. It lies between its bounds. -/
structure Source where
  next : (earlier : List (Int × Int)) → (low high : Int) → Int
  next_mem : ∀ earlier low high, low ≤ high →
    low ≤ next earlier low high ∧ next earlier low high ≤ high

/-- A source in use, with the bounds of what was drawn from it. -/
structure Random where
  source : Source
  drawn : List (Int × Int)

namespace Random

/-- A number between two bounds, both included, and the source after it. -/
def between (r : Random) (low high : Int) : Int × Random :=
  (r.source.next r.drawn low high, { r with drawn := (low, high) :: r.drawn })

/-- What is drawn between two bounds lies between them. -/
theorem between_mem (r : Random) {low high : Int} (h : low ≤ high) :
    low ≤ (r.between low high).1 ∧ (r.between low high).1 ≤ high :=
  r.source.next_mem r.drawn low high h

end Random

/-- The generator that runs draw from: the source that it makes of a seed. -/
class Generator where
  source : (seed : Nat) → Source

/-- Runs on fixed inputs need some generator, whichever it is: this one draws the lower bound every
time. -/
instance : Generator where
  source _ := ⟨fun _ low _ => low, fun _ low _ h => ⟨Int.le_refl low, h⟩⟩

/-- The sequence that a seed starts. -/
def Random.ofSeed [Generator] (seed : Nat) : Random := ⟨Generator.source seed, []⟩

/-! ## The world -/

/-- Everything that changes while a script runs. -/
structure World where
  memory : Memory
  width : Nat
  height : Nat
  ticks : Nat
  camera : Camera
  random : Random

namespace World

/-- A world at its start, with a canvas of zeros. -/
def start [Generator] (width height seed : Nat) : World :=
  ⟨Memory.ofCanvas width height, width, height, 0, Camera.start, Random.ofSeed seed⟩

/-- A world at its start over a given memory: the rows that its pixels take make the height. -/
def ofMemory [Generator] (memory : Memory) (width seed : Nat) : World :=
  let columns := max width 1
  let rows := (memory.pixelCount + columns - 1) / columns
  ⟨memory, columns, rows, 0, Camera.start, Random.ofSeed seed⟩

/-- The size of the canvas as a vector. -/
def view (w : World) : Point := Point.ofInts w.width w.height

end World

end PixelScene
