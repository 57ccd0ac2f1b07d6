import PixelScene.Simulation.Tick

/-!
# Logs

What is said to the one who runs a simulation: at first what was left out of the script and of its
key bindings, and later every fault of a component, each with the same wording only once.

* `Simulation.setupLines`, `Simulation.hostLines`: what is said before the first tick.
* `Log.noteReport`: what is said about a tick.

The engine writes these lines as it goes and remembers which faults it has reported. Here a tick
only reports, and the log is kept beside the simulation, so that a tick stays a function of the
world.
-/

namespace PixelScene

/-! ## Setting up -/

namespace Simulation

/-- What is said about a script that is made ready. -/
def setupLines (s : Simulation) : List String :=
  KeyBindings.notices s.script.inputs.entries
    ++ s.types.flatMap (fun t => KeyBindings.notices t.entity.inputs.entries)
    ++ s.diagnosticTexts.map ("[engine] " ++ ·)

/-- What is said about the key bindings of a host, which go under those of the script. -/
def hostLines (s : Simulation) (bindings : Dictionary (List String)) : List String :=
  KeyBindings.actionNotices bindings ++ KeyBindings.notices s.script.inputs.entries

end Simulation

/-! ## Faults -/

/-- What was said so far, and the faults that it was said about. -/
structure Log where
  lines : List String
  known : List (String × String × String)
deriving DecidableEq, Repr

namespace Log

/-- Nothing was said. -/
def empty : Log := ⟨[], []⟩

instance : Inhabited Log := ⟨empty⟩

/-- Says some lines. -/
def add (log : Log) (lines : List String) : Log := { log with lines := log.lines ++ lines }

/-- What a fault is known by. -/
def key (f : Fault) : String × String × String := (f.entity, f.component, f.cause.message)

/-- What is said about a fault. -/
def faultLine (f : Fault) : String :=
  s!"[engine] {f.entity}.{f.component} failed at slot {f.slot}: {f.cause.message}"

/-- Says a fault that was not said before. -/
def noteFault (log : Log) (f : Fault) : Log :=
  if log.known.contains (key f) then log
  else ⟨log.lines ++ [faultLine f], key f :: log.known⟩

/-- Says the faults of a tick. -/
def noteReport (log : Log) (r : Report) : Log := r.faults.foldl noteFault log

/-- A fault that was said before is not said again. -/
@[simp] theorem noteFault_noteFault (log : Log) (f : Fault) :
    (log.noteFault f).noteFault f = log.noteFault f := by
  unfold noteFault
  by_cases h : key f ∈ log.known <;> simp [h]

end Log

end PixelScene
