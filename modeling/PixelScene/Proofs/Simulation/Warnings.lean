import PixelScene.Proofs.Simulation.SpriteByte

/-!
# What a tick warns of

An action is refused when its variable is declared and not all of its bytes are in the memory. No
other action fails, and no entity fails to show its sprite, since only slots that lie in the memory
take turns.

* `Assignment.apply_of_refusal`, `Assignment.exists_apply_eq_ok`: which actions fail.
* `Simulation.foldl_runEvent`: what events do to the memory, and what is said about them.
* `Simulation.warnings_finish`: nothing is said about a turn.
* `Simulation.warnings_tick`: the warnings of a tick are the refused actions.

The engine warns of an action whose access fails and goes on with the next one. The order of
warnings is that of events and of their actions. An entity whose sprite cannot be shown would be
warned of, too, but a turn only goes to a slot that lies in the memory.
-/

namespace PixelScene

namespace Assignment

/-- Why an action is refused in a memory of some size, if it is. -/
def refusal? (a : Assignment) (globals : Table Variable) (size : Nat) : Option AccessError :=
  (globals.get? a.target).bind fun v =>
    if v.address + v.storage.width ≤ size then none
    else some (.outOfRange v.address v.storage.width size)

/-- What a tick says about an action in a memory of some size, if anything. -/
def warning? (a : Assignment) (globals : Table Variable) (size : Nat) : Option Warning :=
  (a.refusal? globals size).map (Warning.action a.target)

variable {a : Assignment} {globals : Table Variable} {m : Memory}

theorem warning?_eq_some_iff {size : Nat} {warning : Warning} :
    a.warning? globals size = some warning ↔ ∃ v, globals.get? a.target = some v ∧
      size < v.address + v.storage.width ∧
        warning = .action a.target (.outOfRange v.address v.storage.width size) := by
  unfold warning? refusal?
  cases globals.get? a.target with
  | none => simp
  | some v =>
    by_cases h : v.address + v.storage.width ≤ size
    · simp [h, Nat.not_lt.mpr h]
    · simp [h, Nat.lt_of_not_le h, eq_comm]

/-- A refused action leaves the memory as it was: what it reads or writes is refused first. -/
theorem apply_of_refusal {e : AccessError} (h : a.refusal? globals m.size = some e) :
    a.apply globals m = .error e m := by
  obtain ⟨target, op, value⟩ := a
  obtain ⟨v, hv, hrefused⟩ := Option.bind_eq_some_iff.mp h
  split at hrefused
  · exact absurd hrefused nofun
  · rename_i hsize
    obtain rfl := Option.some.inj hrefused
    have hread : m.fetchNumber v.storage v.address =
        .error (.outOfRange v.address v.storage.width m.size) := by
      rw [Memory.fetchNumber, Memory.fetchInt_eq_error hsize]
      rfl
    unfold apply
    rw [hv]
    dsimp only
    rw [bind_of_ok get_eq_ok]
    cases op with
    | set => exact (bind_of_ok rfl).trans (bind_of_error (Edit.store_eq_error hsize _))
    | add => exact bind_of_error (Edit.read_eq_error hread)
    | sub => exact bind_of_error (Edit.read_eq_error hread)

/-- An action that is not refused is carried out. -/
theorem exists_apply_eq_ok (h : a.refusal? globals m.size = none) :
    ∃ done m', a.apply globals m = .ok done m' := by
  obtain ⟨target, op, value⟩ := a
  unfold apply
  cases hv : globals.get? target with
  | none => exact ⟨false, m, rfl⟩
  | some v =>
    have hsize : v.address + v.storage.width ≤ m.size := by
      by_contra hsize
      rw [refusal?, hv, Option.bind_some, if_neg hsize] at h
      exact absurd h nofun
    have hread : m.fetchNumber v.storage v.address =
        .ok (Number.ofInt (v.storage.decode (m.fetchRaw v.address v.storage.width))) := by
      rw [Memory.fetchNumber, Memory.fetchInt_eq_ok hsize]
      rfl
    have hwrite : ∀ x, ∃ done m',
        (do
          Edit.storeNumber v.storage v.address x
          return true : Edit Bool) m = .ok done m' := fun x =>
      ⟨_, _, bind_of_ok (Edit.store_eq_ok hsize _)⟩
    dsimp only
    rw [bind_of_ok get_eq_ok]
    cases op with
    | set => exact hwrite _
    | add =>
      obtain ⟨done, m', h⟩ := hwrite _
      exact ⟨done, m', (bind_of_ok (Edit.read_eq_ok hread)).trans h⟩
    | sub =>
      obtain ⟨done, m', h⟩ := hwrite _
      exact ⟨done, m', (bind_of_ok (Edit.read_eq_ok hread)).trans h⟩

end Assignment

namespace Simulation

variable {s : Simulation} {held : Held} {geometry : Geometry}

/-! ## Events -/

/-- An action is warned of exactly if it is refused. -/
theorem warnings_runAction (wr : World × Report) (a : Assignment) :
    (s.runAction wr a).2.warnings =
      wr.2.warnings ++ (a.warning? s.script.globals wr.1.memory.size).toList := by
  unfold runAction Assignment.warning?
  dsimp only
  cases h : a.refusal? s.script.globals wr.1.memory.size with
  | some e =>
    rw [Assignment.apply_of_refusal h]
    rfl
  | none =>
    obtain ⟨done, m', hok⟩ := Assignment.exists_apply_eq_ok h
    rw [hok]
    exact (List.append_nil _).symm

theorem size_runAction (wr : World × Report) (a : Assignment) :
    (s.runAction wr a).1.memory.size = wr.1.memory.size := (s.runAction_within wr a).size

theorem warnings_foldl_runAction (actions : List Assignment) (wr : World × Report) :
    (actions.foldl s.runAction wr).2.warnings =
      wr.2.warnings ++ actions.filterMap (·.warning? s.script.globals wr.1.memory.size) := by
  induction actions generalizing wr with
  | nil => exact (List.append_nil _).symm
  | cons a actions ih =>
    rw [List.foldl_cons, ih, warnings_runAction, size_runAction, List.append_assoc,
      List.filterMap_cons]
    cases a.warning? s.script.globals wr.1.memory.size <;> rfl

theorem memory_foldl_runAction (actions : List Assignment) (wr : World × Report) :
    (actions.foldl s.runAction wr).1.memory =
      actions.foldl (fun m a => leaves (a.apply s.script.globals) m) wr.1.memory := by
  induction actions generalizing wr with
  | nil => rfl
  | cons a actions ih => rw [List.foldl_cons, ih, memory_runAction, List.foldl_cons]

/-- Events carry out all actions of those that fire, and warn of those that are refused. -/
theorem foldl_runEvent (events : List Event) (wr : World × Report) :
    let actions := (s.firedAmong held events wr).flatMap Event.actions
    (events.foldl (s.runEvent held) wr).1.memory =
        actions.foldl (fun m a => leaves (a.apply s.script.globals) m) wr.1.memory ∧
      (events.foldl (s.runEvent held) wr).2.warnings =
        wr.2.warnings ++ actions.filterMap (·.warning? s.script.globals wr.1.memory.size) := by
  induction events generalizing wr with
  | nil => exact ⟨rfl, (List.append_nil _).symm⟩
  | cons e events ih =>
    obtain ⟨hmemory, hwarnings⟩ := ih (s.runEvent held wr e)
    have hsize : (s.runEvent held wr e).1.memory.size = wr.1.memory.size :=
      runEvent_keeps (R := SameSize) (fun wr a _ => size_runAction wr a) wr
    dsimp only
    rw [List.foldl_cons, hmemory, hwarnings, hsize, firedAmong]
    split
    · rename_i h
      rw [runEvent_of_fires h, memory_foldl_runAction, warnings_foldl_runAction,
        List.flatMap_cons, List.foldl_append, List.filterMap_append, List.append_assoc]
      exact ⟨rfl, rfl⟩
    · rename_i h
      rw [runEvent_of_not_fires h]
      exact ⟨rfl, rfl⟩

/-! ## Entities -/

theorem warnings_runComponent (t : EntityType) (slot : Nat) (wr : World × Report)
    (c : String × Properties) :
    (s.runComponent t held geometry slot wr c).2.warnings = wr.2.warnings := by
  unfold runComponent
  dsimp only
  split
  · rfl
  · split <;> rfl

/-- An entity whose slot lies in the memory shows its sprite without a warning. -/
theorem warnings_finish {turn : Turn} (hslot : IsSlot turn.slot)
    (hfits : turn.spriteAddress < (turn.finish s held geometry).1.memory.size) :
    (turn.finish s held geometry).2.warnings = turn.start.2.warnings := by
  have hcomponents : (turn.afterComponents s held geometry).2.warnings = turn.start.2.warnings :=
    (foldl_keeps (R := (· = ·)) (f := fun wr : World × Report => wr.2.warnings)
      (fun wr c _ => (warnings_runComponent _ _ wr c).symm) turn.start).symm
  rw [turn.size_finish] at hfits
  have hshow : (showSprite turn.slot (turn.number s held geometry)
      (turn.afterComponents s held geometry)).2 = (turn.afterComponents s held geometry).2 := by
    unfold showSprite
    dsimp only
    rw [Edit.setField_eq_ok (f := .sprite) hslot hfits]
  rw [← hcomponents, ← hshow]
  rfl

theorem Takes.warnings {wr wr' : World × Report} {turns : List Turn}
    (h : s.Takes held geometry wr turns wr')
    (hfinish : ∀ turn ∈ turns, (turn.finish s held geometry).2.warnings = turn.start.2.warnings) :
    wr'.2.warnings = wr.2.warnings := by
  induction h with
  | nil => rfl
  | cons turn _ _ ih =>
    rw [ih fun other hother => hfinish other (List.mem_cons_of_mem _ hother)]
    exact hfinish turn List.mem_cons_self

/-! ## Ticks -/

/--
**The warnings of a tick are the refused actions.** The actions of the events that fire are all
carried out, in order. The warnings are those of the actions that are refused, in the same order,
and no other: an action is refused exactly if its variable is declared and its bytes are not all in
the memory. A refused action leaves the memory as it was, and any other succeeds. No sprite fails to
be shown.
-/
theorem warnings_tick (script : Script) (hosts : List KeyBindings) (held : Held)
    (geometry : Geometry) (w : World) :
    let s := ofBuiltins script hosts
    let actions := (s.fired held w).flatMap Event.actions
    let warnings := (s.tick held geometry w).2.warnings
    (s.runEvents held w).1.memory =
        actions.foldl (fun m a => leaves (a.apply script.globals) m) w.memory ∧
      warnings = actions.filterMap (·.warning? script.globals w.memory.size) ∧
      (∀ (a : Assignment) (size : Nat) (warning : Warning),
        a.warning? script.globals size = some warning ↔
          ∃ v, script.globals.get? a.target = some v ∧ size < v.address + v.storage.width ∧
            warning = .action a.target (.outOfRange v.address v.storage.width size)) ∧
      (∀ (a : Assignment) (m : Memory),
        if (a.warning? script.globals m.size).isSome then ∃ e, a.apply script.globals m = .error e m
        else ∃ done m', a.apply script.globals m = .ok done m') ∧
      ∀ slot e, .sprite slot e ∉ warnings := by
  intro s actions warnings
  have hscript : s.script = script := ofBuiltins_script script hosts
  have hkeeps : s.registry.KeepsSize := by
    rw [ofBuiltins_registry]
    exact Registry.builtins_keepsSize
  obtain ⟨hmemory, hevents⟩ :=
    @foldl_runEvent s (held.consult s.bindings) s.events (w, Report.empty)
  rw [hscript] at hmemory hevents
  have hentities : warnings = (s.runEvents held w).2.warnings :=
    (takes_turns w).warnings fun turn hturn =>
      warnings_finish (isSlot_of_mem_turns hturn) (spriteAddress_lt hkeeps hturn)
  have hwarnings : warnings = actions.filterMap (·.warning? script.globals w.memory.size) :=
    hentities.trans hevents
  refine ⟨hmemory, hwarnings, fun a size warning => Assignment.warning?_eq_some_iff, ?_, ?_⟩
  · intro a m
    rw [Assignment.warning?]
    cases h : a.refusal? script.globals m.size with
    | some e => exact ⟨e, Assignment.apply_of_refusal h⟩
    | none => exact Assignment.exists_apply_eq_ok h
  · intro slot e hmem
    rw [hwarnings] at hmem
    obtain ⟨a, -, ha⟩ := List.mem_filterMap.mp hmem
    obtain ⟨v, -, -, heq⟩ := Assignment.warning?_eq_some_iff.mp ha
    exact absurd heq nofun

end Simulation

end PixelScene
