import PixelScene.Proofs.FirstOccurrence
import PixelScene.Proofs.Simulation.Turns
import PixelScene.Script.Statement

/-!
# Layers of key bindings

The bindings of an entity lie over those of the script, and these over the table of the host. A key
that an upper layer binds is hidden below as a whole. Keys are told apart in their normal form, so
several pairs of a layer may bind the same key, and a pair that lacks a key or an action counts for
nothing.

* `KeyBindings.listed`: what a layer of pairs has for a key, and `KeyBindings.actionsOf_ofPairs`.
* `KeyBindings.shown`: what is left to see of some layers over a table.
* `Simulation.tick_sees_layers`: which actions the events and the entities of a tick see.

The layers are `merged_with` upon each other: an entity, the script, a host. A pair without a key or
without an action is dropped when a table is made of pairs (`bind`), with a notice to the one who
runs the simulation, so it neither binds nor hides. What a turn sees is worked out from the keys
that are held and from the actions that the host holds directly.
-/

namespace PixelScene

namespace KeyBindings

/-! ## One layer -/

/-- The key of a pair, in lower case. -/
def keyName (p : String × String) : String := String.ofList (normalKey p.1.toList)

/-- The action of a pair, without `Action.` in front. -/
def actionName (p : String × String) : String := String.ofList (normalAction p.2.toList)

/-- The pair binds the key to an action. -/
def Binds (p : String × String) (key : String) : Prop :=
  isUsable p.1 p.2 = true ∧ keyName p = key

instance (p : String × String) (key : String) : Decidable (Binds p key) :=
  inferInstanceAs (Decidable (_ ∧ _))

/-- The actions that a layer has for a key, as often as it lists them. -/
def listed (pairs : List (String × String)) (key : String) : List String :=
  (pairs.filter (Binds · key)).map actionName

/-- The actions of all pairs of a layer with a key, also of those that lack an action. -/
def listedAlways (pairs : List (String × String)) (key : String) : List String :=
  (pairs.filter (keyName · == key)).map actionName

/-- The first of some lists that is not empty. -/
def uppermost (lists : List (List String)) : List String :=
  (lists.find? fun l => !l.isEmpty).getD []

/-- What is seen for a key of some layers that lie over a table: the actions of the uppermost layer
that binds the key, else those of the table. -/
def shown (layers : List (List (String × String))) (host : KeyBindings) (key : String) :
    List String :=
  uppermost (layers.map (listed · key) ++ [host.actionsOf key])

/-- Some layers of pairs over a table, the first of them on top. -/
def layered (layers : List (List (String × String))) (host : KeyBindings) : KeyBindings :=
  layers.foldr (fun pairs below => (ofPairs pairs).atop below) host

theorem listed_concat (pairs : List (String × String)) (p : String × String) (key : String) :
    listed (pairs ++ [p]) key =
      if Binds p key then listed pairs key ++ [actionName p] else listed pairs key := by
  unfold listed
  rw [List.filter_append, List.map_append]
  split
  · rename_i hp
    rw [List.filter_singleton, decide_eq_true hp]
    rfl
  · rename_i hp
    rw [List.filter_singleton, decide_eq_false hp]
    exact List.append_nil _

theorem bind_eq (b : KeyBindings) (p : String × String) :
    b.bind p.1 p.2 =
      if isUsable p.1 p.2 = true ∧ actionName p ∉ b.actionsOf (keyName p) then
        ⟨b.table.insert (keyName p) (b.actionsOf (keyName p) ++ [actionName p])⟩
      else b := by
  unfold bind
  by_cases husable : isUsable p.1 p.2 = true
  · by_cases hknown : actionName p ∈ b.actionsOf (keyName p)
    · rw [if_pos husable]
      exact (if_pos (List.contains_iff_mem.mpr hknown)).trans (if_neg fun h => h.2 hknown).symm
    · rw [if_pos husable]
      exact (if_neg fun h => hknown (List.contains_iff_mem.mp h)).trans
        (if_pos ⟨husable, hknown⟩).symm
  · rw [if_neg husable, if_neg fun h => husable h.1]

/-- Adding a pair to a table changes what is found under the key that it binds. -/
theorem get?_bind (b : KeyBindings) (p : String × String) (key : String) :
    (b.bind p.1 p.2).table.get? key =
      if Binds p key ∧ actionName p ∉ b.actionsOf key then some (b.actionsOf key ++ [actionName p])
      else b.table.get? key := by
  rw [bind_eq]
  by_cases hkey : keyName p = key
  · subst hkey
    have hbinds : Binds p (keyName p) ↔ isUsable p.1 p.2 = true := and_iff_left rfl
    simp only [hbinds]
    split
    · exact (Dictionary.get?_insert ..).trans (if_pos rfl)
    · rfl
  · have hother : ¬ (Binds p key ∧ actionName p ∉ b.actionsOf key) := fun h => hkey h.1.2
    rw [if_neg hother]
    split
    · exact (Dictionary.get?_insert ..).trans (if_neg (Ne.symm hkey))
    · rfl

theorem actionsOf_of_get? {b : KeyBindings} {key : String} {actions : List String}
    (h : b.table.get? key = if actions = [] then Option.none else some actions.eraseDups) :
    b.actionsOf key = actions.eraseDups := by
  unfold actionsOf
  rw [h]
  split
  · rename_i hnone
    rw [hnone]
    rfl
  · rfl

/-- A table made of pairs has an entry for each key that one of them binds. -/
theorem get?_ofPairs (pairs : List (String × String)) (key : String) :
    (ofPairs pairs).table.get? key =
      if listed pairs key = [] then Option.none else some (listed pairs key).eraseDups := by
  induction pairs using List.reverseRecOn with
  | nil => rfl
  | append_singleton pairs p ih =>
    have hconcat : ofPairs (pairs ++ [p]) = (ofPairs pairs).bind p.1 p.2 := List.foldl_concat ..
    rw [hconcat, get?_bind, actionsOf_of_get? ih, listed_concat]
    simp only [List.mem_eraseDups]
    by_cases hbinds : Binds p key
    · rw [if_pos hbinds, if_neg (List.append_ne_nil_of_right_ne_nil _ (List.cons_ne_nil _ _)),
        eraseDups_concat]
      by_cases hknown : actionName p ∈ listed pairs key
      · rw [if_neg fun h => h.2 hknown, if_pos hknown, ih, if_neg (List.ne_nil_of_mem hknown)]
      · rw [if_pos ⟨hbinds, hknown⟩, if_neg hknown]
    · rw [if_neg fun h => hbinds h.1, if_neg hbinds, ih]

/-- A table made of pairs has for a key the actions that they list. -/
theorem actionsOf_ofPairs (pairs : List (String × String)) (key : String) :
    (ofPairs pairs).actionsOf key = (listed pairs key).eraseDups :=
  actionsOf_of_get? (get?_ofPairs pairs key)

/-! ## Layers over a table -/

/-- A layer hides what lies under it for the keys that it binds. -/
theorem actionsOf_atop (pairs : List (String × String)) (below : KeyBindings) (key : String) :
    ((ofPairs pairs).atop below).actionsOf key =
      if listed pairs key = [] then below.actionsOf key else (listed pairs key).eraseDups := by
  have hget : ((ofPairs pairs).atop below).table.get? key =
      ((ofPairs pairs).table.get? key).or (below.table.get? key) := Dictionary.get?_union ..
  unfold actionsOf
  rw [hget, get?_ofPairs]
  split
  · rw [Option.none_or]
  · rw [Option.some_or, Option.getD_some]

theorem shown_cons (pairs : List (String × String)) (layers : List (List (String × String)))
    (host : KeyBindings) (key : String) :
    shown (pairs :: layers) host key =
      if listed pairs key = [] then shown layers host key else listed pairs key := by
  unfold shown uppermost
  cases h : listed pairs key <;> simp [h]

/-- The table of some layers has what is seen of them. -/
theorem mem_actionsOf_layered (layers : List (List (String × String))) (host : KeyBindings)
    (key action : String) :
    action ∈ (layered layers host).actionsOf key ↔ action ∈ shown layers host key := by
  induction layers with
  | nil =>
    have hhost : shown [] host key = host.actionsOf key := by
      unfold shown uppermost
      cases host.actionsOf key <;> rfl
    rw [hhost]
    rfl
  | cons pairs layers ih =>
    have hcons : layered (pairs :: layers) host = (ofPairs pairs).atop (layered layers host) := rfl
    rw [hcons, actionsOf_atop, shown_cons]
    split
    · exact ih
    · exact List.mem_eraseDups

end KeyBindings

/-! ## What is held -/

namespace Held

/-- Beside what is held itself, the actions are seen that some layers over a table show for a key
that is held. -/
structure Sees (seen held : Held) (layers : List (List (String × String))) (host : KeyBindings) :
    Prop where
  keys : seen.keys = held.keys
  actions : ∀ action, action ∈ seen.actions ↔
    action ∈ held.actions ∨ ∃ key ∈ held.keys, action ∈ KeyBindings.shown layers host key

theorem mem_foldl_insertSorted {action : String} (more known : List String) :
    action ∈ more.foldl (fun as a => insertSorted a as) known ↔ action ∈ known ∨ action ∈ more := by
  induction more generalizing known with
  | nil => simp
  | cons a more ih => rw [List.foldl_cons, ih, mem_insertSorted, List.mem_cons, or_assoc, or_left_comm]

/-- Consulting the table of some layers shows these layers. -/
theorem sees_consult (held : Held) (layers : List (List (String × String))) (host : KeyBindings) :
    (held.consult (KeyBindings.layered layers host)).Sees held layers host where
  keys := rfl
  actions action := by
    unfold consult
    rw [mem_foldl_insertSorted]
    simp only [List.mem_flatMap, KeyBindings.mem_actionsOf_layered]

end Held

/-! ## Simulations -/

namespace Simulation

open KeyBindings (ofPairs layered)

variable (script : Script) (registry : Registry)

/-- A host puts its bindings in the place of those that an earlier host gave. -/
theorem prepared_concat (hosts : List KeyBindings) (host : KeyBindings) :
    prepared script registry (hosts ++ [host]) = (prepared script registry hosts).withHost host :=
  List.foldl_concat ..

/-- The script's bindings lie over the table of the last host. -/
theorem prepared_bindings (hosts : List KeyBindings) :
    (prepared script registry hosts).bindings =
      layered [script.inputs.entries] (hosts.getLastD KeyBindings.none) := by
  induction hosts using List.reverseRecOn with
  | nil => rfl
  | append_singleton hosts host =>
    rw [prepared_concat, List.getLastD_concat, withHost, prepared_script]
    rfl

/-- The bindings of an entity lie over those of the simulation, however often hosts change these. -/
theorem prepared_types (hosts : List KeyBindings) :
    ∀ t ∈ (prepared script registry hosts).types,
      t.ownBindings = ofPairs t.entity.inputs.entries ∧
        t.bindings = t.ownBindings.atop (prepared script registry hosts).bindings := by
  induction hosts using List.reverseRecOn with
  | nil =>
    intro t ht
    obtain ⟨ready, hready, rfl⟩ := List.mem_map.mp ht
    obtain ⟨e, -, rfl⟩ := List.mem_map.mp hready
    exact ⟨rfl, rfl⟩
  | append_singleton hosts host ih =>
    rw [prepared_concat]
    intro t ht
    obtain ⟨u, hu, rfl⟩ := List.mem_map.mp ht
    exact ⟨(ih u hu).1, rfl⟩

/-- The types are the first entities of the script, in order. -/
theorem prepared_names (hosts : List KeyBindings) :
    ((prepared script registry hosts).types.map fun t => (t.name, t.entity)) =
      script.entities.entries.take Script.maxTypes := by
  rw [prepared_types_map script registry hosts _ fun _ _ => rfl]
  exact List.map_id _

/--
**Bindings are layered: those of the entity over those of the script over the table of the host.**
The events of a tick see the actions that are held and those that the script and the last host show
for the keys that are held; in the turn of an entity its own bindings lie over these. Nothing is
left of earlier hosts.
-/
theorem tick_sees_layers (hosts : List KeyBindings) (held : Held) :
    let s := prepared script registry hosts
    let host := hosts.getLastD KeyBindings.none
    (∃ seen : Held, seen.Sees held [script.inputs.entries] host ∧
      ∀ w, s.runEvents held w = s.events.foldl (s.runEvent seen) (w, Report.empty)) ∧
    (s.types.map fun t => (t.name, t.entity)) = script.entities.entries.take Script.maxTypes ∧
    (∀ t ∈ s.types, ∃ seen : Held,
      seen.Sees held [t.entity.inputs.entries, script.inputs.entries] host ∧
      ∀ geometry slot wr, s.typeAt? wr.1.memory slot = some t →
        s.runSlot held geometry wr slot = s.runEntity t seen geometry slot wr) ∧
    ∀ pairs key, (ofPairs pairs).actionsOf key = (KeyBindings.listed pairs key).eraseDups := by
  intro s host
  have hshared : s.bindings = layered [script.inputs.entries] host :=
    prepared_bindings script registry hosts
  refine ⟨⟨held.consult s.bindings, hshared ▸ held.sees_consult _ host, fun w => rfl⟩,
    prepared_names script registry hosts, fun t ht => ?_, KeyBindings.actionsOf_ofPairs⟩
  obtain ⟨hown, hbindings⟩ := prepared_types script registry hosts t ht
  have hlayers : t.bindings = layered [t.entity.inputs.entries, script.inputs.entries] host := by
    rw [hbindings, hown]
    exact congrArg _ hshared
  exact ⟨held.consult t.bindings, hlayers ▸ held.sees_consult _ host, fun geometry slot wr htype =>
    runSlot_of_typeAt? htype⟩

/-- A pilot with two spellings of one key, in a script that binds this key and another. -/
def pilotScript : Script :=
  { Script.empty with
    inputs := .ofList [("Space", "Fire"), ("Z", "Fire")]
    entities := .ofList [("Pilot", { Entity.empty with
      inputs := .ofList [(" SPACE ", "Hop"), ("Space", "Action.Jump")] })] }

/-- Two hosts, of which the second binds all keys of the first. -/
def pilotHosts : List KeyBindings :=
  [ofPairs [("x", "Old"), ("z", "Old")],
    ofPairs [("space", "Duck"), ("z", "Roll"), ("X", "Action.Look")]]

/-- A pilot in the first slot. -/
def pilotWorld : World :=
  ((prepared pilotScript Registry.builtins []).spawn "Pilot" 0 0 (World.start 12 12 0)).2

/-- The pilot hops and jumps with the space bar, fires with the script's other key, and looks with
the key that only the host binds. -/
theorem tick_sees_layers_pilot :
    let s := prepared pilotScript Registry.builtins pilotHosts
    let held : Held := ⟨["Wave"], ["space", "x", "z"]⟩
    ∃ t ∈ s.types, t.name = "Pilot" ∧ s.typeAt? pilotWorld.memory 512 = some t ∧ ∃ seen : Held,
      (∀ action, action ∈ seen.actions ↔ action ∈ ["Wave", "Hop", "Jump", "Look", "Fire"]) ∧
        s.runSlot held Geometry.empty (pilotWorld, Report.empty) 512 =
          s.runEntity t seen Geometry.empty 512 (pilotWorld, Report.empty) := by
  intro s held
  have hpilot : (s.typeAt? pilotWorld.memory 512).map (fun t => (t.name, t.entity.inputs.entries)) =
      some ("Pilot", [(" SPACE ", "Hop"), ("Space", "Action.Jump")]) := by decide +kernel
  obtain ⟨t, ht, heq⟩ := Option.map_eq_some_iff.mp hpilot
  obtain ⟨hname, hinputs⟩ := Prod.mk.inj heq
  have hmem : t ∈ s.types := mem_types_of_typeAt? ht
  obtain ⟨-, -, htypes, -⟩ := tick_sees_layers pilotScript Registry.builtins pilotHosts held
  obtain ⟨seen, hsees, hruns⟩ := htypes t hmem
  rw [hinputs] at hsees
  let layers := [[(" SPACE ", "Hop"), ("Space", "Action.Jump")], pilotScript.inputs.entries]
  let host := pilotHosts.getLastD KeyBindings.none
  have hspace : KeyBindings.shown layers host "space" = ["Hop", "Jump"] := by decide +kernel
  have hx : KeyBindings.shown layers host "x" = ["Look"] := by decide +kernel
  have hz : KeyBindings.shown layers host "z" = ["Fire"] := by decide +kernel
  refine ⟨t, hmem, hname, ht, seen, fun action => (hsees.actions action).trans ?_,
    hruns Geometry.empty 512 _ ht⟩
  have hkeys : (∃ key ∈ held.keys, action ∈ KeyBindings.shown layers host key) ↔
      action ∈ ["Hop", "Jump"] ∨ action ∈ ["Look"] ∨ action ∈ ["Fire"] := by
    rw [← hspace, ← hx, ← hz]
    simp only [held, List.mem_cons, List.not_mem_nil, or_false, exists_eq_or_imp, exists_eq_left]
  rw [hkeys]
  simp [held, or_assoc]

/-- A script that binds a key to no action, and has an event for another. -/
def idleSource : List Char :=
  "Input:\n  Space: Action.\nEvents:\n  - trigger: Input(Jump)\n".toList

/-- The script of `idleSource`. -/
def idleScript : Script :=
  { Script.empty with inputs := .ofList [("Space", "Action.")], events := [⟨"Input(Jump)", []⟩] }

set_option maxRecDepth 20000 in
theorem parse_idleSource : Script.parse idleSource = .ok idleScript := by
  have hread : Node.read idleSource = .ok (.map
      [("Input", .map [("Space", .text "Action.")]),
        ("Events", .list [.map [("trigger", .text "Input(Jump)")]])]) := by cbv
  rw [Script.parse, hread]
  rfl

/-- A pair without an action does not hide what the host binds to its key. -/
theorem idle_pair_hides_nothing : Script.parse idleSource = .ok idleScript ∧
    let host := ofPairs [("Space", "Jump")]
    let s := prepared idleScript Registry.builtins [host]
    let held : Held := ⟨[], ["space"]⟩
    "Jump" ∈ (held.consult s.bindings).actions ∧
      (s.runEvents held (World.start 12 12 0)).2.fired = 1 ∧
      "Jump" ∉ held.actions ∧ ∀ key ∈ held.keys, "Jump" ∉ KeyBindings.uppermost
        [KeyBindings.listedAlways idleScript.inputs.entries key, host.actionsOf key] := by
  refine ⟨parse_idleSource, ?_⟩
  decide +kernel

end Simulation

end PixelScene
