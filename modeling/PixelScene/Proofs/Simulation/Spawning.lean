import PixelScene.Proofs.Component.Failure
import PixelScene.Proofs.Simulation.Lifecycle
import PixelScene.Proofs.Simulation.ScratchParts
import PixelScene.Proofs.Simulation.SpriteByte

/-!
# Fresh entities

A spawner puts a fresh entity into the first free slot, and then begins its count anew in its own
scratch byte. When a component before it has ended its entity, its own slot may be the first free
one, and then the count goes into the fresh entity.

* `Edit.slotContent_fresh`: the sixteen bytes of a fresh entity.
* `Component.spawner_cases`: what a spawner writes.
* `Simulation.spawned_fresh_iff`: a spawned entity is fresh exactly if its slot is not the
  spawner's.
* `Simulation.spawned_in_own_slot`: a nest whose egg is not fresh.

The sixteen bytes are compared as a list, so nothing of a fresh entity is left out. The position is
the 64-bit sum that the spawner hands over, held within its fields, and the health that of the
script, held within its byte. The engine writes the count of the spawner without asking whether its
slot is still its own; `spawn_entity` clears a slot just so that no old byte is left in it. The
result is about any turn of any tick in any world, and about any components in front of the spawner.
-/

namespace PixelScene

open Memory (Within)

/-! ## The bytes of a slot -/

namespace Memory

variable {m m' : Memory} {slot : Nat}

/-- The bytes of a slot. -/
def slotContent (m : Memory) (slot : Nat) : List UInt8 :=
  (List.range slotBytes).map fun i => m.byte (slot + i)

theorem slotContent_eq_of_within {cells : Set Nat} (h : Within cells m m')
    (hslot : ∀ i < 16, slot + i ∉ cells) : m'.slotContent slot = m.slotContent slot :=
  List.map_congr_left fun i hi => h.byte (slot + i) (hslot i (List.mem_range.mp hi))

/-- A byte of a slot after a field was set. -/
theorem byte_putField_add (f : SlotField) (value : Int) {i : Nat} (hfits : slot + i < m.size) :
    (m.putField slot f value).byte (slot + i) =
      if f.offset ≤ i ∧ i < f.offset + f.storage.width then
        UInt8.ofNat (f.storage.encode (f.saturate value) /
          256 ^ (f.offset + f.storage.width - 1 - i))
      else m.byte (slot + i) := by
  have hexp : slot + f.offset + f.storage.width - 1 - (slot + i) =
      f.offset + f.storage.width - 1 - i := by omega
  rw [putField, byte_storeRaw, hexp]
  exact ite_congr (propext (by omega)) (fun _ => rfl) fun _ => rfl

theorem within_setByte (m : Memory) (address : Nat) (value : UInt8) :
    Within {address} m (m.setByte address value) :=
  ⟨m.size_setByte address value, fun i hi => by
    rw [byte_setByte, if_neg fun h => hi h.1]⟩

/-- A byte of a slot is set. -/
theorem slotContent_setByte {k : Nat} (hk : k < 16) (hfits : slot + 16 ≤ m.size) (value : UInt8) :
    (m.setByte (slot + k) value).slotContent slot = (m.slotContent slot).set k value := by
  refine List.ext_getElem (by simp [slotContent]) fun i hi hi' => ?_
  simp only [slotContent, List.getElem_map, List.getElem_range, List.getElem_set, byte_setByte]
  by_cases h : i = k
  · subst h
    rw [if_pos ⟨rfl, by omega⟩, if_pos rfl]
  · rw [if_neg (by omega), if_neg (Ne.symm h)]

end Memory

/-- The bytes of a fresh entity. -/
def freshContent (type : Nat) (x y health : Int) : List UInt8 :=
  let column := (Number.clamp 0 65535 x).toNat
  let row := (Number.clamp 0 65535 y).toNat
  [1, .ofNat type,
    .ofNat (column / 256), .ofNat column, .ofNat (row / 256), .ofNat row, 0, 0, 0, 0,
    .ofNat (Number.clamp 0 255 health).toNat, 0, 0, 0, 0, 0]

namespace Edit

/-- A fresh entity has the type, the place and the health that it is given, and nothing else. -/
theorem slotContent_fresh {m : Memory} {slot type : Nat} (hfits : slot + 16 ≤ m.size)
    (htype : type ≤ 255) (x y health : Int) :
    (fresh m slot type x y health).slotContent slot = freshContent type x y health := by
  have hencode8 : ∀ value : Int, Storage.int8.encode (Number.clamp 0 255 value) =
      (Number.clamp 0 255 value).toNat := fun value =>
    have hmem := Number.clamp_mem (by decide : (0 : Int) ≤ 255) value
    Storage.encode_eq_toNat hmem.1 hmem.2
  have hencode16 : ∀ value : Int, Storage.int16.encode (Number.clamp 0 65535 value) =
      (Number.clamp 0 65535 value).toNat := fun value =>
    have hmem := Number.clamp_mem (by decide : (0 : Int) ≤ 65535) value
    Storage.encode_eq_toNat hmem.1 hmem.2
  have htypeId : (Number.clamp 0 255 (type : Int)).toNat = type := by
    rw [Number.clamp_eq_self (by omega) (by omega), Int.toNat_natCast]
  have hlength : ((fresh m slot type x y health).slotContent slot).length = 16 := by
    rw [Memory.slotContent, List.length_map, List.length_range]
    rfl
  refine List.ext_getElem hlength fun i hi _ => ?_
  rw [hlength] at hi
  have hsize : slot + i < m.size := by omega
  simp only [Memory.slotContent, List.getElem_map, List.getElem_range]
  have hclear : (m.fillRaw slot 0 slotBytes).byte (slot + i) = 0 := by
    rw [Memory.byte_fillRaw, if_pos ⟨by omega, by simp only [slotBytes]; omega, hsize⟩]
  have hone : (Number.clamp 0 255 1).toNat = 1 := rfl
  -- each setter is passed on the way down to the cleared slot, or it is the one that set the byte
  rw [fresh, Memory.byte_putField_add _ _ (by simpa using hsize),
    Memory.byte_putField_add _ _ (by simpa using hsize),
    Memory.byte_putField_add _ _ (by simpa using hsize),
    Memory.byte_putField_add _ _ (by simpa using hsize),
    Memory.byte_putField_add _ _ (by simpa using hsize), hclear]
  interval_cases i <;>
    simp [SlotField.active, SlotField.health, SlotField.positionX, SlotField.positionY,
      SlotField.typeId, SlotField.saturate, Storage.width, hencode8, hencode16, htypeId, hone,
      freshContent]

/-- A component that has a scratch byte sets it. -/
theorem setScratch_eq_ok {m : Memory} {slot : Nat} {part : Scratch}
    (hslot : slot ∈ slotAddresses m.size) (hpart : ¬ part.Lacks 1) (value : Int) :
    setScratch slot part .int8 0 value m = .ok () (m.setByte
      (slot + (scratchOffset + part.start)) (.ofNat (Number.clamp 0 255 value).toNat)) := by
  obtain ⟨hpool, -⟩ := mem_slotAddresses.mp hslot
  have hrefused := Scratch.not_refused hpart
  have hplace : part.place slot 0 1 = slot + (scratchOffset + part.start) :=
    (Scratch.place_zero hpart).trans (Nat.add_assoc ..)
  have hfits := Scratch.fits hslot .int8 hrefused
  rw [setScratch, bind_of_ok (read_eq_ok (checkSlot_eq_ok hpool)),
    bind_of_ok (read_eq_ok (Scratch.address_eq_ok hpool (by decide) hrefused)), ← hplace]
  exact store_eq_ok hfits _

end Edit

namespace Tick

variable {α : Type} {w : World}

theorem edit_eq_ok {e : Edit α} {a : α} {m : Memory} (h : e w.memory = .ok a m) :
    Tick.edit e w = .ok a { w with memory := m } := by
  rw [Tick.edit, h]

theorem read_eq_ok {f : Memory → Except AccessError α} {a : α} (h : f w.memory = .ok a) :
    Tick.read f w = .ok a w := edit_eq_ok (Edit.read_eq_ok h)

end Tick

/-! ## Spawners -/

namespace Component

/-- The frames from one spawn to the next. -/
def spawnInterval (p : Properties) : Int := Number.clamp 1 255 (p.rounded "interval" 60)

theorem spawnInterval_mem (p : Properties) : 1 ≤ spawnInterval p ∧ spawnInterval p ≤ 255 :=
  Number.clamp_mem (by decide) _

theorem ofNat_spawnInterval_ne (p : Properties) : UInt8.ofNat (spawnInterval p).toNat ≠ 0 := by
  obtain ⟨hlow, hhigh⟩ := spawnInterval_mem p
  intro hzero
  have htoNat := congrArg UInt8.toNat hzero
  rw [UInt8.toNat_ofNat_of_lt' (by change (spawnInterval p).toNat < 256; omega)] at htoNat
  change (spawnInterval p).toNat = 0 at htoNat
  omega

/-- A byte holds the interval as it is. -/
theorem clamp_spawnInterval (p : Properties) :
    Number.clamp 0 255 (Number.clamp 1 255 (p.rounded "interval" 60)) = spawnInterval p := by
  obtain ⟨hlow, hhigh⟩ := spawnInterval_mem p
  exact Number.clamp_eq_self (Int.le_trans (by decide) hlow) hhigh

variable {slot : Nat} {p : Properties} {env : Surroundings} {w : World}

/-- The memory after a spawner has put an entity into a slot and begun its count anew. -/
def spawnerMemory (m : Memory) (slot : Nat) (p : Properties) (env : Surroundings) (type : Nat)
    (position : Int × Int) (q : Nat) : Memory :=
  (Edit.fresh m q type (Number.wrapInt64 (position.1 + p.rounded "offsetX" 0))
    (Number.wrapInt64 (position.2 + p.rounded "offsetY" 0)) (env.script.freshHealth type)).setByte
    (slot + (scratchOffset + env.scratch.start))
      (.ofNat (spawnInterval p).toNat)

/-- A spawner that writes its count writes to its own slot. -/
theorem within_setCount (slot : Nat) (s : Scratch) (value : Int) (w : World) :
    Within (slotData slot) w.memory
      (leaves (Tick.edit (Edit.setScratch slot s .int8 0 value)) w).memory := by
  rw [Tick.leaves_edit]
  exact Edit.setScratch_slotData slot s .int8 0 value w.memory

/-- A spawner that begins its count anew sets its scratch byte to the interval. -/
theorem memory_beginCount {s : Scratch} {m : Memory} (hslot : slot ∈ slotAddresses m.size)
    (hlacks : ¬ s.Lacks 1) :
    (leaves (Tick.edit (Edit.setScratch slot s .int8 0
      (Number.clamp 1 255 (p.rounded "interval" 60)))) { w with memory := m }).memory =
      m.setByte (slot + (scratchOffset + s.start)) (.ofNat (spawnInterval p).toNat) := by
  rw [Tick.leaves_edit, leaves_of_ok (Edit.setScratch_eq_ok hslot hlacks _), clamp_spawnInterval]

/-- A spawner that knows its entity and has a scratch byte counts, or it spawns. -/
theorem spawner_of_known {name : String} {type : Nat} (hslot : slot ∈ slotAddresses w.memory.size)
    (hlacks : ¬ env.scratch.Lacks 1) (hname : p.text? "entity" = some name)
    (htype : env.script.typeId? name = some type) :
    Within (slotData slot) w.memory (leaves (spawner slot p env) w).memory ∨
      ∃ position q, w.memory.position slot = .ok position ∧ w.memory.freeSlot? = some q ∧
        (leaves (spawner slot p env) w).memory =
          spawnerMemory w.memory slot p env type position q := by
  obtain ⟨stored, hstored⟩ : ∃ stored, w.memory.scratch slot env.scratch .int8 0 = .ok stored :=
    ⟨_, (Memory.scratch_eq_fetchInt (mem_slotAddresses.mp hslot).1 (Scratch.not_refused hlacks)).trans
      (Memory.fetchInt_eq_ok (Scratch.fits hslot .int8 (Scratch.not_refused hlacks)))⟩
  unfold spawner
  rw [hname]
  dsimp only
  rw [htype]
  dsimp only
  rw [leaves_bind_of_ok (Tick.read_eq_ok hstored)]
  generalize (if stored = 0 then _ else stored) - 1 = remaining
  by_cases hdue : remaining = 0
  · obtain ⟨position, hposition⟩ := Memory.exists_position_eq_ok hslot
    rw [if_pos hdue, leaves_bind_of_ok (Tick.read_eq_ok hposition)]
    cases hfree : w.memory.freeSlot? with
    | none =>
      rw [leaves_bind_of_ok (Tick.edit_eq_ok (Edit.spawn_of_full hfree _ _ _ _))]
      exact .inl (within_setCount slot env.scratch _ w)
    | some q =>
      rw [leaves_bind_of_ok (Tick.edit_eq_ok (Edit.spawn_of_free hfree _ _ _ _))]
      refine .inr ⟨position, q, hposition, rfl, memory_beginCount ?_ hlacks⟩
      rwa [(Edit.within_fresh w.memory _ _ _ _).size]
  · rw [if_neg hdue]
    exact .inl (within_setCount slot env.scratch _ w)

/-- A spawner writes to its own slot, or it puts a fresh entity into the first free slot and then
begins its count anew. -/
theorem spawner_cases (hslot : slot ∈ slotAddresses w.memory.size)
    (hstart : env.scratch.start ≤ PixelScene.scratchBytes) :
    Within (slotData slot) w.memory (leaves (spawner slot p env) w).memory ∨
      ∃ name type position q, p.text? "entity" = some name ∧
        env.script.typeId? name = some type ∧ w.memory.position slot = .ok position ∧
        w.memory.freeSlot? = some q ∧ env.scratch.start < 4 ∧
        (leaves (spawner slot p env) w).memory =
          spawnerMemory w.memory slot p env type position q := by
  by_cases hmissing : env.scratch.Refused 0 1 ∨ ¬ KnowsEntity p env
  · obtain ⟨e, herror⟩ := (spawner_failsIff hslot p env w rfl).1 hmissing
    rw [leaves_of_error herror]
    exact .inl (.refl _ _)
  · obtain ⟨hrefused, hknows⟩ := not_or.mp hmissing
    have hbytes : PixelScene.scratchBytes = 4 := rfl
    have hlacks := Scratch.not_lacks (by decide) (by omega) hrefused
    obtain ⟨name, type, hname, htype⟩ := Classical.not_not.mp hknows
    rcases spawner_of_known hslot hlacks hname htype with
      hwithin | ⟨position, q, hposition, hfree, heq⟩
    · exact .inl hwithin
    · have hstart : env.scratch.start < 4 := by
        unfold Scratch.Lacks at hlacks
        omega
      exact .inr ⟨name, type, position, q, hname, htype, hposition, hfree, hstart, heq⟩

/-- What a spawner makes for an entity at some place: an entity of the type, with the saturated
place and health. -/
def spawned (p : Properties) (script : Script) (type : Nat) (position : Int × Int) : List UInt8 :=
  freshContent type (Number.wrapInt64 (position.1 + p.rounded "offsetX" 0))
    (Number.wrapInt64 (position.2 + p.rounded "offsetY" 0)) (script.freshHealth type)

section SpawnerMemory

variable {m : Memory} {type : Nat} {position : Int × Int} {q : Nat} (hpool : IsSlot slot)
  (hq : IsSlot q) (hstart : env.scratch.start < 4)

include hpool hq hstart

/-- A spawner makes no slot active but the one that it fills. -/
theorem byte_spawnerMemory {q' : Nat} (hq' : IsSlot q') (hne : q ≠ q') :
    (spawnerMemory m slot p env type position q').byte q = m.byte q := by
  rw [spawnerMemory, (Memory.within_setByte _ _ _).byte q,
    (Edit.within_fresh m _ _ _ _).byte q (hq.add_notMem_slotCells hq' hne 0 (by decide))]
  intro hcell
  have hcell : q = slot + (scratchOffset + env.scratch.start) := hcell
  have hscratch : scratchOffset = 12 := rfl
  have := isSlot_iff.mp hq
  have := isSlot_iff.mp hpool
  omega

/-- The slot that a spawner fills holds a fresh entity, but for the count of the spawner when the
slot is its own. -/
theorem slotContent_spawnerMemory (hfits : q + 16 ≤ m.size) (htype : type ≤ 255) :
    (spawnerMemory m slot p env type position q).slotContent q =
      if q = slot then
        (spawned p env.script type position).set (scratchOffset + env.scratch.start)
          (.ofNat (spawnInterval p).toNat)
      else spawned p env.script type position := by
  have hscratch : scratchOffset = 12 := rfl
  have hcontent : (Edit.fresh m q type _ _ _).slotContent q = spawned p env.script type position :=
    Edit.slotContent_fresh hfits htype _ _ _
  rw [spawnerMemory]
  by_cases hown : q = slot
  · subst hown
    rw [if_pos rfl, Memory.slotContent_setByte (by omega), hcontent]
    rwa [(Edit.within_fresh m _ _ _ _).size]
  · rw [if_neg hown, ← hcontent]
    refine Memory.slotContent_eq_of_within (Memory.within_setByte _ _ _) fun i hi hcell => ?_
    have hcell : q + i = slot + (scratchOffset + env.scratch.start) := hcell
    rcases hq.apart hpool hown with h | h <;> omega

end SpawnerMemory

/-- A slot that a spawner makes active holds a fresh entity, but for the count of the spawner when
the slot is its own. -/
theorem spawner_slotContent (hslot : slot ∈ slotAddresses w.memory.size)
    (hpart : env.scratch.start ≤ PixelScene.scratchBytes) {q : Nat} (hq : IsSlot q)
    (hfree : w.memory.byte q = 0) (hactive : (leaves (spawner slot p env) w).memory.byte q ≠ 0) :
    ∃ name type position, p.text? "entity" = some name ∧ env.script.typeId? name = some type ∧
      w.memory.position slot = .ok position ∧ env.scratch.start < 4 ∧
      (leaves (spawner slot p env) w).memory.slotContent q =
        if q = slot then
          (spawned p env.script type position).set (scratchOffset + env.scratch.start)
            (.ofNat (spawnInterval p).toNat)
        else spawned p env.script type position := by
  obtain ⟨hpool, -⟩ := mem_slotAddresses.mp hslot
  rcases @spawner_cases slot p env w hslot hpart with
    hwithin | ⟨name, type, position, q', hname, htype, hposition, hq', hstart, heq⟩
  · -- the data of a slot does not tell whether it is active
    have hsame := hwithin.byte q fun hmem => hq.active_notMem_poolData ⟨slot, hmem⟩
    exact absurd (hsame.trans hfree) hactive
  · obtain ⟨hpool', hfits, -⟩ := Memory.freeSlot?_eq_some hq'
    rw [heq] at hactive ⊢
    obtain rfl : q = q' := by
      by_contra hne
      exact hactive ((byte_spawnerMemory hpool hq hstart hpool' hne).trans hfree)
    have htypeId := (Script.typeId?_mem htype).2.trans env.script.typeCount_le
    exact ⟨name, type, position, hname, htype, hposition, hstart,
      slotContent_spawnerMemory hpool hq hstart hfits htypeId⟩

end Component

/-! ## Turns -/

/-- What some components leave that run at the beginning of a turn. -/
def Turn.reached (turn : Turn) (s : Simulation) (held : Held) (geometry : Geometry)
    (components : List (String × Properties)) : World × Report :=
  components.foldl
    (s.runComponent turn.type (held.consult turn.type.bindings) geometry turn.slot) turn.start

theorem freshContent_scratch (type : Nat) (x y health : Int) {k : Nat} (hk : k < 4) :
    (freshContent type x y health)[scratchOffset + k]? = some 0 := by
  match k, hk with
  | 0, _ | 1, _ | 2, _ | 3, _ => rfl

/-- A fresh entity has no count in it. -/
theorem freshContent_set_ne (type : Nat) (x y health : Int) {k : Nat} (hk : k < 4) {value : UInt8}
    (hvalue : value ≠ 0) : (freshContent type x y health).set (scratchOffset + k) value ≠
      freshContent type x y health := by
  intro heq
  have hzero := freshContent_scratch type x y health hk
  have hset := List.getElem?_set_self (List.getElem?_eq_some_iff.mp hzero).1 (a := value)
  rw [heq, hzero] at hset
  exact hvalue (Option.some.inj hset).symm

namespace Simulation

/-- The parts of a type begin in the slot or right behind it. -/
theorem start_le_of_mem_types {script : Script} {registry : Registry} {hosts : List KeyBindings}
    {t : EntityType} (h : t ∈ (prepared script registry hosts).types) (id : String) :
    (t.scratchOf id).start ≤ scratchBytes := by
  have hmem := List.mem_map_of_mem (f := EntityType.scratch) h
  rw [prepared_types_map script registry hosts _ fun _ _ => rfl] at hmem
  obtain ⟨e, -, heq⟩ := List.mem_map.mp hmem
  rw [EntityType.scratchOf, ← heq]
  exact EntityType.start_le registry _ e.1 e.2 id

/--
**A spawned entity is fresh exactly if its slot is not that of the spawner.** This holds whenever a
spawner makes a slot active in any turn of any tick. In its own slot, the entity has the interval of
the spawner in a scratch byte.
-/
theorem spawned_fresh_iff (script : Script) (hosts : List KeyBindings) (held : Held)
    (geometry : Geometry) (w : World) :
    let s := ofBuiltins script hosts
    ∀ turn ∈ s.turns held geometry w, ∀ before p after,
      (turn.components s).entries = before ++ ("Spawner", p) :: after →
      let start := (turn.reached s held geometry before).1.memory
      let done := (turn.reached s held geometry (before ++ [("Spawner", p)])).1.memory
      ∀ q, IsSlot q → start.byte q = 0 → done.byte q ≠ 0 →
        ∃ name type position, p.text? "entity" = some name ∧ script.typeId? name = some type ∧
          start.position turn.slot = .ok position ∧
          let fresh := Component.spawned p script type position
          (done.slotContent q = fresh ↔ q ≠ turn.slot) ∧
          (q = turn.slot → done.slotContent q =
            fresh.set (scratchOffset + (turn.type.scratchOf "Spawner").start)
              (.ofNat (Component.spawnInterval p).toNat)) := by
  intro s turn hturn before p after _ start done q hq hfree hactive
  have hkeeps : s.registry.KeepsSize := by
    rw [ofBuiltins_registry]
    exact Registry.builtins_keepsSize
  have hslot : turn.slot ∈ slotAddresses start.size := by
    have hsize : SameSize turn.start.1.memory start := foldl_memory_keeps
      (fun wr c _ => size_runComponent hkeeps turn.type turn.slot wr c) turn.start
    have hslot := slot_mem_of_mem_turns hturn
    rwa [← Takes.size_start hkeeps (takes_turns w) turn hturn, ← hsize] at hslot
  have hpart : (turn.type.scratchOf "Spawner").start ≤ scratchBytes :=
    start_le_of_mem_types (type_mem_of_mem_turns hturn) "Spawner"
  have hspawner : s.registry.get? "Spawner" = some ⟨Component.spawner, none, 1⟩ := by
    rw [ofBuiltins_registry]
    rfl
  have hdone : done = (leaves (Component.spawner turn.slot p ⟨held.consult turn.type.bindings,
      geometry, s.script, turn.type.scratchOf "Spawner"⟩)
        (turn.reached s held geometry before).1).memory := by
    refine Eq.trans ?_ (memory_runComponent (c := ("Spawner", p)) hspawner _)
    exact congrArg (fun wr : World × Report => wr.1.memory) (List.foldl_append ..)
  rw [ofBuiltins_script] at hdone
  rw [hdone] at hactive ⊢
  obtain ⟨name, type, position, hname, htype, hposition, hstart, hcontent⟩ :=
    Component.spawner_slotContent hslot hpart hq hfree hactive
  refine ⟨name, type, position, hname, htype, hposition, ⟨fun hfresh hown => ?_, fun hother => ?_⟩,
    fun hown => ?_⟩
  · rw [hcontent, if_pos hown] at hfresh
    exact freshContent_set_ne _ _ _ _ hstart (Component.ofNat_spawnInterval_ne p) hfresh
  · rw [hcontent, if_neg hother]
  · rw [hcontent, if_pos hown]

/-- A nest that is ended by the first of its components, and an egg. -/
def nestSource : List Char :=
  ("Entity.Egg:\n  Visual: egg\n" ++
    "Entity.Nest:\n  Lifetime:\n    frames: \"0\"\n" ++
    "  Spawner:\n    entity: Egg\n    interval: \"1\"\n").toList

/-- The script of `nestSource`. -/
def nestScript : Script :=
  { Script.empty with
    entities := .ofList [("Egg", { Entity.empty with visual := some "egg" }),
      ("Nest", { Entity.empty with components := .ofList [
        ("Lifetime", .ofList [("frames", .text "0")]),
        ("Spawner", .ofList [("entity", .text "Egg"), ("interval", .text "1")])] })] }

set_option maxRecDepth 20000 in
theorem parse_nestSource : Script.parse nestSource = .ok nestScript := by
  have hread : Node.read nestSource = .ok (.map
      [("Entity.Egg", .map [("Visual", .text "egg")]),
        ("Entity.Nest", .map [("Lifetime", .map [("frames", .text "0")]),
          ("Spawner", .map [("entity", .text "Egg"), ("interval", .text "1")])])]) := by cbv
  rw [Script.parse, hread]
  rfl

/-- The world with a nest in it that has some frames left to live; with zero its count has not
begun. -/
def nestWorld (left : UInt8) : World :=
  let w := (ofBuiltins nestScript []).run [.spawn "Nest" 10 20] (World.start 12 12 0)
  { w with memory := w.memory.setByte 524 left }

/-- A nest runs its lifetime and then its spawner. -/
theorem entries_of_keys {t : Table Properties} (h : t.keys = ["Lifetime", "Spawner"]) :
    t.entries = t.entries.take 1 ++ [("Spawner", (t.entries.getD 1 ("", ∅)).2)] := by
  obtain ⟨first, more, hentries, -, hmore⟩ := List.map_eq_cons_iff.mp h
  obtain ⟨⟨id, p⟩, rfl, rfl⟩ := List.map_eq_singleton_iff.mp hmore
  rw [hentries]
  rfl

/-- What can be seen of a slot around the spawner in the turn of a nest. -/
structure NestView where
  keys : List String
  slot : Nat
  entity : Option String
  position : Option (Int × Int)
  before : UInt8
  after : UInt8
  content : List UInt8
deriving DecidableEq

/-- The view of a slot in a turn. -/
def nestView (q : Nat) (turn : Turn) : NestView :=
  let s := ofBuiltins nestScript []
  let t := turn.components s
  let start := (turn.reached s Held.nothing Geometry.empty (t.entries.take 1)).1.memory
  let done := (turn.reached s Held.nothing Geometry.empty t.entries).1.memory
  { keys := t.keys
    slot := turn.slot
    entity := (t.entries.getD 1 ("", ∅)).2.text? "entity"
    position := (start.position turn.slot).toOption
    before := start.byte q
    after := done.byte q
    content := done.slotContent q }

/-- The turn of a nest that has a view of a slot. -/
theorem exists_turn_of_nestView {left : UInt8} {q : Nat} {view : NestView}
    (h : view ∈ ((ofBuiltins nestScript []).turns Held.nothing Geometry.empty (nestWorld left)).map
      (nestView q)) (hkeys : view.keys = ["Lifetime", "Spawner"]) :
    let s := ofBuiltins nestScript []
    ∃ turn ∈ s.turns Held.nothing Geometry.empty (nestWorld left), ∃ before p,
      (turn.components s).entries = before ++ [("Spawner", p)] ∧
      let start := (turn.reached s Held.nothing Geometry.empty before).1.memory
      let done := (turn.reached s Held.nothing Geometry.empty (before ++ [("Spawner", p)])).1.memory
      turn.slot = view.slot ∧ p.text? "entity" = view.entity ∧
        (start.position turn.slot).toOption = view.position ∧ start.byte q = view.before ∧
        done.byte q = view.after ∧ done.slotContent q = view.content := by
  obtain ⟨turn, hturn, rfl⟩ := List.mem_map.mp h
  have hentries := entries_of_keys hkeys
  refine ⟨turn, hturn, _, _, hentries, ?_⟩
  rw [← hentries]
  exact ⟨rfl, rfl, rfl, rfl, rfl, rfl⟩

/-- A nest that lives on puts its egg beside itself. -/
theorem spawned_fresh_iff_nest :
    let s := ofBuiltins nestScript []
    ∃ turn ∈ s.turns Held.nothing Geometry.empty (nestWorld 5), ∃ before p,
      (turn.components s).entries = before ++ [("Spawner", p)] ∧
      let start := (turn.reached s Held.nothing Geometry.empty before).1.memory
      let done := (turn.reached s Held.nothing Geometry.empty (before ++ [("Spawner", p)])).1.memory
      IsSlot 528 ∧ start.byte 528 = 0 ∧ done.byte 528 ≠ 0 ∧ turn.slot = 512 ∧
        ∃ name type position, p.text? "entity" = some name ∧ nestScript.typeId? name = some type ∧
          start.position turn.slot = .ok position ∧
          done.slotContent 528 = Component.spawned p nestScript type position := by
  intro s
  have hview : (⟨["Lifetime", "Spawner"], 512, some "Egg", some (10, 20), 0, 1,
      [1, 1, 0, 10, 0, 20, 0, 0, 0, 0, 100, 0, 0, 0, 0, 0]⟩ : NestView) ∈
        (s.turns Held.nothing Geometry.empty (nestWorld 5)).map (nestView 528) := by decide +kernel
  obtain ⟨turn, hturn, before, p, hentries, hslot, -, -, hfree, hactive, -⟩ :=
    exists_turn_of_nestView hview rfl
  have hpool : IsSlot 528 := isSlot_iff.mpr (by decide)
  have hdone := hactive.trans_ne (by decide : (1 : UInt8) ≠ 0)
  refine ⟨turn, hturn, before, p, hentries, hpool, hfree, hdone, hslot, ?_⟩
  obtain ⟨name, type, position, hname, htype, hposition, hfresh, -⟩ :=
    spawned_fresh_iff nestScript [] Held.nothing Geometry.empty (nestWorld 5) turn hturn before p []
      hentries 528 hpool hfree hdone
  refine ⟨name, type, position, hname, htype, hposition, hfresh.mpr ?_⟩
  rw [hslot]
  decide

/-- A nest that is ended before it puts an egg puts it into its own slot, with the interval in the
second scratch byte. -/
theorem spawned_in_own_slot : Script.parse nestSource = .ok nestScript ∧
    let s := ofBuiltins nestScript []
    ∃ turn ∈ s.turns Held.nothing Geometry.empty (nestWorld 0), ∃ before p,
      (turn.components s).entries = before ++ [("Spawner", p)] ∧
      let start := (turn.reached s Held.nothing Geometry.empty before).1.memory
      let done := (turn.reached s Held.nothing Geometry.empty (before ++ [("Spawner", p)])).1.memory
      IsSlot 512 ∧ start.byte 512 = 0 ∧ done.byte 512 ≠ 0 ∧ turn.slot = 512 ∧
        p.text? "entity" = some "Egg" ∧ nestScript.typeId? "Egg" = some 1 ∧
        (start.position 512).toOption = some (10, 20) ∧
        done.slotContent 512 = [1, 1, 0, 10, 0, 20, 0, 0, 0, 0, 100, 0, 0, 1, 0, 0] ∧
        done.slotContent 512 ≠ freshContent 1 10 20 (nestScript.freshHealth 1) := by
  refine ⟨parse_nestSource, ?_⟩
  intro s
  have hview : (⟨["Lifetime", "Spawner"], 512, some "Egg", some (10, 20), 0, 1,
      [1, 1, 0, 10, 0, 20, 0, 0, 0, 0, 100, 0, 0, 1, 0, 0]⟩ : NestView) ∈
        (s.turns Held.nothing Geometry.empty (nestWorld 0)).map (nestView 512) := by decide +kernel
  obtain ⟨turn, hturn, before, p, hentries, hslot, hentity, hposition, hfree, hactive, hcontent⟩ :=
    exists_turn_of_nestView hview rfl
  have hslot : turn.slot = 512 := hslot
  rw [hslot] at hposition
  refine ⟨turn, hturn, before, p, hentries, isSlot_iff.mpr (by decide), hfree,
    hactive.trans_ne (by decide), hslot, hentity, by decide +kernel, hposition, hcontent, ?_⟩
  rw [hcontent]
  decide +kernel

end Simulation

end PixelScene
