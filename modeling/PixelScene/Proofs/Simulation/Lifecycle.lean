import PixelScene.Proofs.Simulation.History
import PixelScene.Proofs.Simulation.WriteSet

/-!
# The life of entities

A slot is free or holds an entity of a type that the script declares. It is filled by a spawn, and
only a `Health` or `Lifetime` component that runs in its own turn frees it again.

* `Memory.Sound`: what holds of the slots of every memory that a run reaches.
* `Spares n ending m m'`: `m'` is sound if `m` is, and an entity outside of `ending` that is active
  in `m` is so in `m'`, with the same type. One lemma for each kind of write says what it spares.
* `Simulation.lifecycle`: soundness, and who frees slots, over every run from a memory of zeros.

The runs start from a memory of zeros, so every entity in it was put there by a run. `Spares` is the
relation that the rules of `PixelScene.Proofs.Change` carry along: which entities may end is a set,
empty for everything but the two components that end their own. Whose turn it is, and of which type,
is that of the beginning of the turn.
-/

namespace PixelScene

open Memory (Within)

/-! ## Sound memories -/

namespace Memory

/-- The number of the type of the entity in a slot. -/
def typeNumber (m : Memory) (slot : Nat) : Nat := (m.byte (slot + 1)).toNat

/-- The first byte of every slot is zero or one, and the type of an active entity is one of the
first `n`. -/
structure Sound (n : Nat) (m : Memory) : Prop where
  active : ∀ slot, IsSlot slot → m.byte slot = 0 ∨ m.byte slot = 1
  type : ∀ slot, IsSlot slot → m.byte slot ≠ 0 → 1 ≤ m.typeNumber slot ∧ m.typeNumber slot ≤ n

theorem sound_zeros (n size : Nat) : (zeros size).Sound n :=
  ⟨fun slot _ => .inl (byte_zeros size slot), fun slot _ h => absurd (byte_zeros size slot) h⟩

end Memory

open Memory (Sound)

/-! ## What a change spares -/

/-- Soundness is kept, and entities that are active stay so with their types, unless they are
ending. -/
structure Spares (n : Nat) (ending : Set Nat) (m m' : Memory) : Prop where
  sound : m.Sound n → m'.Sound n
  lasts : ∀ slot, IsSlot slot → slot ∉ ending → m.byte slot ≠ 0 →
    m'.byte slot ≠ 0 ∧ m'.typeNumber slot = m.typeNumber slot

section Spares

variable {n : Nat} {ending : Set Nat}

instance : IsPreorder Memory (Spares n ending) where
  refl _ := ⟨id, fun _ _ _ h => ⟨h, rfl⟩⟩
  trans _ _ _ h h' := by
    refine ⟨h'.sound ∘ h.sound, fun slot hslot hending hactive => ?_⟩
    obtain ⟨hstill, htype⟩ := h.lasts slot hslot hending hactive
    obtain ⟨hstill', htype'⟩ := h'.lasts slot hslot hending hstill
    exact ⟨hstill', htype'.trans htype⟩

/-- Writes that touch no first or second byte of a slot spare every entity. -/
theorem spares_of_within {cells : Set Nat} {m m' : Memory}
    (hcells : ∀ slot, IsSlot slot → slot ∉ cells ∧ slot + 1 ∉ cells) (h : Within cells m m') :
    Spares n ending m m' := by
  have hactive : ∀ slot, IsSlot slot → m'.byte slot = m.byte slot :=
    fun slot hslot => h.byte slot (hcells slot hslot).1
  have htype : ∀ slot, IsSlot slot → m'.typeNumber slot = m.typeNumber slot :=
    fun slot hslot => congrArg UInt8.toNat (h.byte (slot + 1) (hcells slot hslot).2)
  refine ⟨fun hsound => ⟨fun slot hslot => ?_, fun slot hslot hlive => ?_⟩,
    fun slot hslot _ hlive => ⟨?_, htype slot hslot⟩⟩
  · rw [hactive slot hslot]
    exact hsound.active slot hslot
  · rw [hactive slot hslot] at hlive
    rw [htype slot hslot]
    exact hsound.type slot hslot hlive
  · rw [hactive slot hslot]
    exact hlive

theorem spares_of_poolData {m m' : Memory} (h : Within poolData m m') : Spares n ending m m' :=
  spares_of_within (fun _ hslot => ⟨hslot.active_notMem_poolData, hslot.type_notMem_poolData⟩) h

/-- Writes outside of the slots spare every entity. -/
theorem spares_of_disjoint {cells : Set Nat} (hcells : Disjoint cells poolCells) {m m' : Memory}
    (h : Within cells m m') : Spares n ending m m' := by
  refine spares_of_within (fun slot hslot => ?_) h
  have hnot : ∀ i, i ∈ slotCells slot → i ∉ cells := fun i hi hcell =>
    Set.disjoint_left.mp hcells hcell (hslot.slotCells_subset hi)
  exact ⟨hnot slot ⟨le_refl _, Nat.lt_add_of_pos_right (by decide)⟩,
    hnot (slot + 1) ⟨Nat.le_add_right _ _, Nat.add_lt_add_left (by decide) _⟩⟩

/-- What changes one slot only spares the entities in the others. -/
theorem spares_of_slot {address : Nat} {m m' : Memory} (haddress : IsSlot address)
    (h : Within (slotCells address) m m') (hending : m.byte address ≠ 0 → address ∈ ending)
    (hsound : m'.byte address = 0 ∨ m'.byte address = 1 ∧
      1 ≤ m'.typeNumber address ∧ m'.typeNumber address ≤ n) : Spares n ending m m' := by
  have hother : ∀ slot, IsSlot slot → slot ≠ address →
      m'.byte slot = m.byte slot ∧ m'.typeNumber slot = m.typeNumber slot := by
    intro slot hslot hne
    have hnot := hslot.add_notMem_slotCells haddress hne
    exact ⟨h.byte slot (hnot 0 (by decide)),
      congrArg UInt8.toNat (h.byte (slot + 1) (hnot 1 (by decide)))⟩
  refine ⟨fun hm => ⟨fun slot hslot => ?_, fun slot hslot hlive => ?_⟩,
    fun slot hslot hspared hlive => ?_⟩
  · by_cases heq : slot = address
    · subst heq
      exact hsound.imp_right And.left
    · rw [(hother slot hslot heq).1]
      exact hm.active slot hslot
  · by_cases heq : slot = address
    · subst heq
      exact (hsound.resolve_left hlive).2
    · rw [(hother slot hslot heq).1] at hlive
      rw [(hother slot hslot heq).2]
      exact hm.type slot hslot hlive
  · have hne : slot ≠ address := fun heq => hspared (heq ▸ hending (heq ▸ hlive))
    rw [(hother slot hslot hne).1]
    exact ⟨hlive, (hother slot hslot hne).2⟩

namespace Edit

/-- Ending an entity spares the others. -/
theorem setActive_spares {slot : Nat} (hending : slot ∈ ending) :
    Keeps (Spares n ending) (setActive slot false) := by
  intro m
  have hwithin := setField_within slot .active 0 m
  by_cases hslot : IsSlot slot
  · refine spares_of_slot hslot (hwithin.mono ?_) (fun _ => hending) (.inl ?_)
    · rintro i ⟨-, hlow, hhigh⟩
      exact ⟨hlow, hhigh.trans_le (Nat.add_le_add_left (by decide) slot)⟩
    · by_cases hsize : slot < m.size
      · rw [setActive, leaves_of_ok (setField_eq_ok (f := .active) hslot hsize _)]
        exact Memory.byte_putField (f := .active) rfl hsize _
      · exact Memory.byte_of_size_le (hwithin.size.trans_le (not_lt.mp hsize))
  · have hnowhere : Within ∅ m (leaves (setActive slot false) m) :=
      hwithin.mono fun i hi => absurd hi.1 hslot
    exact spares_of_within (fun _ _ => ⟨id, id⟩) hnowhere

/-- A fresh entity comes into a free slot, so it spares every entity. -/
theorem spawn_spares (hn : n ≤ 255) {type : Nat} (htype : 1 ≤ type ∧ type ≤ n) (x y health : Int) :
    Keeps (Spares n ending) (spawn type x y health) := by
  intro m
  cases hfree : m.freeSlot? with
  | none =>
    rw [leaves_of_ok (spawn_of_full hfree type x y health)]
    exact Std.Refl.refl m
  | some address =>
    rw [leaves_of_ok (spawn_of_free hfree type x y health)]
    obtain ⟨hslot, hsize, hzero⟩ := Memory.freeSlot?_eq_some hfree
    refine spares_of_slot hslot (within_fresh m type x y health) (fun hlive => absurd hzero hlive)
      (.inr ⟨active_fresh (by omega) type x y health, ?_⟩)
    rw [Memory.typeNumber, type_fresh (by omega) (by omega)]
    exact htype

end Edit

end Spares

/-! ## Types of a script -/

namespace Script

/-- The number of entities that have a type number. -/
def typeCount (script : Script) : Nat := min maxTypes script.entities.size

theorem typeCount_le (script : Script) : script.typeCount ≤ 255 := Nat.min_le_left _ _

theorem typeId?_mem {script : Script} {name : String} {type : Nat}
    (h : script.typeId? name = some type) : 1 ≤ type ∧ type ≤ script.typeCount := by
  unfold typeId? at h
  split at h
  · rename_i i hposition
    split at h
    · rename_i hmax
      have hsize : i < script.entities.entries.length :=
        (List.findIdx?_eq_some_iff_getElem.mp hposition).1
      rw [← Option.some.inj h]
      refine ⟨Nat.le_add_left 1 i, le_min hmax ?_⟩
      exact hsize
    · exact absurd h nofun
  · exact absurd h nofun

/-- The components of the type of a number: those of its entity and of all its states. -/
def componentsOf (script : Script) (type : Nat) : List String :=
  match script.entityOfType? type with
  | some (_, entity) => entity.allComponents.keys
  | none => []

/-- The type of a number attaches `Health` or `Lifetime`. -/
def Mortal (script : Script) (type : Nat) : Prop :=
  "Health" ∈ script.componentsOf type ∨ "Lifetime" ∈ script.componentsOf type

end Script

theorem allows_spares {script : Script} {slot : Nat} {ids : List String} {ending : Set Nat}
    (hending : "Health" ∈ ids ∨ "Lifetime" ∈ ids → slot ∈ ending) :
    Allows (Spares script.typeCount ending) script slot ids where
  data _ _ := spares_of_poolData
  shaking _ _ _ := by
    refine spares_of_disjoint (Set.disjoint_left.mpr ?_)
    rintro i ⟨-, hhigh⟩ ⟨hlow, -⟩
    exact absurd (lt_of_lt_of_le hhigh hlow) (lt_irrefl _)
  ending h := Edit.setActive_spares (hending h)
  spawning _ _ _ htype _ _ :=
    Edit.spawn_spares script.typeCount_le (Script.typeId?_mem htype) _ _ _

/-- An entity whose type attaches neither `Health` nor `Lifetime` stays. -/
def Lasts (script : Script) (m m' : Memory) : Prop :=
  ∀ slot, IsSlot slot → m.byte slot ≠ 0 → ¬ script.Mortal (m.typeNumber slot) →
    m'.byte slot ≠ 0 ∧ m'.typeNumber slot = m.typeNumber slot

instance (script : Script) : IsPreorder Memory (Lasts script) where
  refl _ := fun _ _ hlive _ => ⟨hlive, rfl⟩
  trans _ _ _ h h' := by
    intro slot hslot hlive hmortal
    obtain ⟨hstill, htype⟩ := h slot hslot hlive hmortal
    obtain ⟨hstill', htype'⟩ := h' slot hslot hstill (htype ▸ hmortal)
    exact ⟨hstill', htype'.trans htype⟩

theorem Spares.toLasts {n : Nat} {script : Script} {m m' : Memory}
    (h : Spares n {slot | m.byte slot ≠ 0 ∧ script.Mortal (m.typeNumber slot)} m m') :
    Lasts script m m' :=
  fun slot hslot hlive hmortal => h.lasts slot hslot (fun hending => hmortal hending.2) hlive

/-- A `Health` or `Lifetime` component ends the entity in a slot: it runs in the turn of this slot,
the slot is active when the turn begins, and the component is attached to the type that the turn is
for, which is the type of the slot at that time. -/
def Cause.Ends (script : Script) (slot : Nat) : Cause → Prop
  | .component start turn id => turn = slot ∧ (id = "Health" ∨ id = "Lifetime") ∧
      start.byte slot ≠ 0 ∧ id ∈ script.componentsOf (start.typeNumber slot)
  | _ => False

/-- A moment keeps the memory sound and ends no entity but by a component that may. -/
structure Moment.Lawful (script : Script) (moment : Moment) : Prop where
  sound : moment.before.Sound script.typeCount → moment.after.Sound script.typeCount
  ends : ∀ slot, IsSlot slot → moment.before.byte slot ≠ 0 → moment.after.byte slot = 0 →
    moment.cause.Ends script slot

namespace Simulation

/-! ## Whose turn it is -/

/-- In the turn of a slot, the slot is active and its type is that of the turn. -/
theorem typeAt?_eq_some {s : Simulation} {m : Memory} {slot : Nat} {t : EntityType}
    (h : s.typeAt? m slot = some t) : IsSlot slot ∧ m.byte slot ≠ 0 ∧ 1 ≤ m.typeNumber slot ∧
      s.types[m.typeNumber slot - 1]? = some t := by
  unfold typeAt? at h
  split at h
  · rename_i id hactive hid
    obtain ⟨hslot, hsize⟩ := Memory.isSlot_of_field_eq_ok hid
    have hsize : slot + 1 + 1 ≤ m.size := hsize
    rw [Memory.isActive_eq_ok hslot (by omega)] at hactive
    rw [Memory.typeId_eq_ok hslot (by omega)] at hid
    obtain rfl := Except.ok.inj hid
    split at h
    · exact absurd h nofun
    · rename_i hpos
      refine ⟨hslot, bne_iff_ne.mp (Except.ok.inj hactive), ?_, h⟩
      unfold Memory.typeNumber
      omega
  · exact absurd h nofun

/-- The components of the type of a turn are those that the script gives to the type's number. -/
theorem componentsOf_typeNumber {s : Simulation} (hs : s.Built) {m : Memory} {slot : Nat}
    {t : EntityType} (h : s.typeAt? m slot = some t) :
    s.script.componentsOf (m.typeNumber slot) = t.entity.allComponents.keys := by
  obtain ⟨-, -, hpos, htype⟩ := typeAt?_eq_some h
  have hentity := congrArg (·[m.typeNumber slot - 1]?) hs.entities
  simp only [List.getElem?_map, htype, Option.map_some] at hentity
  obtain ⟨e, he, hentity⟩ := Option.map_eq_some_iff.mp hentity.symm
  have hat : s.script.entities.at? (m.typeNumber slot - 1) = some e := by
    rw [List.getElem?_take] at he
    split at he
    · exact he
    · exact absurd he nofun
  rw [Script.componentsOf, Script.entityOfType?, if_neg (by omega), hat, ← hentity]

/-! ## Steps that spare every entity -/

section Steps

variable {s : Simulation} {ending : Set Nat}

theorem memory_spawn {entity : String} {type : Nat} (h : s.script.typeId? entity = some type)
    (x y : Int) (w : World) : (s.spawn entity x y w).2.memory =
      leaves (Edit.spawn type x y (s.script.freshHealth type)) w.memory := by
  unfold spawn leaves
  rw [h]
  dsimp only
  cases Edit.spawn type x y (s.script.freshHealth type) w.memory <;> rfl

theorem spawn_spares (entity : String) (x y : Int) (w : World) :
    Spares s.script.typeCount ending w.memory (s.spawn entity x y w).2.memory := by
  cases htype : s.script.typeId? entity with
  | none =>
    unfold spawn
    rw [htype]
    exact Std.Refl.refl w.memory
  | some type =>
    rw [memory_spawn htype]
    exact Edit.spawn_spares s.script.typeCount_le (Script.typeId?_mem htype) _ _ _ _

theorem spawnAll_spares (placements : List Placement) (w : World) :
    Spares s.script.typeCount ending w.memory (s.spawnAll placements w).2.2.memory := by
  induction placements generalizing w with
  | nil => exact Std.Refl.refl w.memory
  | cons p more ih =>
    have hspawn : Spares s.script.typeCount ending w.memory
        (s.spawn p.entity p.x p.y w).2.memory := spawn_spares p.entity p.x p.y w
    unfold spawnAll
    generalize s.spawn p.entity p.x p.y w = outcome at hspawn
    rcases outcome with ⟨(fault | (_ | slot)), w'⟩
    · exact IsTrans.trans _ _ _ hspawn (ih w')
    · exact hspawn
    · exact IsTrans.trans _ _ _ hspawn (ih w')

variable (hapart : ∀ v ∈ s.script.globals.values, Disjoint v.cells poolCells)

include hapart

/-- An action writes outside of the slots. -/
theorem runAction_spares (wr : World × Report) (a : Assignment) :
    Spares s.script.typeCount ending wr.1.memory (s.runAction wr a).1.memory := by
  refine spares_of_disjoint (Set.disjoint_left.mpr ?_) (s.runAction_within wr a)
  rintro i ⟨v, hget, hi⟩
  exact Set.disjoint_left.mp (hapart v (Table.mem_values_of_get? hget)) hi

theorem runEvents_spares (held : Held) (w : World) :
    Spares s.script.typeCount ending w.memory (s.runEvents held w).1.memory :=
  foldl_memory_keeps (fun wr _ _ => runEvent_keeps (fun wr a _ => runAction_spares hapart wr a) wr)
    (w, Report.empty)

end Steps

/-! ## Operations -/

section Operations

variable {s : Simulation} (hs : s.Built)
  (hapart : ∀ v ∈ s.script.globals.values, Disjoint v.cells poolCells)

include hs

/-- The turn of a slot ends its own entity at most, and this only if its type is mortal. -/
theorem runSlot_spares (held : Held) (geometry : Geometry) (wr : World × Report) (slot : Nat) :
    Spares s.script.typeCount
      {slot | wr.1.memory.byte slot ≠ 0 ∧ s.script.Mortal (wr.1.memory.typeNumber slot)}
      wr.1.memory (s.runSlot held geometry wr slot).1.memory := by
  refine runSlot_keeps hs.registry wr fun t ht => allows_spares fun hmortal => ?_
  rw [← componentsOf_typeNumber hs ht] at hmortal
  exact ⟨(typeAt?_eq_some ht).2.1, hmortal⟩

include hapart

theorem perform_lasts (w : World) (operation : Operation) :
    Lasts s.script w.memory (s.perform w operation).memory := by
  cases operation with
  | spawn entity x y => exact (spawn_spares entity x y w).toLasts
  | placements => exact (spawnAll_spares s.script.placements w).toLasts
  | tick held geometry =>
    have hentities := foldl_memory_keeps (l := slotAddresses (s.runEvents held w).1.memory.size)
      (fun wr slot _ => (runSlot_spares hs held geometry wr slot).toLasts) (s.runEvents held w)
    exact IsTrans.trans _ _ _ (runEvents_spares hapart held w).toLasts hentities

end Operations

/-! ## Moments -/

section Moments

variable {s : Simulation}

theorem lawful_of_spares_empty {cause : Cause} {m m' : Memory}
    (h : Spares s.script.typeCount ∅ m m') : Moment.Lawful s.script ⟨cause, m, m'⟩ :=
  ⟨h.sound, fun slot hslot hlive hdead =>
    absurd hdead (h.lasts slot hslot (Set.notMem_empty slot) hlive).1⟩

theorem lawful_placementMoments (placements : List Placement) (w : World) :
    ∀ moment ∈ s.placementMoments placements w, moment.Lawful s.script := by
  induction placements generalizing w with
  | nil => exact fun _ h => absurd h List.not_mem_nil
  | cons p more ih =>
    have hspawn : Moment.Lawful s.script
        ⟨.host, w.memory, (s.spawn p.entity p.x p.y w).2.memory⟩ :=
      lawful_of_spares_empty (spawn_spares p.entity p.x p.y w)
    unfold placementMoments spawnMoments
    generalize s.spawn p.entity p.x p.y w = outcome at hspawn
    rcases outcome with ⟨(fault | (_ | slot)), w'⟩
    · exact List.forall_mem_cons.mpr ⟨hspawn, ih w'⟩
    · exact List.forall_mem_cons.mpr ⟨hspawn, fun _ h => absurd h List.not_mem_nil⟩
    · exact List.forall_mem_cons.mpr ⟨hspawn, ih w'⟩

/-- The slot of a turn, when a component that may end its entity runs. -/
def endingSlots (slot : Nat) (id : String) : Set Nat :=
  {q | q = slot ∧ (id = "Health" ∨ id = "Lifetime")}

/-- In the turn of a slot, only `Health` and `Lifetime` end an entity, and it is that of
the turn. -/
theorem lawful_componentMoment (hs : s.Built) {start : Memory} {slot : Nat} {t : EntityType}
    (hturn : s.typeAt? start slot = some t) {c : String × Properties}
    (hc : c.1 ∈ t.entity.allComponents.keys) (held : Held) (geometry : Geometry)
    (wr : World × Report) : Moment.Lawful s.script ⟨.component start slot c.1, wr.1.memory,
      (s.runComponent t held geometry slot wr c).1.memory⟩ := by
  have hallows : Allows (Spares s.script.typeCount (endingSlots slot c.1)) s.script slot [c.1] :=
    allows_spares fun h => ⟨rfl, h.imp (fun h => (List.mem_singleton.mp h).symm)
      fun h => (List.mem_singleton.mp h).symm⟩
  have hspares : Spares s.script.typeCount (endingSlots slot c.1) wr.1.memory
      (s.runComponent t held geometry slot wr c).1.memory :=
    runComponent_keeps hs.registry hallows List.mem_cons_self wr
  refine ⟨hspares.sound, fun q hq hlive hdead => ?_⟩
  by_cases hending : q ∈ endingSlots slot c.1
  · obtain ⟨rfl, hname⟩ := hending
    refine ⟨rfl, hname, (typeAt?_eq_some hturn).2.1, ?_⟩
    rw [componentsOf_typeNumber hs hturn]
    exact hc
  · exact absurd hdead (hspares.lasts q hq hending hlive).1

theorem lawful_slotMoments (hs : s.Built) (held : Held) (geometry : Geometry) (wr : World × Report)
    (slot : Nat) : ∀ moment ∈ s.slotMoments held geometry wr slot, moment.Lawful s.script := by
  intro moment hmoment
  unfold slotMoments at hmoment
  cases hturn : s.typeAt? wr.1.memory slot with
  | none =>
    rw [hturn] at hmoment
    exact absurd hmoment List.not_mem_nil
  | some t =>
    rw [hturn] at hmoment
    rcases List.mem_append.mp hmoment with hmoment | hmoment
    · obtain ⟨wr', c, hc, hmoment⟩ := mem_along hmoment
      obtain rfl := List.mem_singleton.mp hmoment
      exact lawful_componentMoment hs hturn (mem_componentsIn hc) _ _ wr'
    · obtain rfl := List.mem_singleton.mp hmoment
      exact lawful_of_spares_empty (showSprite_keeps (fun _ _ => spares_of_poolData) _ _)

theorem lawful_eventMoments (hapart : ∀ v ∈ s.script.globals.values, Disjoint v.cells poolCells)
    (held : Held) (wr : World × Report) (e : Event) :
    ∀ moment ∈ s.eventMoments held wr e, moment.Lawful s.script := by
  intro moment hmoment
  unfold eventMoments at hmoment
  split at hmoment
  · obtain ⟨wr', a, -, hmoment⟩ := mem_along hmoment
    obtain rfl := List.mem_singleton.mp hmoment
    exact lawful_of_spares_empty (runAction_spares hapart wr' a)
  · exact absurd hmoment List.not_mem_nil

theorem lawful_history (hs : s.Built)
    (hapart : ∀ v ∈ s.script.globals.values, Disjoint v.cells poolCells)
    (operations : List Operation) (w : World) :
    ∀ moment ∈ s.history operations w, moment.Lawful s.script := by
  intro moment hmoment
  obtain ⟨w', operation, -, hmoment⟩ := mem_along hmoment
  cases operation with
  | spawn entity x y =>
    obtain rfl := List.mem_singleton.mp hmoment
    exact lawful_of_spares_empty (spawn_spares entity x y w')
  | placements => exact lawful_placementMoments s.script.placements w' moment hmoment
  | tick held geometry =>
    rcases List.mem_append.mp hmoment with hmoment | hmoment
    · obtain ⟨wr, e, -, hmoment⟩ := mem_along hmoment
      exact lawful_eventMoments hapart _ wr e moment hmoment
    · obtain ⟨wr, slot, -, hmoment⟩ := mem_along hmoment
      exact lawful_slotMoments hs held geometry wr slot moment hmoment

end Moments

/-! ## Runs -/

/-- Lawful moments keep a memory sound all the way. -/
theorem sound_of_leads {script : Script} {m m' : Memory} {moments : List Moment}
    (h : Leads m moments m') (hlawful : ∀ moment ∈ moments, moment.Lawful script)
    (hsound : m.Sound script.typeCount) : m'.Sound script.typeCount ∧
      ∀ moment ∈ moments, moment.after.Sound script.typeCount := by
  induction h with
  | nil => exact ⟨hsound, fun _ h => absurd h List.not_mem_nil⟩
  | cons moment _ ih =>
    obtain ⟨hmoment, hmore⟩ := List.forall_mem_cons.mp hlawful
    have hafter := hmoment.sound hsound
    obtain ⟨hend, hrest⟩ := ih hmore hafter
    exact ⟨hend, List.forall_mem_cons.mpr ⟨hafter, hrest⟩⟩

/-- A rock, which nothing ends, in a script with one variable. -/
def quarry : Script :=
  { Script.empty with
    globals := .ofList [("score", ⟨64, .int16⟩)]
    entities := .ofList [("Rock", { Entity.empty with components := .ofList [("Kinematic", ∅)] })] }

/-- A world whose memory has a single slot. -/
def smallWorld : World := { World.start 1 1 0 with memory := Memory.zeros 528 }

end Simulation

end PixelScene
