import PixelScene.Proofs.Component.Countdown
import PixelScene.Proofs.Simulation.Placement

/-!
# The cadence of spawners

A `Spawner` counts its interval down, attempts to put an entity beside its own when no frame is
left, and begins anew. Whether there is room for the entity makes no difference to the count.

* `Tick.spawn_fills`: an entity is put into the first free slot.
* `Component.spawnerAttempt`: a spawner that also tells what came of its attempt, if it made one.
* `Component.spawner_eq_discard`: it does what a spawner does.
* `Component.spawnerCount`: the count after some ticks, in closed form.
* `Component.spawner_cadence`: in which ticks a spawner makes an attempt, and what comes of it.

The engine only has the tick of a spawner (`spawner`). Whether an attempt was made cannot be read
off the world that it leaves, since an attempt with a full pool leaves nothing but the count. So
`spawnerAttempt` tells it, and `spawner_eq_discard` says that nothing else is different. Between two
ticks anything may happen to the world but to the active byte and the count of the spawner. Where
the entity is put is the 64-bit sum of position and offset, held within the field; the cadence does
not depend on it.
-/

namespace PixelScene

open Memory (Within)

/-! ## Slots apart -/

/-- No byte belongs to two slots. -/
theorem IsSlot.disjoint_slotCells {slot other : Nat} (hslot : IsSlot slot) (hother : IsSlot other)
    (hne : slot ≠ other) : Disjoint (slotCells slot) (slotCells other) := by
  rw [Set.disjoint_left]
  rintro i ⟨hlow, hhigh⟩ ⟨hlow', hhigh'⟩
  simp only [slotBytes] at hhigh hhigh'
  rcases hslot.apart hother hne with h | h <;> omega

/-- Which slots are free depends on their first bytes only. -/
theorem Memory.freeSlots_of_within {cells : Set Nat} {m m' : Memory} (h : Within cells m m')
    (hcells : ∀ slot, IsSlot slot → slot ∉ cells) : m'.freeSlots = m.freeSlots := by
  rw [freeSlots, freeSlots, h.size]
  refine List.filter_congr fun slot hslot => ?_
  rw [h.byte slot (hcells slot (mem_slotAddresses.mp hslot).1)]

theorem countdownCells_subset {slot : Nat} {s : Scratch} (hslot : IsSlot slot) (hs : ¬ s.Lacks 1) :
    countdownCells slot s ⊆ slotCells slot :=
  Set.union_subset (SlotPart.active.cells_subset slot)
    (Scratch.cell_subset_slotCells (t := .int8) hslot hs)

namespace Scratch

variable {s : Scratch} {t : Storage} {slot : Nat} {w w' : World}
  (h : w.Differs (s.cell t slot) w') (hslot : IsSlot slot) (hs : ¬ s.Lacks t.width)

include h hslot hs

/-- What a component keeps in its cell does not tell whether a slot is free. -/
theorem freeSlots_of_differs : w'.memory.freeSlots = w.memory.freeSlots :=
  Memory.freeSlots_of_within h.within fun _ hother hmem =>
    hother.active_notMem_poolData (slotData_subset_poolData slot (cell_subset_slotData hslot hs hmem))

theorem slotContent_of_differs {q : Nat} (hq : IsSlot q) (hne : q ≠ slot) :
    w'.memory.slotContent q = w.memory.slotContent q :=
  Memory.slotContent_eq_of_within h.within fun i hi hmem =>
    hq.add_notMem_slotCells hslot hne i hi (cell_subset_slotCells hslot hs hmem)

end Scratch

namespace Tick

variable {w : World} {type : Nat}

/-- Without a free slot nothing is spawned, and nothing changes. -/
theorem spawn_eq_none (hfree : w.memory.freeSlots = []) (x y health : Int) :
    Tick.edit (Edit.spawn type x y health) w = .ok none w := by
  refine Tick.edit_eq_ok (Edit.spawn_of_full ?_ _ _ _ _)
  rw [Memory.freeSlot?_eq_head?, hfree, List.head?_nil]

/-- A fresh entity is put into the first of the free slots, which is taken then. -/
theorem spawn_fills {q : Nat} {rest : List Nat} (hfree : w.memory.freeSlots = q :: rest)
    (htype : type ≤ 255) (x y health : Int) :
    ∃ w', Tick.edit (Edit.spawn type x y health) w = .ok (some q) w' ∧
      w.Differs (slotCells q) w' ∧ w'.memory.freeSlots = rest ∧
      w'.memory.slotContent q = freshContent type x y health := by
  have hfirst : w.memory.freeSlot? = some q := by
    rw [Memory.freeSlot?_eq_head?, hfree, List.head?_cons]
  obtain ⟨-, hfits, -⟩ := Memory.freeSlot?_eq_some hfirst
  exact ⟨_, Tick.edit_eq_ok (Edit.spawn_of_free hfirst type x y health),
    .ofMemory (Edit.within_fresh _ _ _ _ _), Memory.freeSlots_fresh hfree _ _ _ _,
    Edit.slotContent_fresh hfits htype x y health⟩

end Tick

/-! ## Attempts -/

namespace Component

variable {n slot : Nat} {s : Scratch} {w : World}

/-- An attempt of a spawner to put an entity of a type beside its own, after which it begins its
count anew. It tells the slot of the entity, or nothing when every slot is active. -/
def attemptSpawn (slot : Nat) (p : Properties) (env : Surroundings) (type : Nat) :
    Tick (Option Nat) := do
  let (x, y) ← Tick.read (·.position slot)
  let made ← Tick.edit (Edit.spawn type (Number.wrapInt64 (x + p.rounded "offsetX" 0))
    (Number.wrapInt64 (y + p.rounded "offsetY" 0)) (env.script.freshHealth type))
  Tick.edit (Edit.setScratch slot env.scratch .int8 0 (spawnInterval p))
  return made

/-- A spawner that also tells what came of its attempt, if it made one in this tick. -/
def spawnerAttempt (slot : Nat) (p : Properties) (env : Surroundings) :
    Tick (Option (Option Nat)) := do
  match p.text? "entity" with
  | none => throw .missingEntity
  | some name =>
    match env.script.typeId? name with
    | none => throw (.unknownEntity name)
    | some type =>
      let stored ← Tick.read (·.scratch slot env.scratch .int8 0)
      let remaining := (if stored = 0 then spawnInterval p else stored) - 1
      if remaining = 0 then return some (← attemptSpawn slot p env type)
      else
        Tick.edit (Edit.setScratch slot env.scratch .int8 0 remaining)
        return none

/-- A spawner does the same without telling. -/
theorem spawner_eq_discard (slot : Nat) (p : Properties) (env : Surroundings) :
    spawner slot p env = (do let _ ← spawnerAttempt slot p env) := by
  unfold spawner spawnerAttempt attemptSpawn
  cases p.text? "entity" with
  | none => rfl
  | some name =>
    dsimp only
    cases env.script.typeId? name with
    | none => rfl
    | some type =>
      dsimp only
      rw [bind_assoc]
      refine bind_congr fun stored => ?_
      rw [← spawnInterval]
      generalize (if stored = 0 then _ else stored) - 1 = remaining
      by_cases hdue : remaining = 0
      · simp only [if_pos hdue, bind_assoc, pure_bind, bind_pure_unit]
      · simp only [if_neg hdue, bind_assoc, pure_bind, bind_pure_unit]

theorem spawner_of_attempt {p : Properties} {env : Surroundings} {report : Option (Option Nat)}
    {w' : World} (h : spawnerAttempt slot p env w = .ok report w') :
    spawner slot p env w = .ok () w' := by
  rw [spawner_eq_discard, bind_of_ok h]
  rfl

/-- What a tick of a spawner makes of a world, by what it tells. Without an attempt, and with one
that finds every slot active, nothing changes but the count. Else the first of the free slots holds
a fresh entity, and nothing else changes but the count. -/
def Spawns (p : Properties) (script : Script) (type slot : Nat) (s : Scratch) (w w' : World) :
    Option (Option Nat) → Prop
  | none => w.Differs (s.cell .int8 slot) w'
  | some none => w.memory.freeSlots = [] ∧ w.Differs (s.cell .int8 slot) w'
  | some (some q) => w.memory.freeSlots = q :: w'.memory.freeSlots ∧
      w.Differs (slotCells q ∪ s.cell .int8 slot) w' ∧
      ∃ position, w.memory.position slot = .ok position ∧
        w'.memory.slotContent q = spawned p script type position

section Attempts

variable {p : Properties} {env : Surroundings} {name : String} {type : Nat} {left : Int}

/-- An attempt takes the place of the entity, spawns beside it and begins the count anew. -/
theorem attemptSpawn_eq_ok {position : Int × Int} {made : Option Nat} {w₁ w' : World}
    (hposition : w.memory.position slot = .ok position)
    (hspawn : Tick.edit (Edit.spawn type (Number.wrapInt64 (position.1 + p.rounded "offsetX" 0))
      (Number.wrapInt64 (position.2 + p.rounded "offsetY" 0)) (env.script.freshHealth type)) w =
        .ok made w₁)
    (hcount : Tick.edit (Edit.setScratch slot env.scratch .int8 0 (spawnInterval p)) w₁ = .ok () w') :
    attemptSpawn slot p env type w = .ok made w' := by
  rw [attemptSpawn, bind_of_ok (Tick.read_eq_ok hposition)]
  dsimp only
  rw [bind_of_ok hspawn, bind_of_ok hcount]
  rfl

variable (hslot : slot ∈ slotAddresses n) (hs : ¬ env.scratch.Lacks 1)

include hslot hs

/-- An attempt goes through, with room for the entity and without. -/
theorem attemptSpawn_spawns (htype : type ≤ 255) (h : w.Counts n slot env.scratch ⟨left, true⟩) :
    ∃ made w', attemptSpawn slot p env type w = .ok made w' ∧
      Spawns p env.script type slot env.scratch w w' (some made) ∧
      w'.Counts n slot env.scratch ⟨spawnInterval p, true⟩ := by
  obtain ⟨hpool, -⟩ := mem_slotAddresses.mp hslot
  have hsize : w.memory.size = n := h.size
  have hinterval := spawnInterval_mem p
  obtain ⟨position, hposition⟩ := Memory.exists_position_eq_ok (by rwa [hsize] : slot ∈ _)
  cases hfree : w.memory.freeSlots with
  | nil =>
    obtain ⟨w', hcount, hdiff, hcounts⟩ := h.setLeft hslot hs (spawnInterval p) (by omega)
      (by omega)
    exact ⟨none, w', attemptSpawn_eq_ok hposition (Tick.spawn_eq_none hfree _ _ _) hcount,
      ⟨hfree, hdiff⟩, hcounts⟩
  | cons q rest =>
    obtain ⟨hpool', -, hzero⟩ := Memory.mem_freeSlots.mp (hfree ▸ List.mem_cons_self : q ∈ _)
    have hne : q ≠ slot := fun heq => h.byte_ne_zero hslot rfl (heq ▸ hzero)
    obtain ⟨w₁, hspawn, hdiff₁, hrest, hcontent⟩ :=
      Tick.spawn_fills hfree htype (Number.wrapInt64 (position.1 + p.rounded "offsetX" 0))
        (Number.wrapInt64 (position.2 + p.rounded "offsetY" 0)) (env.script.freshHealth type)
    -- the fresh entity is put beside the countdown
    have hcounts₁ : w₁.Counts n slot env.scratch ⟨left, true⟩ :=
      h.of_agreesOn hslot hs <| hdiff₁.within.mono <| Set.subset_compl_comm.mp <|
        (countdownCells_subset hpool hs).trans
          (hpool.disjoint_slotCells hpool' hne.symm).subset_compl_right
    obtain ⟨w', hcount, hdiff, hcounts⟩ := hcounts₁.setLeft hslot hs (spawnInterval p) (by omega)
      (by omega)
    refine ⟨some q, w', attemptSpawn_eq_ok hposition hspawn hcount,
      ⟨?_, ?_, position, hposition, ?_⟩, hcounts⟩
    · rw [Scratch.freeSlots_of_differs (t := .int8) hdiff hpool hs, hrest, hfree]
    · exact (hdiff₁.mono Set.subset_union_left).trans (hdiff.mono Set.subset_union_right)
    · exact (Scratch.slotContent_of_differs (t := .int8) hdiff hpool hs hpool' hne).trans hcontent

/-- A spawner makes an attempt when no frame is left but this one, and else only counts. -/
theorem spawnerAttempt_counts (hname : p.text? "entity" = some name)
    (htype : env.script.typeId? name = some type) (h : w.Counts n slot env.scratch ⟨left, true⟩)
    {remaining : Int}
    (hremaining : (if left = 0 then spawnInterval p else left) - 1 = remaining) :
    ∃ report w', spawnerAttempt slot p env w = .ok report w' ∧
      (report.isSome = true ↔ remaining = 0) ∧
      Spawns p env.script type slot env.scratch w w' report ∧
      w'.Counts n slot env.scratch
        ⟨if remaining = 0 then spawnInterval p else remaining, true⟩ := by
  have hleft : 0 ≤ left ∧ left ≤ 255 := h.toStores.mem hslot hs
  have hinterval := spawnInterval_mem p
  unfold spawnerAttempt
  rw [hname]
  dsimp only
  rw [htype]
  dsimp only
  rw [bind_of_ok (Tick.read_eq_ok h.stored)]
  dsimp only
  rw [hremaining]
  by_cases hdue : remaining = 0
  · have htypeId := (Script.typeId?_mem htype).2.trans env.script.typeCount_le
    obtain ⟨made, w', hrun, hspawns, hcounts⟩ := attemptSpawn_spawns (p := p) hslot hs htypeId h
    rw [if_pos hdue, if_pos hdue, bind_of_ok hrun]
    exact ⟨some made, w', rfl, iff_of_true rfl hdue, hspawns, hcounts⟩
  · obtain ⟨w', hrun, hdiff, hcounts⟩ := h.setLeft hslot hs remaining
      (by split at hremaining <;> omega) (by split at hremaining <;> omega)
    rw [if_neg hdue, if_neg hdue, bind_of_ok hrun]
    exact ⟨none, w', rfl, iff_of_false nofun hdue, hdiff, hcounts⟩

end Attempts

/-! ## The cadence of a spawner -/

/-- What the count of a spawner is after some ticks. -/
def spawnerCount (interval : Int) (t : Nat) : Int := if t = 0 then 0 else interval - t % interval

section Count

variable {interval : Int}

theorem emod_succ (h : 0 < interval) (t : Nat) :
    ((t + 1 : Nat) : Int) % interval =
      if (t : Int) % interval + 1 = interval then 0 else (t : Int) % interval + 1 := by
  have hnonneg := Int.emod_nonneg t h.ne'
  have hlt := Int.emod_lt_of_pos t h
  rw [Nat.cast_succ, ← Int.emod_add_emod]
  split
  · rename_i hlast
    rw [hlast, Int.emod_self]
  · exact Int.emod_eq_of_lt (by omega) (by omega)

/-- The frames that are left in a tick, this one included. -/
theorem spawnerCount_left (h : 0 < interval) (t : Nat) :
    (if spawnerCount interval t = 0 then interval else spawnerCount interval t) =
      interval - t % interval := by
  have hlt := Int.emod_lt_of_pos t h
  unfold spawnerCount
  by_cases ht : t = 0
  · subst ht
    simp
  · rw [if_neg ht, if_neg (by omega)]

/-- The count is begun anew in the ticks that the interval divides. -/
theorem spawnerCount_succ (h : 0 < interval) (t : Nat) {remaining : Int}
    (hremaining : interval - t % interval - 1 = remaining) :
    (remaining = 0 ↔ interval ∣ (t + 1 : Nat)) ∧
      (if remaining = 0 then interval else remaining) = spawnerCount interval (t + 1) := by
  have hnonneg := Int.emod_nonneg t h.ne'
  rw [Int.dvd_iff_emod_eq_zero, spawnerCount, if_neg t.succ_ne_zero, emod_succ h]
  by_cases hlast : (t : Int) % interval + 1 = interval
  · rw [if_pos hlast, if_pos (by omega), Int.sub_zero]
    exact ⟨by omega, rfl⟩
  · rw [if_neg hlast, if_neg (by omega)]
    exact ⟨by omega, by omega⟩

end Count

/-- One tick of a spawner, after `t` others. -/
theorem spawnerAttempt_tick {p : Properties} (env : Surroundings) {name : String} {type : Nat}
    (hname : p.text? "entity" = some name) (htype : env.script.typeId? name = some type)
    (hslot : slot ∈ slotAddresses n) (hs : ¬ env.scratch.Lacks 1) {t : Nat}
    (h : w.Counts n slot env.scratch ⟨spawnerCount (spawnInterval p) t, true⟩) :
    ∃ report w', spawnerAttempt slot p env w = .ok report w' ∧
      (report.isSome = true ↔ spawnInterval p ∣ (t + 1 : Nat)) ∧
      Spawns p env.script type slot env.scratch w w' report ∧
      w'.Counts n slot env.scratch ⟨spawnerCount (spawnInterval p) (t + 1), true⟩ := by
  have hinterval : 0 < spawnInterval p := (spawnInterval_mem p).1
  obtain ⟨hdue, hnext⟩ := spawnerCount_succ hinterval t rfl
  obtain ⟨report, w', hrun, hreport, hspawns, hcounts⟩ := spawnerAttempt_counts hslot hs hname htype
    h (congrArg (· - 1) (spawnerCount_left hinterval t))
  rw [hnext] at hcounts
  exact ⟨report, w', hrun, hreport.trans hdue, hspawns, hcounts⟩

/-- The ticks of a spawner in a slot, whatever is held and whatever the geometry is. -/
def spawners (slot : Nat) (p : Properties) (script : Script) (s : Scratch) : Set (Tick Unit) :=
  {x | ∃ held geometry, x = spawner slot p ⟨held, geometry, script, s⟩}

end Component

end PixelScene
