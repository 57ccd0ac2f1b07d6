import PixelScene.Proofs.Component.Repetition

/-!
# Components that count frames down

A `Lifetime` and a `Spawner` count frames down in one scratch byte, in which zero means that the
count has not begun. Here the former is followed until it ends its entity.

* `Countdown`: the byte, together with whether the entity is active.
* `World.Counts`: the countdown that a world holds, and what a setter makes of it.
* `Countdown.live`: what a tick of a lifetime makes of a countdown.
* `Component.lifetime_lasts`: how long an entity lives.

The count is a byte, and a number of frames beyond 255 counts as 255. Between two ticks anything may
happen to the world but to these two bytes (`PixelScene.Proofs.Component.Repetition`). The induction
is on the number of ticks, and its invariant is the closed form of the byte.
-/

namespace PixelScene

/-- What a component that counts frames depends on: the frames in its scratch byte, and whether its
entity is active. -/
structure Countdown where
  left : Int
  active : Bool

/-- The bytes of a countdown. -/
def countdownCells (slot : Nat) (s : Scratch) : Set Nat :=
  SlotPart.active.cells slot ∪ s.cell .int8 slot

/-- The memory of the world has `n` bytes, and holds a countdown in a slot. -/
structure World.Counts (n slot : Nat) (s : Scratch) (w : World) (c : Countdown) : Prop
    extends World.Stores n slot s .int8 w c.left where
  active : w.memory.isActive slot = .ok c.active

namespace World.Counts

variable {n slot : Nat} {s : Scratch} {w w' : World} {c : Countdown}

theorem byte_ne_zero (h : w.Counts n slot s c) (hslot : slot ∈ slotAddresses n)
    (hactive : c.active = true) : w.memory.byte slot ≠ 0 := by
  obtain ⟨hpool, hfits⟩ := mem_slotAddresses.mp hslot
  have hsize : w.memory.size = n := h.size
  have hread := (Memory.isActive_eq_ok hpool (by omega)).symm.trans h.active
  rw [hactive] at hread
  exact bne_iff_ne.mp (Except.ok.inj hread)

variable (hslot : slot ∈ slotAddresses n) (hs : ¬ s.Lacks 1)

include hslot hs

/-- Nothing that leaves its bytes alone changes a countdown. -/
theorem of_agreesOn (h : w.Counts n slot s c) (hagrees : w.AgreesOn (countdownCells slot s) w') :
    w'.Counts n slot s c := by
  have hcell := hagrees.mono Set.subset_union_right
  refine ⟨h.toStores.of_agreesOn hslot hs hcell, Eq.trans ?_ h.active⟩
  exact SlotPart.read_of_within (p := .active) hagrees
    (Set.disjoint_compl_right_iff_subset.mpr Set.subset_union_left)

theorem setLeft (h : w.Counts n slot s c) (value : Int) (hlow : 0 ≤ value) (hhigh : value ≤ 255) :
    ∃ w', Tick.edit (Edit.setScratch slot s .int8 0 value) w = .ok () w' ∧
      w.Differs (s.cell .int8 slot) w' ∧ w'.Counts n slot s { c with left := value } := by
  obtain ⟨w', hrun, hdiff, hstores⟩ := Stores.set (t := .int8) hslot hs h.size value hlow hhigh
  refine ⟨w', hrun, hdiff, hstores, Eq.trans ?_ h.active⟩
  exact SlotPart.read_of_within (p := .active) hdiff.within (Scratch.disjoint_cell (by decide))

theorem setActive (h : w.Counts n slot s c) (active : Bool) :
    ∃ w', Tick.edit (Edit.setActive slot active) w = .ok () w' ∧
      w'.Counts n slot s { c with active := active } := by
  obtain ⟨w', hrun, hdiff, hread⟩ := SlotPart.edit_reads hslot h.size .active active
  have hapart : Disjoint (s.cell .int8 slot) (SlotPart.active.cells slot) :=
    (Scratch.disjoint_cell (by decide)).symm
  exact ⟨w', hrun, h.toStores.of_within hslot hs hdiff.within hapart, hread⟩

end World.Counts

/-! ## Lifetimes -/

namespace Countdown

/-- What a tick of a lifetime of some frames makes of a countdown. -/
def live (frames : Int) (c : Countdown) : Countdown :=
  if c.left = 0 then
    if frames ≤ 0 then { c with active := false } else { c with left := min frames 255 }
  else ⟨c.left - 1, c.active && c.left != 1⟩

variable {frames : Int}

theorem iterate_live_of_nonpos (h : frames ≤ 0) (k : Nat) :
    (live frames)^[k + 1] ⟨0, true⟩ = ⟨0, false⟩ := by
  have hlive : ∀ active, live frames ⟨0, active⟩ = ⟨0, false⟩ := fun active => by
    rw [live, if_pos rfl, if_pos h]
  induction k with
  | zero => exact hlive true
  | succ k ih => rw [Function.iterate_succ_apply', ih, hlive]

/-- After the first tick all frames are left, and each of the following ticks takes one away. -/
theorem iterate_live (h : 0 < frames) {k : Nat} (hk : k ≤ min frames 255) :
    (live frames)^[k + 1] ⟨0, true⟩ = ⟨min frames 255 - k, decide (k < min frames 255)⟩ := by
  induction k with
  | zero =>
    rw [Function.iterate_one, live, if_pos rfl, if_neg (by omega), Nat.cast_zero, Int.sub_zero,
      decide_eq_true (by omega)]
  | succ k ih =>
    have hleft : min frames 255 - (k : Int) ≠ 0 := by omega
    have hactive : (decide ((k : Int) < min frames 255) && min frames 255 - (k : Int) != 1) =
        decide (((k + 1 : Nat) : Int) < min frames 255) := by
      rw [Bool.eq_iff_iff, Bool.and_eq_true, decide_eq_true_eq, bne_iff_ne, decide_eq_true_eq]
      omega
    rw [Function.iterate_succ_apply', ih (by omega), live, if_neg hleft, hactive, Nat.cast_succ,
      Int.sub_sub]

end Countdown

namespace Component

variable {n slot : Nat} {s : Scratch} {w : World} {c : Countdown}

/-- A tick of a lifetime goes through, whatever the countdown is. -/
theorem lifetime_counts (hslot : slot ∈ slotAddresses n) {p : Properties} {env : Surroundings}
    (hs : ¬ env.scratch.Lacks 1) (h : w.Counts n slot env.scratch c) :
    ∃ w', lifetime slot p env w = .ok () w' ∧
      w'.Counts n slot env.scratch (c.live (p.rounded "frames" 60)) := by
  have hleft : 0 ≤ c.left ∧ c.left ≤ 255 := h.toStores.mem hslot hs
  unfold lifetime
  rw [bind_of_ok (Tick.read_eq_ok h.stored), Countdown.live]
  by_cases hzero : c.left = 0
  · rw [if_pos hzero, if_pos hzero]
    by_cases hframes : p.rounded "frames" 60 ≤ 0
    · rw [if_pos hframes, if_pos hframes]
      exact h.setActive hslot hs false
    · rw [if_neg hframes, if_neg hframes]
      obtain ⟨w', hrun, -, hcounts⟩ := h.setLeft hslot hs (min (p.rounded "frames" 60) 255) (by omega)
        (by omega)
      exact ⟨w', hrun, hcounts⟩
  · rw [if_neg hzero, if_neg hzero]
    obtain ⟨w', hrun, -, hcounts⟩ := h.setLeft hslot hs (c.left - 1) (by omega) (by omega)
    rw [bind_of_ok hrun]
    by_cases hlast : c.left = 1
    · rw [if_pos (by omega), hlast, bne_self_eq_false, Bool.and_false]
      rw [hlast] at hcounts
      exact hcounts.setActive hslot hs false
    · rw [if_neg (by omega), bne_iff_ne.mpr hlast, Bool.and_true]
      exact ⟨w', rfl, hcounts⟩

/-- The ticks of lifetimes of some frames that count in the same part of the scratch bytes. -/
def lifetimes (slot : Nat) (s : Scratch) (frames : Int) : Set (Tick Unit) :=
  {x | ∃ p env, p.rounded "frames" 60 = frames ∧ env.scratch = s ∧ x = lifetime slot p env}

/--
**A lifetime lasts exactly its frames.** The lifetime is that of an active entity whose count has not
begun, in any slot that fits into the memory. Its ticks go through, whatever happens between them to
other bytes than the entity's active byte and the count. Without frames the entity is ended by the
first tick. Else the byte holds the frames after the first tick, at most 255, and one less after each
of the following ticks; the entity is active until none is left.
-/
theorem lifetime_lasts (hslot : slot ∈ slotAddresses w.memory.size) (hs : ¬ s.Lacks 1)
    (hactive : w.memory.isActive slot = .ok true)
    (hleft : w.memory.scratch slot s .int8 0 = .ok 0) {frames : Int} {t : Nat} {w' : World}
    (h : Repeats (lifetimes slot s frames) (World.AgreesOn (countdownCells slot s)) w t w') :
    (∀ v, w'.AgreesOn (countdownCells slot s) v →
      ∀ x ∈ lifetimes slot s frames, ∃ v', x v = .ok () v') ∧
    (frames ≤ 0 → 1 ≤ t → w'.memory.isActive slot = .ok false) ∧
    (0 < frames → 1 ≤ t → t ≤ min frames 255 + 1 →
      w'.memory.scratch slot s .int8 0 = .ok (min frames 255 + 1 - t) ∧
        w'.memory.isActive slot = .ok (decide (t ≤ min frames 255))) := by
  have htick : ∀ {v c}, v.Counts w.memory.size slot s c → ∀ x ∈ lifetimes slot s frames,
      ∃ v', x v = .ok () v' ∧ v'.Counts w.memory.size slot s (c.live frames) := by
    rintro v c hcounts x ⟨p, env, rfl, rfl, rfl⟩
    exact lifetime_counts hslot hs hcounts
  have hrun : w'.Counts w.memory.size slot s ((Countdown.live frames)^[t] ⟨0, true⟩) := by
    refine h.invariant (P := fun t v => v.Counts w.memory.size slot s
      ((Countdown.live frames)^[t] ⟨0, true⟩)) ⟨⟨rfl, hleft⟩, hactive⟩
      (fun t u v hu hagrees => hu.of_agreesOn hslot hs hagrees) fun t v hv x hx => ?_
    obtain ⟨v', hx, hv'⟩ := htick hv x hx
    rwa [leaves_of_ok hx, Function.iterate_succ_apply']
  refine ⟨fun v hagrees x hx => ?_, fun hframes ht => ?_, fun hframes ht hlast => ?_⟩
  · obtain ⟨v', hx, -⟩ := htick (hrun.of_agreesOn hslot hs hagrees) x hx
    exact ⟨v', hx⟩
  · obtain ⟨k, rfl⟩ := Nat.exists_eq_add_of_le' ht
    rw [Countdown.iterate_live_of_nonpos hframes] at hrun
    exact hrun.active
  · obtain ⟨k, rfl⟩ := Nat.exists_eq_add_of_le' ht
    rw [Countdown.iterate_live hframes (by omega)] at hrun
    refine ⟨hrun.stored.trans (congrArg Except.ok ?_), hrun.active.trans (congrArg Except.ok ?_)⟩
    · dsimp only
      omega
    · exact decide_eq_decide.mpr (by omega)

/-- A world with room for four slots, the first of which is active. -/
def firstActive : World :=
  let w := World.start 12 12 0
  { w with memory := w.memory.setByte 512 1 }

/-- A lifetime of one frame leaves it after the first tick and ends the entity with the second one,
though the entity is hurt in between. -/
theorem lifetime_lasts_one :
    let p : Properties := Dictionary.ofList [("frames", .integer 1)]
    let tick := lifetime 512 p (bareSurroundings ⟨2, 1⟩)
    let hurt (w : World) : World := { w with memory := w.memory.setByte 522 0 }
    let after := leaves tick (hurt (leaves tick firstActive))
    512 ∈ slotAddresses firstActive.memory.size ∧ ¬ (⟨2, 1⟩ : Scratch).Lacks 1 ∧
      firstActive.memory.isActive 512 = .ok true ∧
      firstActive.memory.scratch 512 ⟨2, 1⟩ .int8 0 = .ok 0 ∧
      Repeats (lifetimes 512 ⟨2, 1⟩ 1) (World.AgreesOn (countdownCells 512 ⟨2, 1⟩)) firstActive 2
        after ∧
      after.memory.scratch 512 ⟨2, 1⟩ .int8 0 = .ok 0 ∧ after.memory.isActive 512 = .ok false := by
  intro p tick hurt after
  have hslot : 512 ∈ slotAddresses firstActive.memory.size := by decide +kernel
  have hs : ¬ (⟨2, 1⟩ : Scratch).Lacks 1 := by
    unfold Scratch.Lacks
    decide
  have hactive : firstActive.memory.isActive 512 = .ok true := by decide +kernel
  have hleft : firstActive.memory.scratch 512 ⟨2, 1⟩ .int8 0 = .ok 0 := by decide +kernel
  have htick : tick ∈ lifetimes 512 ⟨2, 1⟩ 1 := ⟨p, _, by decide +kernel, rfl, rfl⟩
  have hapart : {522} ⊆ (countdownCells 512 ⟨2, 1⟩)ᶜ := by
    rw [Set.singleton_subset_iff]
    rintro (h | h)
    · exact absurd h.2 (by decide)
    · exact absurd h.1 (by decide)
  have hruns : Repeats (lifetimes 512 ⟨2, 1⟩ 1) (World.AgreesOn (countdownCells 512 ⟨2, 1⟩))
      firstActive 2 after :=
    .step (.step .start (Memory.Within.refl _ _) htick)
      ((Memory.within_setByte _ 522 0).mono hapart) htick
  obtain ⟨-, -, hlasts⟩ := lifetime_lasts hslot hs hactive hleft hruns
  obtain ⟨hcount, hend⟩ := hlasts (by decide) (by decide) (by decide)
  exact ⟨hslot, hs, hactive, hleft, hruns, hcount, hend⟩

end Component

end PixelScene
