import PixelScene.Proofs.Component.Repetition

/-!
# Components that walk along a path

A `PathFollower` stands on one point of a path after the other, some points further in each tick.
Its scratch bytes hold the number of the next point.

* `pathIndex`: the number of the point after some ticks, in closed form.
* `nextPoint_pathIndex`: the walk goes from one of these numbers to the next.
* `Component.pathFollower_tick`: one tick.
* `Component.pathFollower_visits`: where an entity stands in which tick.

The number of the next point is kept in two scratch bytes (`path_follower`). At the end of a path
the entity goes on at its beginning or stays there, as the `loop` property says. Between two ticks
anything may happen to the world but to these two bytes, the position of the entity included: a tick
sets it anew and does not ask where the entity was.
-/

namespace PixelScene.Component

/-! ## The numbers of the points -/

/-- A walk that loops goes around the path as often as needed. -/
theorem nextPoint_of_loops (size progress step : Nat) :
    nextPoint size progress step true = (progress + step) % size := by
  unfold nextPoint
  by_cases h : progress + step < size
  · simp only [if_pos h, Nat.mod_eq_of_lt h]
  · simp only [if_neg h, if_true]

/-- A walk that does not loop ends at the last point. -/
theorem nextPoint_of_stops (size progress step : Nat) :
    nextPoint size progress step false = min (progress + step) (size - 1) := by
  unfold nextPoint
  by_cases h : progress + step < size
  · simp only [if_pos h]
    omega
  · simp only [if_neg h, Bool.false_eq_true, if_false]
    omega

theorem nextPoint_lt {size : Nat} (h : 0 < size) (progress step : Nat) (loops : Bool) :
    nextPoint size progress step loops < size := by
  cases loops with
  | true => exact nextPoint_of_loops size progress step ▸ Nat.mod_lt _ h
  | false =>
    rw [nextPoint_of_stops]
    omega

/-- The number of the point after some ticks, each of which goes `step` points further along a path
of `size` points. -/
def pathIndex (size step : Nat) (loops : Bool) (ticks : Nat) : Nat :=
  if loops then ticks * step % size else min (ticks * step) (size - 1)

section Index

variable {size : Nat} (h : 0 < size) (step : Nat) (loops : Bool) (ticks : Nat)

theorem pathIndex_zero : pathIndex size step loops 0 = 0 := by
  cases loops <;> simp [pathIndex]

include h

theorem pathIndex_lt : pathIndex size step loops ticks < size := by
  cases loops with
  | true => exact Nat.mod_lt _ h
  | false => exact (Nat.min_le_right _ _).trans_lt (Nat.sub_one_lt h.ne')

omit h in
theorem nextPoint_pathIndex :
    nextPoint size (pathIndex size step loops ticks) step loops =
      pathIndex size step loops (ticks + 1) := by
  cases loops with
  | true =>
    rw [nextPoint_of_loops, pathIndex, pathIndex, if_pos rfl, if_pos rfl, Nat.succ_mul,
      Nat.mod_add_mod]
  | false =>
    simp only [nextPoint_of_stops, pathIndex, Bool.false_eq_true, if_false, Nat.succ_mul]
    omega

end Index

/-! ## One tick -/

/-- Where an entity is placed that stands on a point: its coordinates are rounded and saturated. -/
def placeOf (point : Point) : Int × Int :=
  (Number.clamp 0 65535 (Number.roundFinite (Number.widen point.x)),
    Number.clamp 0 65535 (Number.roundFinite (Number.widen point.y)))

/-- The path that the properties of a follower name. -/
def pathOf? (p : Properties) (geometry : Geometry) : Option (List Point) :=
  geometry.paths[Number.truncateWord64 (p.number "path" 0)]?

/-- How many points a follower goes further in a tick. -/
def pathStep (p : Properties) : Nat := (max (p.rounded "speed" 1) 0).toNat

section Tick

variable {n slot : Nat} {p : Properties} {env : Surroundings} {w : World} {points : List Point}
  (hslot : slot ∈ slotAddresses n) (hs : ¬ env.scratch.Lacks 2)
  (hpath : pathOf? p env.geometry = some points) (hlength : points.length ≤ 65536)

include hslot hs hpath hlength

/-- A follower places its entity on the point that its scratch bytes tell, and stores the number of
the next one. -/
theorem pathFollower_moves {progress : Nat} {point : Point}
    (hpoint : points[progress]? = some point) (h : w.Stores n slot env.scratch .int16 progress) :
    ∃ w', pathFollower slot p env w = .ok () w' ∧
      w'.memory.position slot = .ok (placeOf point) ∧
      w'.Stores n slot env.scratch .int16
        (nextPoint points.length progress (pathStep p) (p.flag "loop" true) : Nat) := by
  obtain ⟨hprogress, -⟩ := List.getElem?_eq_some_iff.mp hpoint
  have hsize : env.geometry.pathSize (Number.truncateWord64 (p.number "path" 0)) =
      points.length := by
    rw [Geometry.pathSize, ← pathOf?, hpath]
    rfl
  have hfound : env.geometry.pathPoint? (Number.truncateWord64 (p.number "path" 0)) progress =
      some point := by
    rw [Geometry.pathPoint?, ← pathOf?, hpath]
    exact hpoint
  have hlast : min (progress : Int).toNat (points.length - 1) = progress := by omega
  have hnext := nextPoint_lt (Nat.zero_lt_of_lt hprogress) progress (pathStep p)
    (p.flag "loop" true)
  obtain ⟨w₁, hplaces, hdiff₁, hplace⟩ := SlotPart.edit_reads hslot h.size .position
    (Number.roundFinite (Number.widen point.x), Number.roundFinite (Number.widen point.y))
  obtain ⟨w', hstores, hdiff, hnumber⟩ := World.Stores.set (t := .int16) hslot hs
    (hdiff₁.ofSize h.size)
    (nextPoint points.length progress (pathStep p) (p.flag "loop" true) : Nat)
    (by simp [Storage.least]) (by simp only [Storage.greatest]; omega)
  -- the number is stored behind the place
  have hapart : Disjoint (SlotPart.position.cells slot) (env.scratch.cell .int16 slot) :=
    Scratch.disjoint_cell (by decide)
  refine ⟨w', ?_, ?_, hnumber⟩
  · unfold pathFollower
    rw [hsize, if_neg (by omega), bind_of_ok (Tick.read_eq_ok h.stored)]
    dsimp only
    rw [hlast, hfound]
    dsimp only
    refine (bind_of_ok hplaces).trans ?_
    rw [← pathStep, Nat.min_eq_left (by omega)]
    exact hstores
  · exact (SlotPart.read_of_within (p := .position) hdiff.within hapart).trans hplace

variable (env) in
/-- One tick of a follower, after `k` others. -/
theorem pathFollower_tick (hpos : 1 ≤ points.length) {k : Nat}
    (h : w.Stores n slot env.scratch .int16
      (pathIndex points.length (pathStep p) (p.flag "loop" true) k : Nat)) :
    ∃ point w', points[pathIndex points.length (pathStep p) (p.flag "loop" true) k]? = some point ∧
      pathFollower slot p env w = .ok () w' ∧ w'.memory.position slot = .ok (placeOf point) ∧
      w'.Stores n slot env.scratch .int16
        (pathIndex points.length (pathStep p) (p.flag "loop" true) (k + 1) : Nat) := by
  have hpoint := List.getElem?_eq_getElem
    (pathIndex_lt hpos (pathStep p) (p.flag "loop" true) k)
  obtain ⟨w', hrun, hplace, hnext⟩ := pathFollower_moves hslot hs hpath hlength hpoint h
  rw [nextPoint_pathIndex] at hnext
  exact ⟨_, w', hpoint, hrun, hplace, hnext⟩

end Tick

/-! ## The whole walk -/

/-- The ticks of a follower in a slot, whatever is held and whatever the script is. -/
def followers (slot : Nat) (p : Properties) (geometry : Geometry) (s : Scratch) : Set (Tick Unit) :=
  {x | ∃ held script, x = pathFollower slot p ⟨held, geometry, script, s⟩}

/--
**A follower visits the points of its path in closed form.** The path has a point or more, as many as
two bytes can number, and the follower starts at its first point, in any slot that fits into the
memory. Its ticks go through, whatever happens between them to other bytes than its number. The tick
after `k` others places the entity on point `k * step` of the path, around the path if it loops and
else no further than its end, and leaves the number of the point after that.
-/
theorem pathFollower_visits {slot : Nat} {p : Properties} {geometry : Geometry} {s : Scratch}
    {points : List Point} (hpath : pathOf? p geometry = some points) (hpos : 1 ≤ points.length)
    (hlength : points.length ≤ 65536) {w : World} (hslot : slot ∈ slotAddresses w.memory.size)
    (hs : ¬ s.Lacks 2) (hstored : w.memory.scratch slot s .int16 0 = .ok 0) {k : Nat} {u v : World}
    (h : Repeats (followers slot p geometry s) (World.AgreesOn (s.cell .int16 slot)) w k u)
    (hagrees : u.AgreesOn (s.cell .int16 slot) v) (held : Held) (script : Script) :
    let index := pathIndex points.length (pathStep p) (p.flag "loop" true)
    ∃ point v', points[index k]? = some point ∧
      pathFollower slot p ⟨held, geometry, script, s⟩ v = .ok () v' ∧
      v'.memory.position slot = .ok (placeOf point) ∧
      v'.memory.scratch slot s .int16 0 = .ok (index (k + 1) : Nat) := by
  intro index
  have hstart : w.Stores w.memory.size slot s .int16 (index 0 : Nat) := by
    rw [show index 0 = 0 from pathIndex_zero _ _]
    exact ⟨rfl, hstored⟩
  have hstores : u.Stores w.memory.size slot s .int16 (index k : Nat) := by
    refine h.invariant (P := fun k v => v.Stores w.memory.size slot s .int16 (index k : Nat)) hstart
      (fun k u v hu hagrees => hu.of_agreesOn hslot hs hagrees) ?_
    rintro k v hv x ⟨held, script, rfl⟩
    obtain ⟨-, v', -, hrun, -, hv'⟩ := pathFollower_tick ⟨held, geometry, script, s⟩ hslot hs
      hpath hlength hpos hv
    rwa [leaves_of_ok hrun]
  obtain ⟨point, v', hpoint, hrun, hplace, hnext⟩ := pathFollower_tick
    ⟨held, geometry, script, s⟩ hslot hs hpath hlength hpos
    (hstores.of_agreesOn hslot hs hagrees)
  exact ⟨point, v', hpoint, hrun, hplace, hnext.stored⟩

/-- A path of three points, the last of which lies outside of the places that can be stored. -/
def bentPath : Geometry := ⟨[], [[.ofInts 5 5, .ofInts 10 20, .ofInts (-3) 70000]]⟩

/-- The second tick of a follower that goes two points further in each tick places its entity on the
third point, as near as can be stored, and the walk goes on around the path. -/
theorem pathFollower_visits_bent :
    let p : Properties := Dictionary.ofList [("speed", .integer 2)]
    let tick := pathFollower 512 p { bareSurroundings ⟨0, 2⟩ with geometry := bentPath }
    let w := World.start 12 12 0
    let once := leaves tick w
    pathOf? p bentPath = some [.ofInts 5 5, .ofInts 10 20, .ofInts (-3) 70000] ∧
      512 ∈ slotAddresses w.memory.size ∧ ¬ (⟨0, 2⟩ : Scratch).Lacks 2 ∧
      w.memory.scratch 512 ⟨0, 2⟩ .int16 0 = .ok 0 ∧
      Repeats (followers 512 p bentPath ⟨0, 2⟩)
        (World.AgreesOn ((⟨0, 2⟩ : Scratch).cell .int16 512)) w 1 once ∧
      ∃ twice, tick once = .ok () twice ∧ twice.memory.position 512 = .ok (0, 65535) ∧
        twice.memory.scratch 512 ⟨0, 2⟩ .int16 0 = .ok 1 := by
  intro p tick w once
  have hfirst : Number.truncateWord64 (p.number "path" 0) = 0 := by decide +kernel
  have hpath : pathOf? p bentPath = some [.ofInts 5 5, .ofInts 10 20, .ofInts (-3) 70000] := by
    rw [pathOf?, hfirst]
    rfl
  have hslot : 512 ∈ slotAddresses w.memory.size := by decide +kernel
  have hs : ¬ (⟨0, 2⟩ : Scratch).Lacks 2 := by
    unfold Scratch.Lacks
    decide
  have hstored : w.memory.scratch 512 ⟨0, 2⟩ .int16 0 = .ok 0 := by decide +kernel
  have hruns : Repeats (followers 512 p bentPath ⟨0, 2⟩)
      (World.AgreesOn ((⟨0, 2⟩ : Scratch).cell .int16 512)) w 1 once :=
    .step .start (Memory.Within.refl _ _) ⟨_, _, rfl⟩
  obtain ⟨point, twice, hpoint, hrun, hplace, hnext⟩ := pathFollower_visits hpath (by decide)
    (by decide) hslot hs hstored hruns (Memory.Within.refl _ _) Held.nothing Script.empty
  have hstep : pathStep p = 2 := by decide +kernel
  have hloops : p.flag "loop" true = true := by decide +kernel
  rw [hstep, hloops] at hpoint hnext
  obtain rfl : .ofInts (-3) 70000 = point := Option.some.inj hpoint
  exact ⟨hpath, hslot, hs, hstored, hruns, twice, hrun, hplace.trans (by decide +kernel), hnext⟩

end PixelScene.Component
