import Mathlib
import PixelScene.Atlas
import PixelScene.Proofs.FirstWins

/-!
# Sprite numbers share out an interval

The sprites of a script take the numbers from one on, in the order of declaration, each of them as
many as it has frames. An atlas holds this twice: as a range for each name and as a rectangle for
each number.

* `Script.Numbers`: which frame of which sprite a number belongs to, counted off the script alone.
* `Script.Numbers.unique`, `Script.exists_numbers`: a number up to the last belongs to one frame.
* `Atlas.ofScript_partitions`: the ranges and the rectangles of an atlas follow these numbers.

A number belongs to exactly one frame, so the ranges share out the interval from one to the last
number without a gap. That no sprite is declared twice is part of the table of sprites, and is what
keeps two ranges from having one name. Columns and pixels are held at their bounds by the atlas
itself (`grid_pixel`), and the statement has them as the atlas computes them. How the byte of a slot
shows these numbers is in `PixelScene.Proofs.Simulation.SpriteByte`.
-/

namespace PixelScene

/-! ## Counting off -/

/-- How many numbers some sprites take. -/
def numbersTaken (es : List (String × Sprite)) : Nat := (es.map fun e => e.2.frameCount).sum

@[simp] theorem numbersTaken_cons (e : String × Sprite) (es : List (String × Sprite)) :
    numbersTaken (e :: es) = e.2.frameCount + numbersTaken es := rfl

@[simp] theorem numbersTaken_append (es es' : List (String × Sprite)) :
    numbersTaken (es ++ es') = numbersTaken es + numbersTaken es' := by
  rw [numbersTaken, List.map_append, List.sum_append]
  rfl

theorem numbersTaken_take_mono (es : List (String × Sprite)) {i j : Nat} (h : i ≤ j) :
    numbersTaken (es.take i) ≤ numbersTaken (es.take j) := by
  obtain ⟨n, rfl⟩ := Nat.exists_eq_add_of_le h
  rw [List.take_add, numbersTaken_append]
  exact Nat.le_add_right _ _

theorem numbersTaken_take_succ {es : List (String × Sprite)} {i : Nat} {e : String × Sprite}
    (h : es[i]? = some e) :
    numbersTaken (es.take (i + 1)) = numbersTaken (es.take i) + e.2.frameCount := by
  rw [List.take_add_one, h, numbersTaken_append]
  rfl

/-- What stands before an element, the element and what stands behind it. -/
theorem take_append_cons_drop {α : Type} {es : List α} {i : Nat} {e : α} (h : es[i]? = some e) :
    es.take i ++ e :: es.drop (i + 1) = es := by
  obtain ⟨hi, rfl⟩ := List.getElem?_eq_some_iff.mp h
  rw [← List.drop_eq_getElem_cons hi, List.take_append_drop]

namespace Sprite

/-- A sprite has a frame at least. -/
theorem frameCount_pos (s : Sprite) : 0 < s.frameCount := by
  cases s with
  | grid column row frames => exact Nat.lt_of_lt_of_le Nat.one_pos (Nat.le_max_right frames 1)
  | absolute => exact Nat.one_pos

end Sprite

namespace Script

variable {s : Script} {i j k l id : Nat}

/-- The first number of the sprite at a place: the sprites before it take all lower ones. -/
def firstNumber (s : Script) (i : Nat) : Nat := 1 + numbersTaken (s.sprites.entries.take i)

/-- How many numbers the sprites of a script take. -/
def lastNumber (s : Script) : Nat := numbersTaken s.sprites.entries

/-- A number belongs to the frame `k` of the sprite at place `i`. -/
def Numbers (s : Script) (i k id : Nat) : Prop :=
  ∃ e, s.sprites.at? i = some e ∧ k < e.2.frameCount ∧ s.firstNumber i + k = id

/-- A sprite begins behind all numbers of a sprite before it. -/
theorem firstNumber_add_le {e : String × Sprite} (h : s.sprites.at? i = some e) (hij : i < j) :
    s.firstNumber i + e.2.frameCount ≤ s.firstNumber j := by
  have hmono := numbersTaken_take_mono s.sprites.entries hij
  rw [numbersTaken_take_succ h] at hmono
  unfold firstNumber
  omega

/-- A number belongs to one frame of one sprite only. -/
theorem Numbers.unique (h : s.Numbers i k id) (h' : s.Numbers j l id) : i = j ∧ k = l := by
  obtain ⟨e, he, hk, hid⟩ := h
  obtain ⟨e', he', hl, hid'⟩ := h'
  rcases Nat.lt_trichotomy i j with hlt | rfl | hlt
  · have := firstNumber_add_le he hlt
    omega
  · exact ⟨rfl, by omega⟩
  · have := firstNumber_add_le he' hlt
    omega

/-- Counting through the sprites reaches every number. -/
theorem exists_place {es : List (String × Sprite)} {n : Nat} (h : n < numbersTaken es) :
    ∃ i k e, es[i]? = some e ∧ k < e.2.frameCount ∧ numbersTaken (es.take i) + k = n := by
  induction es generalizing n with
  | nil => exact absurd h (Nat.not_lt_zero n)
  | cons e es ih =>
    rw [numbersTaken_cons] at h
    by_cases hfirst : n < e.2.frameCount
    · exact ⟨0, n, e, rfl, hfirst, Nat.zero_add n⟩
    · obtain ⟨i, k, e', he', hk, hn⟩ := ih (n := n - e.2.frameCount) (by omega)
      refine ⟨i + 1, k, e', he', hk, ?_⟩
      rw [List.take_succ_cons, numbersTaken_cons]
      omega

/-- Every number up to the last belongs to some frame. -/
theorem exists_numbers (hlow : 1 ≤ id) (hhigh : id ≤ s.lastNumber) : ∃ i k, s.Numbers i k id := by
  have hplace : id - 1 < numbersTaken s.sprites.entries :=
    Nat.lt_of_lt_of_le (Nat.sub_one_lt_of_le hlow (Nat.le_refl id)) hhigh
  obtain ⟨i, k, e, he, hk, hn⟩ := exists_place hplace
  refine ⟨i, k, e, he, hk, ?_⟩
  unfold firstNumber
  omega

end Script

/-! ## The two tables of an atlas -/

namespace Atlas

variable {s : Script} {i k id : Nat}

theorem length_framesOf (side : Nat) (e : String × Sprite) :
    (framesOf side e).length = e.2.frameCount := by
  rw [framesOf, List.length_map, List.length_range]

theorem length_flatMap_framesOf (side : Nat) (es : List (String × Sprite)) :
    (es.flatMap (framesOf side)).length = numbersTaken es := by
  simp only [List.length_flatMap, length_framesOf, numbersTaken]

/-- The frames of a sprite come after those of the sprites before it. -/
theorem getElem?_flatMap_framesOf (side : Nat) {es : List (String × Sprite)} {e : String × Sprite}
    (h : es[i]? = some e) (hk : k < e.2.frameCount) :
    (es.flatMap (framesOf side))[numbersTaken (es.take i) + k]? =
      some (e.2.frame side e.1 k) := by
  rw [← length_framesOf side] at hk
  have hsplit : es.flatMap (framesOf side) = (es.take i).flatMap (framesOf side) ++
      (framesOf side e ++ (es.drop (i + 1)).flatMap (framesOf side)) := by
    rw [← List.flatMap_cons, ← List.flatMap_append, take_append_cons_drop h]
  rw [hsplit, ← length_flatMap_framesOf side, List.getElem?_append_right (Nat.le_add_right _ _),
    Nat.add_sub_cancel_left, List.getElem?_append_left hk, List.getElem?_eq_getElem hk]
  simp only [framesOf, List.getElem_map, List.getElem_range]

theorem size_ofScript (s : Script) : (ofScript s).size = s.lastNumber :=
  length_flatMap_framesOf _ _

theorem isSome_frame?_iff {a : Atlas} : (a.frame? id).isSome = true ↔ 1 ≤ id ∧ id ≤ a.size := by
  unfold frame? size
  split
  · rename_i hzero
    rw [hzero]
    exact ⟨nofun, fun h => absurd h.1 (by decide)⟩
  · rw [Option.isSome_iff_ne_none, ne_eq, List.getElem?_eq_none_iff]
    omega

/-- A number stands for the frame that it belongs to. -/
theorem frame?_of_numbers {e : String × Sprite} (he : s.sprites.at? i = some e)
    (hk : k < e.2.frameCount) (hid : s.firstNumber i + k = id) :
    (ofScript s).frame? id = some (e.2.frame s.gridSize e.1 k) := by
  have hplace : id - 1 = numbersTaken (s.sprites.entries.take i) + k := by
    unfold Script.firstNumber at hid
    omega
  have hpos : id ≠ 0 := by
    unfold Script.firstNumber at hid
    omega
  rw [frame?, if_neg hpos, hplace]
  exact getElem?_flatMap_framesOf s.gridSize he hk

/-- The range of a name begins behind the numbers of the sprites before it. -/
theorem lookup_rangesFrom (next : Nat) {before after : List (String × Sprite)} {name : String}
    {sprite : Sprite} (h : name ∉ before.map Prod.fst) :
    (rangesFrom next (before ++ (name, sprite) :: after)).lookup name =
      some ⟨next + numbersTaken before, sprite.frameCount⟩ := by
  induction before generalizing next with
  | nil => exact List.lookup_cons_self
  | cons e before ih =>
    obtain ⟨hne, hbefore⟩ := not_or.mp fun hmem => h (List.mem_cons.mpr hmem)
    rw [List.cons_append, rangesFrom, lookup_cons_ite, if_neg hne, ih _ hbefore, numbersTaken_cons,
      Nat.add_assoc]

theorem range?_ofScript {name : String} {sprite : Sprite}
    (hat : s.sprites.at? i = some (name, sprite)) :
    (ofScript s).range? name = some ⟨s.firstNumber i, sprite.frameCount⟩ := by
  have hsplit := take_append_cons_drop hat
  have hnew : name ∉ (s.sprites.entries.take i).map Prod.fst := by
    have h := s.sprites.distinct
    rw [← hsplit, List.map_append, List.map_cons] at h
    exact fun hmem => List.disjoint_of_nodup_append h hmem List.mem_cons_self
  rw [range?, Table.get?, Script.firstNumber]
  show (rangesFrom 1 s.sprites.entries).lookup name = _
  nth_rewrite 1 [← hsplit]
  exact lookup_rangesFrom 1 hnew

theorem mem_numbered_iff {a : Atlas} {f : SpriteFrame} :
    (id, f) ∈ a.numbered ↔ a.frame? id = some f := by
  unfold numbered frame?
  rw [List.mem_mapIdx]
  constructor
  · rintro ⟨n, hn, hpair⟩
    obtain ⟨rfl, rfl⟩ := Prod.mk.inj hpair
    rw [if_neg (Nat.succ_ne_zero n), Nat.add_sub_cancel, List.getElem?_eq_getElem hn]
  · intro h
    split at h
    · exact absurd h nofun
    · rename_i hzero
      obtain ⟨hn, hf⟩ := List.getElem?_eq_some_iff.mp h
      exact ⟨id - 1, hn, Prod.ext (Nat.succ_pred_eq_of_ne_zero hzero) hf⟩

theorem map_fst_numbered (a : Atlas) : a.numbered.map Prod.fst = List.range' 1 a.size := by
  refine List.ext_getElem (by simp [numbered, size]) fun n h h' => ?_
  simp only [numbered, List.getElem_map, List.getElem_mapIdx, List.getElem_range', Nat.one_mul]
  exact Nat.add_comm n 1

end Atlas

/-! ## Rectangles -/

namespace Sprite

/-- What the rectangle of a frame has to be. Frames on a grid go to the right up to the last column,
and what would lie beyond the greatest coordinate lies at it. -/
def ShownAt (side k : Nat) (f : SpriteFrame) : Sprite → Prop
  | grid column row _ =>
    f.x = (min (min (column + k) (2 ^ 32 - 1) * side) (2 ^ 31 - 1) : Nat) ∧
      f.y = (min (row * side) (2 ^ 31 - 1) : Nat) ∧
      f.width = side ∧ f.height = side ∧ f.offsetX = 0 ∧ f.offsetY = 0
  | absolute x y width height offsetX offsetY =>
    f.x = x ∧ f.y = y ∧ f.width = width ∧ f.height = height ∧
      f.offsetX = offsetX ∧ f.offsetY = offsetY

theorem shownAt_frame (s : Sprite) (side : Nat) (name : String) (k : Nat) :
    s.ShownAt side k (s.frame side name k) := by
  cases s with
  | grid column row frames => exact ⟨rfl, rfl, rfl, rfl, rfl, rfl⟩
  | absolute => exact ⟨rfl, rfl, rfl, rfl, rfl, rfl⟩

end Sprite

namespace Atlas

/--
**Sprites share out the numbers from one to the last.** A name has the range that begins behind the
sprites before it and has as many numbers as the sprite has frames; a number has a rectangle exactly
when it is one of them, and then it belongs to a single frame of a single sprite, whose rectangle it
is. The list of numbers goes through all of them once, ascending.
-/
theorem ofScript_partitions (s : Script) :
    let a := ofScript s
    (∀ i name sprite, s.sprites.at? i = some (name, sprite) →
      a.range? name = some ⟨s.firstNumber i, sprite.frameCount⟩) ∧
    a.size = (s.sprites.values.map Sprite.frameCount).sum ∧
    (∀ id, (a.frame? id).isSome = true ↔ 1 ≤ id ∧ id ≤ a.size) ∧
    (∀ id, 1 ≤ id → id ≤ a.size → ∃! p : Nat × Nat, s.Numbers p.1 p.2 id) ∧
    (∀ i k id, s.Numbers i k id → ∃ name sprite f, s.sprites.at? i = some (name, sprite) ∧
      a.frame? id = some f ∧ f.name = name ∧ f.frame = k ∧ sprite.ShownAt s.gridSize k f) ∧
    a.numbered.map Prod.fst = List.range' 1 a.size ∧
    ∀ id f, (id, f) ∈ a.numbered ↔ a.frame? id = some f := by
  intro a
  refine ⟨fun i name sprite => range?_ofScript, ?_, fun id => isSome_frame?_iff, ?_, ?_,
    map_fst_numbered a, fun id f => mem_numbered_iff⟩
  · rw [Table.values, List.map_map]
    exact size_ofScript s
  · intro id hlow hhigh
    obtain ⟨i, k, hnumbers⟩ := Script.exists_numbers hlow (size_ofScript s ▸ hhigh)
    refine ⟨(i, k), hnumbers, fun p hp => ?_⟩
    obtain ⟨hi, hk⟩ := hp.unique hnumbers
    exact Prod.ext hi hk
  · rintro i k id ⟨⟨name, sprite⟩, hat, hk, hid⟩
    refine ⟨name, sprite, _, hat, frame?_of_numbers hat hk hid, ?_, ?_,
      sprite.shownAt_frame s.gridSize name k⟩
    · cases sprite <;> rfl
    · cases sprite <;> rfl

/-- Two sprites on a grid of eight and one anywhere. -/
def gallery : Script :=
  { Script.empty with
    spriteGrid := some 8
    sprites := .ofList [("idle", .grid 0 0 1), ("run", .grid 1 2 3),
      ("boss", .absolute 40 8 16 16 0 0)] }

theorem ofScript_partitions_gallery :
    (ofScript gallery).range? "boss" = some ⟨5, 1⟩ ∧
      ∃ f, (ofScript gallery).frame? 4 = some f ∧ f.name = "run" ∧ f.frame = 2 ∧ f.x = 24 := by
  obtain ⟨hranges, -, -, -, hframes, -, -⟩ := ofScript_partitions gallery
  refine ⟨hranges 2 "boss" _ rfl, ?_⟩
  obtain ⟨name, sprite, f, hat, hframe, hname, hk, hshown⟩ :=
    hframes 1 2 4 ⟨("run", .grid 1 2 3), rfl, by decide, rfl⟩
  obtain ⟨rfl, rfl⟩ := Prod.mk.inj (Option.some.inj hat)
  exact ⟨f, hframe, hname, hk, hshown.1⟩

end Atlas

end PixelScene
