import PixelScene.Proofs.Atlas
import PixelScene.Proofs.Import.Walk

/-!
# Imports do not renumber the importer

Type numbers and sprite numbers are stored in memory, but a script stores neither: both are counted
off the order of declaration, types one by one and sprites by their frames. What imports add comes
behind what is there, so a merged script begins with the declarations of the importer.

* `Table.prefix_union`: a union begins with the first of its two tables.
* `Script.KeepsNumbers` says that names keep their numbers and new names get later ones;
  `Script.keepsNumbers_of_begins` derives it from the order of declaration alone.
* `Script.absorbAll_keepsNumbers`: any number of imports keeps the numbers of the importer.
* `Entry.keepsNumbers_resolution`: so does resolving all imports of an entry, whatever they are.

The byte of a slot has room for 255 types. An entity behind that has no number, and the engine says
so; an import can push entities of other imports beyond the bound, but never one of the importer.
Sprite numbers have no such bound here. What a memory holds from before an import was added stays
meaningful.
-/

namespace PixelScene

/-! ## Tables that begin alike -/

namespace Table

variable {α : Type} {t u : Table α} {key : String} {i : Nat}

theorem prefix_insertIfAbsent (t : Table α) (key : String) (value : α) :
    t.entries <+: (t.insertIfAbsent key value).entries := by
  unfold insertIfAbsent
  split
  · exact List.prefix_rfl
  · exact List.prefix_append _ _

/-- A union begins with the first of its two tables. -/
theorem prefix_union (t u : Table α) : t.entries <+: (t.union u).entries := by
  suffices h : ∀ (es : List (String × α)) (t : Table α),
      t.entries <+: (es.foldl (fun acc e => acc.insertIfAbsent e.1 e.2) t).entries from
    h u.entries t
  intro es
  induction es with
  | nil => exact fun t => List.prefix_rfl
  | cons e es ih => exact fun t => (prefix_insertIfAbsent t e.1 e.2).trans (ih _)

theorem isSome_position?_iff : (t.position? key).isSome = true ↔ key ∈ t.keys := by
  unfold position? keys
  simp only [List.findIdx?_isSome, List.any_eq_true, List.mem_map, beq_iff_eq]

/-- Where tables begin alike, a key has the place that it has in the shorter one. -/
theorem position?_of_prefix (h : t.entries <+: u.entries) (hkey : key ∈ t.keys) :
    u.position? key = t.position? key := by
  obtain ⟨rest, hrest⟩ := h
  have hsome : (t.position? key).isSome = true := isSome_position?_iff.mpr hkey
  obtain ⟨i, hi⟩ := Option.isSome_iff_exists.mp hsome
  unfold position? at hi ⊢
  rw [← hrest, List.findIdx?_append, hi, Option.some_or]

/-- Where tables begin alike, a key that only the longer one has comes behind the shorter one. -/
theorem size_le_of_position? (h : t.entries <+: u.entries) (hkey : key ∉ t.keys)
    (hi : u.position? key = some i) : t.size ≤ i := by
  obtain ⟨rest, hrest⟩ := h
  have hnone : t.position? key = none := by
    rw [← Option.not_isSome_iff_eq_none, isSome_position?_iff]
    exact hkey
  unfold position? at hi hnone
  rw [← hrest, List.findIdx?_append, hnone, Option.none_or] at hi
  obtain ⟨j, -, rfl⟩ := Option.map_eq_some_iff.mp hi
  exact Nat.le_add_left _ _

/-- The place of a key is the one where it stands. -/
theorem position?_eq_some_iff :
    t.position? key = some i ↔ ∃ value, t.at? i = some (key, value) := by
  unfold position? at?
  rw [List.findIdx?_eq_some_iff_getElem]
  constructor
  · rintro ⟨hi, hkey, -⟩
    refine ⟨t.entries[i].2, ?_⟩
    rw [List.getElem?_eq_getElem hi]
    exact congrArg some (Prod.ext (beq_iff_eq.mp hkey) rfl)
  · rintro ⟨value, hat⟩
    obtain ⟨hi, hentry⟩ := List.getElem?_eq_some_iff.mp hat
    refine ⟨hi, by rw [hentry]; exact beq_self_eq_true key, fun j hj hsame => ?_⟩
    -- an earlier entry with the same key would make it come twice
    have hnodup : t.entries.map Prod.fst = t.keys := rfl
    have hj' : j < t.keys.length := by rw [← hnodup, List.length_map]; omega
    have hi' : i < t.keys.length := by rw [← hnodup, List.length_map]; exact hi
    have hkeys : t.keys[j] = t.keys[i] := by
      simp only [keys, List.getElem_map, hentry]
      exact beq_iff_eq.mp hsame
    exact absurd ((List.Nodup.getElem_inj_iff t.nodup_keys).mp hkeys) (Nat.ne_of_lt hj)

end Table

/-! ## The two ways of numbering -/

namespace Atlas

variable {s r : Script} {name : String}

/-- Numbering goes on behind the sprites that are there. -/
theorem rangesFrom_append (next : Nat) (es fs : List (String × Sprite)) :
    rangesFrom next (es ++ fs) = rangesFrom next es ++ rangesFrom (next + numbersTaken es) fs := by
  induction es generalizing next with
  | nil => rfl
  | cons e es ih =>
    rw [List.cons_append, rangesFrom, rangesFrom, List.cons_append, ih, numbersTaken_cons,
      Nat.add_assoc]

/-- No sprite begins before the first number that is handed out. -/
theorem le_first_of_mem_rangesFrom {next : Nat} {es : List (String × Sprite)}
    {e : String × SpriteRange} (h : e ∈ rangesFrom next es) : next ≤ e.2.first := by
  induction es generalizing next with
  | nil => exact absurd h List.not_mem_nil
  | cons sprite es ih =>
    rw [rangesFrom] at h
    rcases List.mem_cons.mp h with rfl | h
    · exact Nat.le_refl next
    · exact Nat.le_of_add_right_le (ih h)

/-- Exactly the declared sprites have a range. -/
theorem isSome_range?_iff : ((ofScript s).range? name).isSome = true ↔ name ∈ s.sprites.keys := by
  unfold range? Table.get? ofScript Table.keys
  rw [List.lookup_isSome_iff, ← map_fst_rangesFrom 1, List.mem_map]
  simp only [beq_iff_eq, @eq_comm String name]

/-- Where the sprites begin alike, a name has the range that it has in the shorter script. -/
theorem range?_of_prefix (h : s.sprites.entries <+: r.sprites.entries)
    (hname : name ∈ s.sprites.keys) : (ofScript r).range? name = (ofScript s).range? name := by
  obtain ⟨rest, hrest⟩ := h
  obtain ⟨range, hrange⟩ := Option.isSome_iff_exists.mp (isSome_range?_iff.mpr hname)
  unfold range? Table.get? ofScript at hrange ⊢
  simp only at hrange ⊢
  rw [← hrest, rangesFrom_append, List.lookup_append, hrange, Option.some_or]

/-- Where the sprites begin alike, one that only the longer script has is numbered behind all of the
shorter one. -/
theorem size_lt_first (h : s.sprites.entries <+: r.sprites.entries) (hname : name ∉ s.sprites.keys)
    {range : SpriteRange} (hrange : (ofScript r).range? name = some range) :
    (ofScript s).size < range.first := by
  obtain ⟨rest, hrest⟩ := h
  have hnone : (ofScript s).range? name = none := by
    rw [← Option.not_isSome_iff_eq_none, isSome_range?_iff]
    exact hname
  unfold range? Table.get? ofScript at hrange hnone
  simp only at hrange hnone
  rw [← hrest, rangesFrom_append, List.lookup_append, hnone, Option.none_or] at hrange
  have hfirst : 1 + numbersTaken s.sprites.entries ≤ range.first :=
    le_first_of_mem_rangesFrom (mem_of_lookup hrange)
  rw [size_ofScript, Script.lastNumber]
  omega

end Atlas

namespace Script

variable {s r : Script} {name : String} {id : Nat}

theorem typeId?_eq_some_iff :
    s.typeId? name = some id ↔ ∃ i, s.entities.position? name = some i ∧ i < maxTypes ∧ i + 1 = id := by
  unfold typeId?
  cases s.entities.position? name with
  | none => simp
  | some i => by_cases hi : i < maxTypes <;> simp [hi]

theorem entityOfType?_eq_some_iff {e : String × Entity} :
    s.entityOfType? id = some e ↔ id ≠ 0 ∧ s.entities.at? (id - 1) = some e := by
  unfold entityOfType?
  by_cases hid : id = 0 <;> simp [hid]

/-- **Type numbers and entities are inverse to each other**, as far as a byte can count. -/
theorem typeId?_eq_some_iff_entityOfType? :
    s.typeId? name = some id ↔
      id ≤ maxTypes ∧ ∃ entity, s.entityOfType? id = some (name, entity) := by
  rw [typeId?_eq_some_iff]
  simp only [Table.position?_eq_some_iff, entityOfType?_eq_some_iff]
  constructor
  · rintro ⟨i, ⟨entity, hat⟩, hi, rfl⟩
    exact ⟨hi, entity, Nat.succ_ne_zero i, hat⟩
  · rintro ⟨hid, entity, hpos, hat⟩
    exact ⟨id - 1, ⟨entity, hat⟩, by omega, by omega⟩

/-- The entity at a place has the next number, and none where a byte cannot count so far. -/
theorem typeId?_of_at? {i : Nat} {entity : Entity}
    (hat : s.entities.at? i = some (name, entity)) :
    s.typeId? name = if i < maxTypes then some (i + 1) else none := by
  unfold typeId?
  rw [Table.position?_eq_some_iff.mpr ⟨entity, hat⟩]

/-! ## Numbers that are kept -/

/-- A script keeps the numbers of another: what the other one names has the same type number and the
same range of sprite numbers, and any other name comes behind all of these. -/
structure KeepsNumbers (s r : Script) : Prop where
  typeId?_eq : ∀ name ∈ s.entities.keys, r.typeId? name = s.typeId? name
  range?_eq : ∀ name ∈ s.sprites.keys,
    (Atlas.ofScript r).range? name = (Atlas.ofScript s).range? name
  newTypes : ∀ name ∈ r.entities.keys, name ∉ s.entities.keys →
    ∃ i, r.entities.position? name = some i ∧ s.entities.size ≤ i
  newSprites : ∀ name ∈ r.sprites.keys, name ∉ s.sprites.keys →
    ∃ range, (Atlas.ofScript r).range? name = some range ∧ (Atlas.ofScript s).size < range.first

/-- Numbers depend on the order of declaration alone. -/
theorem keepsNumbers_of_begins (hentities : s.entities.entries <+: r.entities.entries)
    (hsprites : s.sprites.entries <+: r.sprites.entries) : s.KeepsNumbers r where
  typeId?_eq name hname := by
    unfold typeId?
    rw [Table.position?_of_prefix hentities hname]
  range?_eq name hname := Atlas.range?_of_prefix hsprites hname
  newTypes name hname hnew := by
    obtain ⟨i, hi⟩ := Option.isSome_iff_exists.mp (Table.isSome_position?_iff.mpr hname)
    exact ⟨i, hi, Table.size_le_of_position? hentities hnew hi⟩
  newSprites name hname hnew := by
    obtain ⟨range, hrange⟩ := Option.isSome_iff_exists.mp (Atlas.isSome_range?_iff.mpr hname)
    exact ⟨range, hrange, Atlas.size_lt_first hsprites hnew hrange⟩

/-- A script after several imports, folded in one after the other. -/
def absorbAll (s : Script) (imports : List Script) : Script := imports.foldl absorb s

/-- Imports come behind the entities and sprites that are there. -/
theorem begins_absorbAll (s : Script) (imports : List Script) :
    s.entities.entries <+: (s.absorbAll imports).entities.entries ∧
      s.sprites.entries <+: (s.absorbAll imports).sprites.entries := by
  induction imports generalizing s with
  | nil => exact ⟨List.prefix_rfl, List.prefix_rfl⟩
  | cons imported imports ih =>
    obtain ⟨hentities, hsprites⟩ := ih (s.absorb imported)
    exact ⟨(Table.prefix_union s.entities imported.entities).trans hentities,
      (Table.prefix_union s.sprites imported.sprites).trans hsprites⟩

theorem keepsNumbers_absorbAll (s : Script) (imports : List Script) :
    s.KeepsNumbers (s.absorbAll imports) :=
  keepsNumbers_of_begins (begins_absorbAll s imports).1 (begins_absorbAll s imports).2

/-- A script with a hero and a sprite of three frames. -/
def heroScript : Script :=
  { empty with
    entities := .ofList [("Hero", Entity.empty)]
    sprites := .ofList [("run", .grid 0 0 3)] }

/-- A library that has a hero of its own and brings a slime. -/
def slimeScript : Script :=
  { empty with
    entities := .ofList [("Slime", Entity.empty), ("Hero", Entity.empty)]
    sprites := .ofList [("slime", .grid 4 0 2), ("run", .grid 9 9 1)] }

end Script

/-! ## Resolved scripts -/

/-- What a walk leads to is the script that it starts from, with imports folded in. -/
theorem Follows.exists_absorbAll {e : Entry} {file : String} {paths new : List String}
    {s s' : Script} {w w' : Walk} (h : Follows e file paths s w new s' w') :
    ∃ imports, s' = s.absorbAll imports := by
  induction h with
  | done => exact ⟨[], rfl⟩
  | fault _ _ ih => exact ih
  | known _ _ ih => exact ih
  | @fresh _ _ _ _ _ _ imported _ _ _ _ _ _ _ _ _ _ _ _ ih =>
    obtain ⟨imports, himports⟩ := ih
    exact ⟨imported :: imports, himports⟩

/-- **Resolving imports keeps the numbers of the entry**: a memory saved with them can be read
whatever the entry imports. -/
theorem Entry.keepsNumbers_resolution (e : Entry) :
    (e.script e.id).KeepsNumbers e.resolution.script := by
  obtain ⟨new, -, h⟩ := e.follows_resolution
  obtain ⟨imports, himports⟩ := h.exists_absorbAll
  rw [himports]
  exact Script.keepsNumbers_absorbAll _ imports

end PixelScene
