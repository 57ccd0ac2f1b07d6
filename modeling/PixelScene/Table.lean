/-!
# Tables and dictionaries

Two finite maps with text keys, both lists of pairs under the hood. No key comes twice in either of
them, which is part of what they are: every operation below proves it of what it gives.

* A `Table` keeps its keys in the order in which they came in: a new key goes to the end, a new
  value for a known key takes the place of the old one. Positions in a table are meaningful, since
  type numbers and sprite numbers are counted off them (`OrderedMap`).
* A `Dictionary` keeps its keys in ascending order, so it forgets the order of insertion. It stands
  for the sorted maps of the standard library, and for the hashed ones, whose order nothing reads.

What the operations do:

* `Table.get?_insert`, `Dictionary.get?_insert`: giving a key a value changes what is found under
  this key and under no other.
* `Table.get?_union`, `Dictionary.get?_union`: in a union the first of the two wins.
* `Table.keys_insert`: a new key goes to the end, and a known one stays where it is.

Two tables are equal if their entries are, in order. The proofs that they carry make no difference
(`Table.ext`), and a table is compared or printed by its entries alone.
-/

namespace PixelScene

/-- What is found in a list of pairs is the value of the first pair with the key. -/
theorem lookup_cons_ite {α : Type} (e : String × α) (es : List (String × α)) (key : String) :
    (e :: es).lookup key = if key = e.1 then some e.2 else es.lookup key := by
  rw [List.lookup_cons]
  by_cases h : key = e.1
  · simp [h]
  · simp [h, beq_false_of_ne h]

/-! ## Tables -/

/-- A finite map with text keys in the order of their insertion. -/
@[ext]
structure Table (α : Type) where
  entries : List (String × α)
  distinct : (entries.map Prod.fst).Nodup

namespace Table

variable {α : Type}

/-- The table without entries. -/
def empty : Table α := ⟨[], List.nodup_nil⟩

instance : Inhabited (Table α) := ⟨empty⟩

instance : EmptyCollection (Table α) := ⟨empty⟩

/-- The number of entries. -/
def size (t : Table α) : Nat := t.entries.length

/-- Whether there are no entries. -/
def isEmpty (t : Table α) : Bool := t.entries.isEmpty

/-- The keys in order. -/
def keys (t : Table α) : List String := t.entries.map Prod.fst

theorem nodup_keys (t : Table α) : t.keys.Nodup := t.distinct

/-- The values in the order of their keys. -/
def values (t : Table α) : List α := t.entries.map Prod.snd

/-- The place of a key, counted from zero. -/
def position? (t : Table α) (key : String) : Option Nat := t.entries.findIdx? (·.1 == key)

/-- The value of a key. -/
def get? (t : Table α) (key : String) : Option α := t.entries.lookup key

/-- The key and value at a place. -/
def at? (t : Table α) (index : Nat) : Option (String × α) := t.entries[index]?

/-- Whether a key has a value. -/
def contains (t : Table α) (key : String) : Bool := t.entries.any (·.1 == key)

theorem contains_iff_mem_keys (t : Table α) (key : String) :
    t.contains key = true ↔ key ∈ t.keys := by
  unfold contains keys
  rw [List.any_eq_true, List.mem_map]
  simp only [beq_iff_eq]

theorem map_fst_replace (es : List (String × α)) (key : String) (value : α) :
    (es.map fun e => if e.1 == key then (e.1, value) else e).map Prod.fst = es.map Prod.fst := by
  rw [List.map_map]
  exact List.map_congr_left fun e _ => by simp only [Function.comp]; split <;> rfl

/-- Gives a known key a new value in its place. -/
def replace (t : Table α) (key : String) (value : α) : Table α where
  entries := t.entries.map fun e => if e.1 == key then (e.1, value) else e
  distinct := by
    rw [map_fst_replace]
    exact t.distinct

/-- Adds a new key at the end. -/
def push (t : Table α) (key : String) (value : α) (h : ¬ t.contains key = true) : Table α where
  entries := t.entries ++ [(key, value)]
  distinct := by
    rw [List.map_append, List.nodup_append]
    refine ⟨t.distinct, List.nodup_cons.mpr ⟨List.not_mem_nil, List.nodup_nil⟩, ?_⟩
    rintro a ha b hb rfl
    obtain rfl := List.mem_singleton.mp hb
    exact h ((t.contains_iff_mem_keys _).mpr ha)

/-- Gives a key a value: a known key keeps its place, a new one goes to the end. -/
def insert (t : Table α) (key : String) (value : α) : Table α :=
  if h : t.contains key = true then t.replace key value else t.push key value h

/-- Gives a key a value only if it has none yet. -/
def insertIfAbsent (t : Table α) (key : String) (value : α) : Table α :=
  if h : t.contains key = true then t else t.push key value h

/-- Drops a key; the others keep their order. -/
def erase (t : Table α) (key : String) : Table α where
  entries := t.entries.filter (·.1 != key)
  distinct := t.distinct.sublist (List.filter_sublist.map Prod.fst)

/-- The table of some pairs, inserted one after the other. -/
def ofList (pairs : List (String × α)) : Table α :=
  pairs.foldl (fun t e => t.insert e.1 e.2) empty

/-- The entries of `t`, and after them those of `u` whose key `t` lacks. -/
def union (t u : Table α) : Table α :=
  u.entries.foldl (fun acc e => acc.insertIfAbsent e.1 e.2) t

/-! ### What is found -/

/-- A key has a value exactly when one is found. -/
theorem contains_eq_isSome (t : Table α) (key : String) :
    t.contains key = (t.get? key).isSome := by
  unfold contains get?
  induction t.entries with
  | nil => rfl
  | cons e es ih =>
    rw [List.any_cons, ih, lookup_cons_ite]
    by_cases h : key = e.1
    · simp [h]
    · simp [h, beq_false_of_ne (Ne.symm h)]

theorem get?_replace (t : Table α) (key other : String) (value : α) :
    (t.replace key value).get? other =
      if other = key then (t.get? key).map fun _ => value else t.get? other := by
  simp only [replace, get?]
  induction t.entries with
  | nil => simp
  | cons e es ih =>
    simp only [List.map_cons, lookup_cons_ite, ih]
    by_cases h : e.1 = key <;> by_cases ho : other = key <;> grind

theorem get?_push (t : Table α) (key other : String) (value : α) (h : ¬ t.contains key = true) :
    (t.push key value h).get? other =
      (t.get? other).or (if other = key then some value else none) := by
  simp [push, get?, List.lookup_append, lookup_cons_ite]

/-- Giving a key a value changes what is found under this key and under no other. -/
theorem get?_insert (t : Table α) (key other : String) (value : α) :
    (t.insert key value).get? other = if other = key then some value else t.get? other := by
  unfold insert
  cases hc : t.get? key with
  | none => by_cases h : other = key <;> simp [contains_eq_isSome, get?_push, hc, h]
  | some v => by_cases h : other = key <;> simp [contains_eq_isSome, get?_replace, hc, h]

/-- A value that a key has already wins over one that is given only if there is none. -/
theorem get?_insertIfAbsent (t : Table α) (key other : String) (value : α) :
    (t.insertIfAbsent key value).get? other =
      (t.get? other).or (if other = key then some value else none) := by
  unfold insertIfAbsent
  cases hc : t.get? key with
  | none => simp [contains_eq_isSome, get?_push, hc]
  | some v => by_cases h : other = key <;> simp [contains_eq_isSome, hc, h]

/-- In a union the first of the two tables wins. -/
theorem get?_union (t u : Table α) (key : String) :
    (t.union u).get? key = (t.get? key).or (u.get? key) := by
  suffices h : ∀ (es : List (String × α)) (t : Table α),
      (es.foldl (fun acc e => acc.insertIfAbsent e.1 e.2) t).get? key =
        (t.get? key).or (es.lookup key) from h u.entries t
  intro es
  induction es with
  | nil => intro t; simp
  | cons e es ih =>
    intro t
    rw [List.foldl_cons, ih, get?_insertIfAbsent, lookup_cons_ite]
    by_cases h : key = e.1 <;> simp [h]

/-! ### The order of keys -/

theorem keys_replace (t : Table α) (key : String) (value : α) :
    (t.replace key value).keys = t.keys := map_fst_replace t.entries key value

theorem keys_push (t : Table α) (key : String) (value : α) (h : ¬ t.contains key = true) :
    (t.push key value h).keys = t.keys ++ [key] := by simp [keys, push]

/-- A new key goes to the end, and a known one stays where it is. -/
theorem keys_insert (t : Table α) (key : String) (value : α) :
    (t.insert key value).keys = if t.contains key then t.keys else t.keys ++ [key] := by
  unfold insert
  split
  · exact keys_replace t key value
  · exact keys_push t key value _

theorem keys_insertIfAbsent (t : Table α) (key : String) (value : α) :
    (t.insertIfAbsent key value).keys = if t.contains key then t.keys else t.keys ++ [key] := by
  unfold insertIfAbsent
  split
  · rfl
  · exact keys_push t key value _

end Table

/-! ## Dictionaries -/

/-- A finite map with text keys in ascending order. -/
@[ext]
structure Dictionary (α : Type) where
  entries : List (String × α)
  ascending : (entries.map Prod.fst).Pairwise (· < ·)

namespace Dictionary

variable {α : Type}

instance [BEq α] : BEq (Dictionary α) := ⟨fun d e => d.entries == e.entries⟩

/-- The dictionary without entries. -/
def empty : Dictionary α := ⟨[], .nil⟩

instance : Inhabited (Dictionary α) := ⟨empty⟩

instance : EmptyCollection (Dictionary α) := ⟨empty⟩

/-- Whether there are no entries. -/
def isEmpty (d : Dictionary α) : Bool := d.entries.isEmpty

/-- The keys in order. -/
def keys (d : Dictionary α) : List String := d.entries.map Prod.fst

theorem keys_ascending (d : Dictionary α) : d.keys.Pairwise (· < ·) := d.ascending

/-- The value of a key. -/
def get? (d : Dictionary α) (key : String) : Option α := d.entries.lookup key

/-- Puts a pair where its key belongs, in place of a value that the key has. -/
def place (key : String) (value : α) : List (String × α) → List (String × α)
  | [] => [(key, value)]
  | e :: es =>
    if key = e.1 then (key, value) :: es
    else if key < e.1 then (key, value) :: e :: es
    else e :: place key value es

theorem mem_keys_place {key other : String} {value : α} {es : List (String × α)}
    (h : other ∈ (place key value es).map Prod.fst) : other = key ∨ other ∈ es.map Prod.fst := by
  induction es with
  | nil => exact Or.inl (List.mem_singleton.mp h)
  | cons e es ih =>
    unfold place at h
    split at h
    · rename_i he
      rw [List.map_cons, he] at h
      exact Or.inr h
    · split at h
      · exact List.mem_cons.mp h
      · rcases List.mem_cons.mp h with h | h
        · exact Or.inr (List.mem_cons.mpr (Or.inl h))
        · exact (ih h).imp_right (List.mem_cons_of_mem _)

theorem pairwise_place (key : String) (value : α) {es : List (String × α)}
    (h : (es.map Prod.fst).Pairwise (· < ·)) :
    ((place key value es).map Prod.fst).Pairwise (· < ·) := by
  induction es with
  | nil => exact List.pairwise_singleton _ _
  | cons e es ih =>
    rw [List.map_cons, List.pairwise_cons] at h
    obtain ⟨hhead, htail⟩ := h
    unfold place
    split
    · rename_i he
      exact List.pairwise_cons.mpr ⟨fun other hother => he ▸ hhead other hother, htail⟩
    · rename_i hne
      split
      · rename_i hlt
        refine List.pairwise_cons.mpr
          ⟨fun other hother => ?_, List.pairwise_cons.mpr ⟨hhead, htail⟩⟩
        rcases List.mem_cons.mp hother with rfl | hother
        · exact hlt
        · exact String.lt_trans hlt (hhead other hother)
      · rename_i hnot
        have hle : e.1 ≤ key := String.not_lt.mp hnot
        refine List.pairwise_cons.mpr ⟨fun other hother => ?_, ih htail⟩
        rcases mem_keys_place hother with rfl | hother
        · exact Decidable.byContradiction fun hlt =>
            hne (String.le_antisymm (String.not_lt.mp hlt) hle)
        · exact hhead other hother

/-- Gives a key a value. -/
def insert (d : Dictionary α) (key : String) (value : α) : Dictionary α :=
  ⟨place key value d.entries, pairwise_place key value d.ascending⟩

/-- Drops a key. -/
def erase (d : Dictionary α) (key : String) : Dictionary α where
  entries := d.entries.filter (·.1 != key)
  ascending := d.ascending.sublist (List.filter_sublist.map Prod.fst)

/-- Gives a key a value only if it has none yet. -/
def insertIfAbsent (d : Dictionary α) (key : String) (value : α) : Dictionary α :=
  if (d.get? key).isSome then d else d.insert key value

/-- The dictionary of some pairs; the last value given to a key counts. -/
def ofList (pairs : List (String × α)) : Dictionary α :=
  pairs.foldl (fun d e => d.insert e.1 e.2) empty

/-- Everything in `d` or `e`; where both have a value, that of `d` counts. -/
def union (d e : Dictionary α) : Dictionary α :=
  e.entries.foldl (fun acc p => acc.insertIfAbsent p.1 p.2) d

/-- Everything in `d` or `e`; where both have a value, that of `e` counts. -/
def override (d e : Dictionary α) : Dictionary α :=
  e.entries.foldl (fun acc p => acc.insert p.1 p.2) d

/-! ### What is found -/

theorem lookup_place (key other : String) (value : α) (entries : List (String × α)) :
    (place key value entries).lookup other =
      if other = key then some value else entries.lookup other := by
  induction entries with
  | nil => simp [place, lookup_cons_ite]
  | cons e es ih =>
    unfold place
    split
    · simp only [lookup_cons_ite]
      grind
    · split
      · simp only [lookup_cons_ite]
      · simp only [lookup_cons_ite, ih]
        grind

/-- Giving a key a value changes what is found under this key and under no other. -/
theorem get?_insert (d : Dictionary α) (key other : String) (value : α) :
    (d.insert key value).get? other = if other = key then some value else d.get? other :=
  lookup_place key other value d.entries

/-- A value that a key has already wins over one that is given only if there is none. -/
theorem get?_insertIfAbsent (d : Dictionary α) (key other : String) (value : α) :
    (d.insertIfAbsent key value).get? other =
      (d.get? other).or (if other = key then some value else none) := by
  unfold insertIfAbsent
  cases hc : d.get? key with
  | none => by_cases h : other = key <;> simp [get?_insert, hc, h]
  | some v => by_cases h : other = key <;> simp [hc, h]

theorem get?_isSome_iff_mem_keys (d : Dictionary α) (key : String) :
    (d.get? key).isSome = true ↔ key ∈ d.keys := by
  unfold get? keys
  rw [List.lookup_isSome_iff, List.mem_map]
  simp only [beq_iff_eq, @eq_comm String key]

/-- In a union the first of the two dictionaries wins. -/
theorem get?_union (d e : Dictionary α) (key : String) :
    (d.union e).get? key = (d.get? key).or (e.get? key) := by
  suffices h : ∀ (es : List (String × α)) (d : Dictionary α),
      (es.foldl (fun acc p => acc.insertIfAbsent p.1 p.2) d).get? key =
        (d.get? key).or (es.lookup key) from h e.entries d
  intro es
  induction es with
  | nil => intro d; simp
  | cons p es ih =>
    intro d
    rw [List.foldl_cons, ih, get?_insertIfAbsent, lookup_cons_ite]
    by_cases h : key = p.1 <;> simp [h]

end Dictionary

end PixelScene
