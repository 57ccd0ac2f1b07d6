import Mathlib.Data.Finmap
import Mathlib.Data.List.Dedup
import PixelScene.Proofs.Script.Numbering

/-!
# What a table remembers

A table is a list of pairs without repeated keys, and nothing in the list keeps a value from
standing in the wrong place. This file says what a table is after any number of edits, whatever they
are. Next to the table a `Ledger` is kept: a plain finite map, which knows no order, and the list of
all keys that ever came in new. The table never strays from its ledger.

* `Table.entries_replace`, `Table.entries_erase`: a known key is given a value, or dropped, at its
  place and nowhere else.
* `Table.Agrees`: what is found in the table is what is found in the map, and the keys stand in the
  order in which they last came in new.
* `Table.Edit.agrees`: no edit breaks the agreement.
* `Table.after_keeps_order`: hence, after any edits from the empty table on, no key comes twice, the
  values are those of the map, the keys are in order, and the places of keys are where they stand.

The edits are the operations of the engine on its ordered map: `insert`, `insert_if_absent`,
`remove` and writing through `get_mut`. A finite map of Mathlib is the ledger's book of values; the
order is read off the list of arrivals, as the last occurrences in it of those keys that are still
there.
-/

namespace PixelScene

/-! ## Last occurrences -/

/-- A name at the end is the last occurrence of itself. -/
theorem dedup_concat {α : Type} [DecidableEq α] (l : List α) (a : α) :
    (l ++ [a]).dedup = l.dedup.filter (· ≠ a) ++ [a] := by
  induction l with
  | nil => rfl
  | cons b l ih =>
    by_cases hb : b ∈ l
    · have hb' : b ∈ l ++ [a] := List.mem_append_left _ hb
      rw [List.cons_append, List.dedup_cons_of_mem hb', List.dedup_cons_of_mem hb, ih]
    · rw [List.dedup_cons_of_notMem hb, List.cons_append]
      by_cases hba : b = a
      · have hb' : b ∈ l ++ [a] := List.mem_append_right _ (List.mem_singleton.mpr hba)
        rw [List.dedup_cons_of_mem hb', ih, List.filter_cons_of_neg (by simpa using hba)]
      · have hb' : b ∉ l ++ [a] := by simp [hb, hba]
        rw [List.dedup_cons_of_notMem hb', ih, List.filter_cons_of_pos (by simpa using hba),
          List.cons_append]

namespace Table

variable {α : Type}

/-! ## Dropping a key and writing through it -/

theorem get?_erase (t : Table α) (key other : String) :
    (t.erase key).get? other = if other = key then none else t.get? other := by
  simp only [erase, get?]
  induction t.entries with
  | nil => simp
  | cons e es ih =>
    rw [List.filter_cons, lookup_cons_ite]
    by_cases h : e.1 = key
    · rw [if_neg (by simpa using h), ih]
      by_cases ho : other = key <;> simp [h, ho]
    · rw [if_pos (by simpa using h), lookup_cons_ite, ih]
      grind

/-- Dropping a key leaves the others in order. -/
theorem keys_erase (t : Table α) (key : String) :
    (t.erase key).keys = t.keys.filter (· ≠ key) := by
  unfold erase keys
  rw [List.filter_map]
  exact congrArg _ (List.filter_congr fun e _ => by simp [bne, Bool.beq_eq_decide_eq])

/-- Writes through a key that has a value. -/
def modify (t : Table α) (key : String) (f : α → α) : Table α :=
  match t.get? key with
  | some value => t.replace key (f value)
  | none => t

theorem get?_modify (t : Table α) (key other : String) (f : α → α) :
    (t.modify key f).get? other =
      if other = key then (t.get? key).map f else t.get? other := by
  unfold modify
  cases hc : t.get? key with
  | none => by_cases h : other = key <;> simp [hc, h]
  | some value => simp [get?_replace, hc]

/-- Writing through a key moves nothing. -/
theorem keys_modify (t : Table α) (key : String) (f : α → α) :
    (t.modify key f).keys = t.keys := by
  unfold modify
  split
  · exact keys_replace t key _
  · rfl

/-! ## One entry and no other -/

/-- The entry at the place of a key is the one with this key. -/
theorem getElem_fst_iff {t : Table α} {key : String} {i : Nat} (hi : t.position? key = some i)
    {j : Nat} (hj : j < t.entries.length) : t.entries[j].1 = key ↔ i = j := by
  constructor
  · intro hkey
    have hat : t.at? j = some (key, t.entries[j].2) := by
      rw [at?, List.getElem?_eq_getElem hj, ← hkey]
    exact Option.some.inj (hi.symm.trans (position?_eq_some_iff.mpr ⟨_, hat⟩))
  · rintro rfl
    obtain ⟨value, hat⟩ := position?_eq_some_iff.mp hi
    rw [(List.getElem?_eq_some_iff.mp hat).2]

/-- A new value for a known key is written at its place and nowhere else. -/
theorem entries_replace {t : Table α} {key : String} {i : Nat} (hi : t.position? key = some i)
    (value : α) : (t.replace key value).entries = t.entries.set i (key, value) := by
  refine List.ext_getElem (by simp [replace]) fun j hj _ => ?_
  have hlt : j < t.entries.length := by simpa [replace] using hj
  have hiff := getElem_fst_iff hi hlt
  simp only [replace, List.getElem_map, List.getElem_set, beq_iff_eq, hiff]
  split
  · rename_i heq
    rw [hiff.mpr heq]
  · rfl

/-- Dropping a key takes out the entry at its place and no other. -/
theorem entries_erase {t : Table α} {key : String} {i : Nat} (hi : t.position? key = some i) :
    (t.erase key).entries = t.entries.eraseIdx i := by
  obtain ⟨value, hat⟩ := position?_eq_some_iff.mp hi
  have hsplit := take_append_cons_drop hat
  have hdistinct := t.distinct
  rw [← hsplit, List.map_append, List.map_cons, List.nodup_append, List.nodup_cons] at hdistinct
  obtain ⟨-, ⟨hafter, -⟩, hbefore⟩ := hdistinct
  have hkeep : ∀ es : List (String × α), key ∉ es.map Prod.fst → es.filter (·.1 != key) = es :=
    fun es hes => List.filter_eq_self.mpr fun e he =>
      bne_iff_ne.mpr fun heq => hes (heq ▸ List.mem_map_of_mem he)
  have hfilter : (t.erase key).entries = t.entries.filter (·.1 != key) := rfl
  rw [hfilter, List.eraseIdx_eq_take_drop_succ]
  conv_lhs => rw [← hsplit]
  rw [List.filter_append, List.filter_cons_of_neg (by simp), hkeep _ hafter,
    hkeep _ fun hmem => hbefore key hmem key List.mem_cons_self rfl]

/-! ## Edits -/

/-- One edit of a table. -/
inductive Edit (α : Type) where
  | insert (key : String) (value : α)
  | insertIfAbsent (key : String) (value : α)
  | erase (key : String)
  | modify (key : String) (f : α → α)
  /-- Throws the table away and makes one of some pairs. -/
  | refill (pairs : List (String × α))

/-- What an edit makes of a table. -/
def Edit.apply (t : Table α) : Edit α → Table α
  | .insert key value => t.insert key value
  | .insertIfAbsent key value => t.insertIfAbsent key value
  | .erase key => t.erase key
  | .modify key f => t.modify key f
  | .refill pairs => ofList pairs

/-- The table after some edits of the empty one. -/
def after (edits : List (Edit α)) : Table α := edits.foldl Edit.apply ∅

/-! ## The ledger -/

/-- A plain finite map, with a list of the keys that came in new, one after the other. The list only
grows: a key that was dropped stays in it, and comes in once more if it is given a value again. -/
structure Ledger (α : Type) where
  values : Finmap fun _ : String => α
  arrivals : List String

namespace Ledger

/-- Gives a key a value. -/
def insert (l : Ledger α) (key : String) (value : α) : Ledger α :=
  ⟨l.values.insert key value, if key ∈ l.values then l.arrivals else l.arrivals ++ [key]⟩

/-- Gives a key a value only if it has none yet. -/
def insertIfAbsent (l : Ledger α) (key : String) (value : α) : Ledger α :=
  if key ∈ l.values then l else l.insert key value

/-- Drops a key. -/
def erase (l : Ledger α) (key : String) : Ledger α := { l with values := l.values.erase key }

/-- Writes through a key that has a value. -/
def modify (l : Ledger α) (key : String) (f : α → α) : Ledger α :=
  match l.values.lookup key with
  | some value => { l with values := l.values.insert key (f value) }
  | none => l

/-- Starts over with some pairs, given one after the other. -/
def refill (l : Ledger α) (pairs : List (String × α)) : Ledger α :=
  pairs.foldl (fun l e => l.insert e.1 e.2) { l with values := ∅ }

/-- What an edit makes of a ledger. -/
def record (l : Ledger α) : Edit α → Ledger α
  | .insert key value => l.insert key value
  | .insertIfAbsent key value => l.insertIfAbsent key value
  | .erase key => l.erase key
  | .modify key f => l.modify key f
  | .refill pairs => l.refill pairs

/-- The ledger after some edits. -/
def after (edits : List (Edit α)) : Ledger α := edits.foldl record ⟨∅, []⟩

/-- The keys that have a value, each where it came in last. -/
def keys (l : Ledger α) : List String := l.arrivals.dedup.filter (· ∈ l.values)

theorem lookup_insert (m : Finmap fun _ : String => α) (key other : String) (value : α) :
    (m.insert key value).lookup other = if other = key then some value else m.lookup other := by
  split
  · rename_i h
    rw [h, Finmap.lookup_insert]
  · rename_i h
    rw [Finmap.lookup_insert_of_ne m h]

/-- A key that comes in new goes to the end, and a known one stays where it is. -/
theorem keys_insert (l : Ledger α) (key : String) (value : α) :
    (l.insert key value).keys = if key ∈ l.values then l.keys else l.keys ++ [key] := by
  unfold insert keys
  split
  · rename_i hkey
    refine List.filter_congr fun other _ => decide_eq_decide.mpr ?_
    rw [Finmap.mem_insert]
    exact ⟨fun h => h.elim (fun e => e ▸ hkey) id, Or.inr⟩
  · rename_i hkey
    rw [dedup_concat, List.filter_append, List.filter_filter]
    congr 1
    · refine List.filter_congr fun other _ => ?_
      rw [← Bool.decide_and]
      refine decide_eq_decide.mpr ?_
      rw [Finmap.mem_insert]
      exact ⟨fun h => h.1.resolve_left h.2, fun h => ⟨Or.inr h, fun e => hkey (e ▸ h)⟩⟩
    · simp [Finmap.mem_insert]

end Ledger

/-! ## The agreement -/

/-- The table holds what the ledger says: the values of the map, under keys in the order in which
they came in last. -/
structure Agrees (t : Table α) (l : Ledger α) : Prop where
  found : ∀ key, t.get? key = l.values.lookup key
  listed : t.keys = l.keys

namespace Agrees

variable {t : Table α} {l : Ledger α}

/-- A table without entries agrees with a map without entries, whatever came in before. -/
theorem empty (arrivals : List String) : (∅ : Table α).Agrees ⟨∅, arrivals⟩ := by
  have hnone : ∀ key, (∅ : Finmap fun _ : String => α).lookup key = none :=
    fun key => Finmap.lookup_empty key
  refine ⟨fun key => (hnone key).symm, ?_⟩
  exact (List.filter_eq_nil_iff.mpr fun key _ => by simp [Finmap.notMem_empty]).symm

theorem contains_iff (h : t.Agrees l) (key : String) : t.contains key = true ↔ key ∈ l.values := by
  rw [contains_eq_isSome, h.found, Finmap.lookup_isSome]

theorem insert (h : t.Agrees l) (key : String) (value : α) :
    (t.insert key value).Agrees (l.insert key value) := by
  refine ⟨fun other => ?_, ?_⟩
  · rw [get?_insert, h.found]
    exact (Ledger.lookup_insert l.values key other value).symm
  · simp only [keys_insert, Ledger.keys_insert, h.contains_iff, h.listed]

theorem insertIfAbsent (h : t.Agrees l) (key : String) (value : α) :
    (t.insertIfAbsent key value).Agrees (l.insertIfAbsent key value) := by
  have hinsert := h.insert key value
  unfold Table.insert at hinsert
  unfold Table.insertIfAbsent Ledger.insertIfAbsent
  by_cases hkey : key ∈ l.values
  · rw [dif_pos ((h.contains_iff key).mpr hkey), if_pos hkey]
    exact h
  · have hnew : ¬ t.contains key = true := mt (h.contains_iff key).mp hkey
    rw [dif_neg hnew] at hinsert ⊢
    rw [if_neg hkey]
    exact hinsert

theorem erase (h : t.Agrees l) (key : String) : (t.erase key).Agrees (l.erase key) := by
  refine ⟨fun other => ?_, ?_⟩
  · rw [get?_erase, h.found, Ledger.erase]
    split
    · rename_i he
      rw [he, Finmap.lookup_erase]
    · rename_i hne
      rw [Finmap.lookup_erase_ne hne]
  · rw [keys_erase, h.listed, Ledger.erase, Ledger.keys, Ledger.keys, List.filter_filter]
    refine List.filter_congr fun other _ => ?_
    rw [← Bool.decide_and]
    exact decide_eq_decide.mpr Finmap.mem_erase.symm

theorem modify (h : t.Agrees l) (key : String) (f : α → α) :
    (t.modify key f).Agrees (l.modify key f) := by
  unfold Ledger.modify
  split
  · rename_i value hvalue
    have hkey : key ∈ l.values := Finmap.mem_of_lookup_eq_some hvalue
    refine ⟨fun other => ?_, ?_⟩
    · rw [get?_modify, h.found, h.found, hvalue]
      exact (Ledger.lookup_insert l.values key other (f value)).symm
    · have hledger := l.keys_insert key (f value)
      rw [Ledger.insert, if_pos hkey, if_pos hkey] at hledger
      rw [keys_modify, h.listed, hledger]
  · rename_i hnone
    rw [Table.modify, h.found, hnone]
    exact h

/-- Pairs that are given one after the other. -/
theorem insertAll (h : t.Agrees l) (pairs : List (String × α)) :
    (pairs.foldl (fun t e => t.insert e.1 e.2) t).Agrees
      (pairs.foldl (fun l e => l.insert e.1 e.2) l) := by
  induction pairs generalizing t l with
  | nil => exact h
  | cons e pairs ih => exact ih (h.insert e.1 e.2)

end Agrees

/-- No edit breaks the agreement. -/
theorem Edit.agrees {t : Table α} {l : Ledger α} (h : t.Agrees l) (edit : Edit α) :
    (edit.apply t).Agrees (l.record edit) := by
  cases edit with
  | insert key value => exact h.insert key value
  | insertIfAbsent key value => exact h.insertIfAbsent key value
  | erase key => exact h.erase key
  | modify key f => exact h.modify key f
  | refill pairs => exact (Agrees.empty l.arrivals).insertAll pairs

/-- After the same edits, table and ledger agree. -/
theorem agrees_after (edits : List (Edit α)) : (after edits).Agrees (.after edits) := by
  suffices hrun : ∀ {t : Table α} {l : Ledger α}, t.Agrees l →
      (edits.foldl Edit.apply t).Agrees (edits.foldl Ledger.record l) from hrun (.empty [])
  induction edits with
  | nil => exact id
  | cons edit edits ih => exact fun h => ih (edit.agrees h)

/-- The table that any edits make of the empty one is a finite map that keeps its order. No key
comes twice, and what is found is what the same edits leave in a plain finite map. The keys stand in
the order in which they came in last: a new value moves no key, and dropping one leaves the others
in order. The place of a key is the one where it stands with the value that is found under it. -/
theorem after_keeps_order (edits : List (Edit α)) :
    (after edits).keys.Nodup ∧
    (∀ key, (after edits).get? key = (Ledger.after edits).values.lookup key) ∧
    (after edits).keys =
      (Ledger.after edits).arrivals.dedup.filter (· ∈ (Ledger.after edits).values) ∧
    (∀ key value, key ∈ (after edits).keys →
      ((after edits).insert key value).keys = (after edits).keys) ∧
    (∀ key f, ((after edits).modify key f).keys = (after edits).keys) ∧
    (∀ key, ((after edits).erase key).keys = (after edits).keys.filter (· ≠ key)) ∧
    ∀ key i, (after edits).position? key = some i ↔
      ∃ value, (after edits).get? key = some value ∧ (after edits).at? i = some (key, value) := by
  have h := agrees_after edits
  refine ⟨nodup_keys _, h.found, h.listed, fun key value hkey => ?_, keys_modify _, keys_erase _,
    fun key i => ?_⟩
  · rw [keys_insert, if_pos ((contains_iff_mem_keys _ key).mpr hkey)]
  · rw [position?_eq_some_iff]
    constructor
    · rintro ⟨value, hat⟩
      exact ⟨value, lookup_of_mem (nodup_keys _) (List.mem_of_getElem? hat), hat⟩
    · rintro ⟨value, -, hat⟩
      exact ⟨value, hat⟩

/-- A known key stays where it is, and one that was dropped comes back at the end. -/
example :
    (after [.insert "b" 1, .insert "a" 2, .insert "b" 3]).keys = ["b", "a"] ∧
    (after [.insert "b" 1, .insert "a" 2, .erase "b", .insert "b" 3]).keys = ["a", "b"] := by
  decide

end Table

end PixelScene
