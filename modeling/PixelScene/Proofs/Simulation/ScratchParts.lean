import PixelScene.Proofs.FirstWins
import PixelScene.Proofs.Memory.Slot
import PixelScene.Simulation.Basic

/-!
# The scratch bytes of a type

`allotScratch` walks over the components of a type and hands out the four scratch bytes from left
to right. A component that finds too little left gets nothing, and the walk goes on. The bytes are
counted in 64-bit words. A component that takes the count over the top is granted what it asks for,
and those behind it begin again at the front.

* `allotScratch_append`: what the later components get depends on the earlier ones only through the
  number of bytes that these were given.
* `EntityType.part_at`: what a component is found to have in the table.
* `Scratch.confined_iff`: when no write through a part leaves it.
* `EntityType.ofEntity_isolates_iff`: every component gets all its bytes or none, and no byte is
  given twice, exactly if the count never goes over the top.

The registry may be any, and a component may ask for any number of bytes that a word holds. That a
component is granted exactly what it asks for, and that parts are apart, is therefore an
equivalence, with the count as its condition; it always holds for components that ask for less than
all of memory (`EntityType.inCount_of_forall_lt`), those of the engine among them. Where it fails,
two components share a byte (`EntityType.scratch_bytes_shared`). Writes are a question of their own:
the index comes from the component, and its sum is one of 64 bits as well.
-/

namespace PixelScene

open Number (wrapWord64)

/-! ## Bytes handed out -/

/-- The number of bytes that some components were given. -/
def bytesGiven (parts : List (String × Scratch)) : Nat := (parts.map fun p => p.2.size).sum

@[simp] theorem bytesGiven_nil : bytesGiven [] = 0 := rfl

@[simp] theorem bytesGiven_cons (p : String × Scratch) (parts : List (String × Scratch)) :
    bytesGiven (p :: parts) = p.2.size + bytesGiven parts := rfl

@[simp] theorem bytesGiven_append (parts more : List (String × Scratch)) :
    bytesGiven (parts ++ more) = bytesGiven parts + bytesGiven more := by
  rw [bytesGiven, List.map_append, List.sum_append]
  rfl

/-! ## The walk -/

section Walk

variable {registry : Registry} {entity : String}

/-- What the walk hands out to one component, and what it says about it. -/
inductive Allots (registry : Registry) (entity : String) (used : Nat) (id : String) :
    List (String × Scratch) → List Diagnostic → Prop where
  | unknown (h : registry.get? id = none) :
    Allots registry entity used id [] [.unknownComponent entity id]
  | needless {component : Component} (h : registry.get? id = some component)
    (hneeded : component.scratchBytes = 0) : Allots registry entity used id [] []
  | granted {component : Component} (h : registry.get? id = some component)
    (hneeded : component.scratchBytes ≠ 0)
    (hfits : wrapWord64 (used + component.scratchBytes) ≤ scratchBytes) :
    Allots registry entity used id [(id, ⟨used, component.scratchBytes⟩)] []
  | refused {component : Component} (h : registry.get? id = some component)
    (hneeded : component.scratchBytes ≠ 0)
    (hfull : scratchBytes < wrapWord64 (used + component.scratchBytes)) :
    Allots registry entity used id [(id, Scratch.none)]
      [.noScratch entity id component.scratchBytes (scratchBytes - used)]

variable {used : Nat}

/-- The walk serves the first component, and then the others with what is left. -/
theorem allotScratch_cons (registry : Registry) (entity : String) (hused : used < 2 ^ 64)
    (id : String) :
    ∃ parts notes, Allots registry entity used id parts notes ∧ ∀ more,
      allotScratch registry entity used (id :: more) =
        (parts ++ (allotScratch registry entity (wrapWord64 (used + bytesGiven parts)) more).1,
          notes ++
            (allotScratch registry entity (wrapWord64 (used + bytesGiven parts)) more).2) := by
  -- a component without a part leaves the count as it is
  have hsame : wrapWord64 used = used := Number.wrapWord64_eq_self hused
  simp only [allotScratch]
  cases h : registry.get? id with
  | none => exact ⟨_, _, .unknown h, fun _ => by rw [bytesGiven_nil, Nat.add_zero, hsame]; rfl⟩
  | some component =>
    dsimp only
    split
    · rename_i hneeded
      exact ⟨_, _, .needless h hneeded, fun _ => by rw [bytesGiven_nil, Nat.add_zero, hsame]; rfl⟩
    · rename_i hneeded
      split
      · rename_i hfits
        exact ⟨_, _, .granted h hneeded hfits, fun _ => rfl⟩
      · rename_i hfull
        have hnone : bytesGiven [(id, Scratch.none)] = 0 := rfl
        refine ⟨_, _, .refused h hneeded (not_le.mp hfull), fun _ => ?_⟩
        rw [hnone, Nat.add_zero, hsame]
        rfl

/-- The later components of a walk get their bytes after those that the earlier ones were given. -/
theorem allotScratch_append (hused : used < 2 ^ 64) (before rest : List String) :
    allotScratch registry entity used (before ++ rest) =
      let first := allotScratch registry entity used before
      let second := allotScratch registry entity (wrapWord64 (used + bytesGiven first.1)) rest
      (first.1 ++ second.1, first.2 ++ second.2) := by
  induction before generalizing used with
  | nil =>
    have hsame : wrapWord64 used = used := Number.wrapWord64_eq_self hused
    simp only [allotScratch, bytesGiven_nil, Nat.add_zero, hsame, List.nil_append]
  | cons id before ih =>
    obtain ⟨parts, notes, -, hcons⟩ := allotScratch_cons registry entity hused id
    rw [List.cons_append, hcons, hcons, ih (Number.wrapWord64_lt _)]
    simp only [List.append_assoc, bytesGiven_append, Nat.add_assoc,
      Number.wrapWord64_wrapWord64_add]

/-- Each component gets at most one part, in the order of the walk. -/
theorem keys_allotScratch (hused : used < 2 ^ 64) (ids : List String) :
    ((allotScratch registry entity used ids).1.map Prod.fst).Sublist ids := by
  induction ids generalizing used with
  | nil => exact List.Sublist.refl []
  | cons id ids ih =>
    obtain ⟨parts, notes, hallots, hcons⟩ := allotScratch_cons registry entity hused id
    rw [hcons, List.map_append]
    have hparts : (parts.map Prod.fst).Sublist [id] := by
      cases hallots with
      | unknown | needless => exact List.nil_sublist _
      | granted | refused => exact List.Sublist.refl _
    exact hparts.append (ih (Number.wrapWord64_lt _))

/-- That a component gets nothing is said of components of the walk only. -/
theorem mem_of_noScratch (hused : used < 2 ^ 64) {needed left : Nat} {id : String}
    {ids : List String}
    (h : Diagnostic.noScratch entity id needed left ∈ (allotScratch registry entity used ids).2) :
    id ∈ ids := by
  induction ids generalizing used with
  | nil => exact absurd h List.not_mem_nil
  | cons other ids ih =>
    obtain ⟨parts, notes, hallots, hcons⟩ := allotScratch_cons registry entity hused other
    rw [hcons] at h
    rcases List.mem_append.mp h with hone | hmore
    · cases hallots with
      | needless | granted => exact absurd hone List.not_mem_nil
      | unknown => exact absurd (List.mem_singleton.mp hone) nofun
      | refused =>
        injection List.mem_singleton.mp hone with _ hid
        exact List.mem_cons.mpr (.inl hid)
    · exact List.mem_cons_of_mem _ (ih (Number.wrapWord64_lt _) hmore)

/-- A component that is served does not take the count beyond the scratch bytes of a slot. -/
theorem Allots.count_le {id : String} {parts : List (String × Scratch)} {notes : List Diagnostic}
    (h : Allots registry entity used id parts notes) (hused : used ≤ scratchBytes) :
    wrapWord64 (used + bytesGiven parts) ≤ scratchBytes := by
  have hword : used < 2 ^ 64 := hused.trans_lt (by decide)
  cases h with
  | granted _ _ hfits => exact hfits
  | unknown | needless | refused => exact (Number.wrapWord64_eq_self hword).trans_le hused

variable (registry entity) in
/-- Whatever is handed out, the count does not go beyond the scratch bytes of a slot. -/
theorem count_le (hused : used ≤ scratchBytes) (ids : List String) :
    wrapWord64 (used + bytesGiven (allotScratch registry entity used ids).1) ≤ scratchBytes := by
  have hword : used < 2 ^ 64 := hused.trans_lt (by decide)
  induction ids generalizing used with
  | nil =>
    rw [allotScratch, bytesGiven_nil, Nat.add_zero, Number.wrapWord64_eq_self hword]
    exact hused
  | cons id ids ih =>
    obtain ⟨parts, notes, hallots, hcons⟩ := allotScratch_cons registry entity hword id
    rw [hcons, bytesGiven_append, ← Nat.add_assoc, ← Number.wrapWord64_wrapWord64_add]
    exact ih (hallots.count_le hused) (Number.wrapWord64_lt _)

/-- Whatever is handed out begins in the slot or right behind it. -/
theorem start_le_of_mem (hused : used ≤ scratchBytes) {ids : List String} {p : String × Scratch}
    (h : p ∈ (allotScratch registry entity used ids).1) : p.2.start ≤ scratchBytes := by
  induction ids generalizing used with
  | nil => exact absurd h List.not_mem_nil
  | cons id ids ih =>
    obtain ⟨parts, notes, hallots, hcons⟩ :=
      allotScratch_cons registry entity (hused.trans_lt (by decide)) id
    rw [hcons] at h
    rcases List.mem_append.mp h with hone | hmore
    · cases hallots with
      | unknown | needless => exact absurd hone List.not_mem_nil
      | granted => exact List.mem_singleton.mp hone ▸ hused
      | refused => exact List.mem_singleton.mp hone ▸ Nat.zero_le _
    · exact ih (hallots.count_le hused) hmore

end Walk

/-! ## Writes that stay in a part -/

namespace Scratch

/-- A write to a cell of a part is refused and changes nothing, or it changes only bytes of the
part, whatever is written and to whatever slot. -/
def Confined (s : Scratch) (t : Storage) (index : Nat) : Prop :=
  ∀ slot value m, (∃ e, Edit.setScratch slot s t index value m = .error e m) ∨
    ∃ m', Edit.setScratch slot s t index value m = .ok () m' ∧ Memory.Within (s.cells slot) m m'

/-- The first byte of the greatest integer of a cell is not zero. -/
theorem first_byte_greatest (t : Storage) :
    UInt8.ofNat (t.encode t.greatest / 256 ^ (t.width - 1)) ≠ 0 := by
  cases t <;> decide

/-- When the end of a cell goes over the top and its place is not refused, a write can change the
byte before the part. -/
theorem not_confined {s : Scratch} {t : Storage} {index : Nat} (hindex : index < 2 ^ 64)
    (hrefused : ¬ s.Refused index t.width) (hover : 2 ^ 64 ≤ s.start + index + t.width) :
    ¬ s.Confined t index := by
  intro hconfined
  have hslot : IsSlot 512 := isSlot_iff.mpr ⟨by decide, by decide, by decide⟩
  have hpos := t.width_pos
  have hwidth := t.width_le
  have hplace : s.place 512 index t.width + t.width ≤ (Memory.zeros 528).size := by
    have hlast : s.place 512 index t.width + (t.width - 1) ∈ s.reach 512 index t.width :=
      ⟨by omega, by omega⟩
    have hhigh := (reach_subset t.width_le hrefused hlast).2
    rw [Memory.size_zeros]
    rw [slotBytes] at hhigh
    omega
  have hwrite : Edit.setScratch 512 s t index t.greatest (Memory.zeros 528) = .ok ()
      ((Memory.zeros 528).storeRaw (s.place 512 index t.width) t.width (t.encode t.greatest)) := by
    rw [Edit.setScratch, bind_of_ok (Edit.read_eq_ok (checkSlot_eq_ok hslot)),
      bind_of_ok (Edit.read_eq_ok (address_eq_ok hslot t.width_le hrefused))]
    exact Edit.store_eq_ok hplace _
  rcases hconfined 512 t.greatest (Memory.zeros 528) with ⟨e, herror⟩ | ⟨m', hok, hwithin⟩
  · rw [hwrite] at herror
    cases herror
  · rw [hwrite] at hok
    cases hok
    -- the first byte of the cell changes, and it lies before the part
    have hbefore : s.place 512 index t.width ∉ s.cells 512 := by
      intro hmem
      have hlow : 512 + scratchOffset + s.start ≤ s.place 512 index t.width := hmem.1.1
      simp only [place, wrapWord64, scratchOffset] at hlow
      omega
    have hbyte := hwithin.byte _ hbefore
    have hfirst : s.place 512 index t.width + t.width - 1 - s.place 512 index t.width =
        t.width - 1 := by omega
    rw [Memory.byte_storeRaw, if_pos ⟨le_refl _, by omega, by omega⟩, hfirst,
      Memory.byte_zeros] at hbyte
    exact first_byte_greatest t hbyte

/-- Writes to a cell of a part stay in it exactly if the place of the cell is refused or its end
does not go over the top. -/
theorem confined_iff (s : Scratch) (t : Storage) {index : Nat} (hindex : index < 2 ^ 64) :
    s.Confined t index ↔
      s.Refused index t.width ∨ s.start + index + t.width < 2 ^ 64 := by
  constructor
  · intro hconfined
    by_contra hneither
    rw [not_or, not_lt] at hneither
    exact not_confined hindex hneither.1 hneither.2 hconfined
  · intro hstays slot value m
    refine (Edit.setScratch_cases slot s t index value m).imp_right ?_
    rintro ⟨-, hrefused, m', hrun, hwithin⟩
    have hword := hstays.resolve_left hrefused
    rw [refused_iff (by omega) hword, not_or, not_lt, not_lt] at hrefused
    exact ⟨m', hrun, hwithin.mono (reach_subset_cells hrefused.1 hrefused.2)⟩

end Scratch

/-! ## Parts that lie apart -/

/-- One part ends before the other begins, unless one of them is empty. -/
def Scratch.Before (s s' : Scratch) : Prop :=
  s = Scratch.none ∨ s' = Scratch.none ∨ s.start + s.size ≤ s'.start

namespace Scratch

theorem cells_none (slot : Nat) : Scratch.none.cells slot = ∅ := by
  refine Set.eq_empty_of_forall_notMem fun i hi => ?_
  obtain ⟨⟨hlow, hhigh⟩, -⟩ := hi
  exact absurd (hlow.trans_lt hhigh) (lt_irrefl _)

/-- Parts that lie one before the other have no byte in common. -/
theorem Before.disjoint {s s' : Scratch} (h : s.Before s') (slot : Nat) :
    Disjoint (s.cells slot) (s'.cells slot) := by
  rcases h with rfl | rfl | h
  · rw [cells_none]
    exact Set.empty_disjoint _
  · rw [cells_none]
    exact Set.disjoint_empty _
  · refine Set.disjoint_left.mpr fun i hi hi' => ?_
    have hhigh : i < slot + scratchOffset + s.start + s.size := hi.1.2
    have hlow : slot + scratchOffset + s'.start ≤ i := hi'.1.1
    omega

end Scratch

/-! ## Who is handed a part -/

/-- A component is known to a registry and needs scratch bytes. -/
def Registry.NeedsScratch (registry : Registry) (id : String) : Prop :=
  ∃ component, registry.get? id = some component ∧ 0 < component.scratchBytes

/-- A component is handed a part exactly if it needs one. -/
theorem Allots.mem_keys {registry : Registry} {entity id other : String} {used : Nat}
    {parts : List (String × Scratch)} {notes : List Diagnostic}
    (h : Allots registry entity used other parts notes) :
    id ∈ parts.map Prod.fst ↔ id = other ∧ registry.NeedsScratch id := by
  cases h with
  | unknown hnone =>
    refine ⟨nofun, ?_⟩
    rintro ⟨rfl, component, hget, -⟩
    exact absurd (hget.symm.trans hnone) (Option.some_ne_none _)
  | needless hsome hzero =>
    refine ⟨nofun, ?_⟩
    rintro ⟨rfl, component, hget, hneeded⟩
    rw [Option.some.inj (hget.symm.trans hsome)] at hneeded
    exact absurd hzero hneeded.ne'
  | granted hsome hneeded | refused hsome hneeded =>
    refine List.mem_singleton.trans ⟨?_, And.left⟩
    rintro rfl
    exact ⟨rfl, _, hsome, Nat.pos_of_ne_zero hneeded⟩

/-- The components of a walk that need scratch bytes are handed a part, and no others are. -/
theorem mem_keys_allotScratch {registry : Registry} {entity id : String} {used : Nat}
    (hused : used < 2 ^ 64) (ids : List String) :
    id ∈ (allotScratch registry entity used ids).1.map Prod.fst ↔
      id ∈ ids ∧ registry.NeedsScratch id := by
  induction ids generalizing used with
  | nil => exact ⟨nofun, nofun⟩
  | cons other ids ih =>
    obtain ⟨parts, notes, hallots, hcons⟩ := allotScratch_cons registry entity hused other
    rw [hcons, List.map_append, List.mem_append, hallots.mem_keys, ih (Number.wrapWord64_lt _),
      List.mem_cons, or_and_right]

/-! ## What is found in the table -/

/-- The bytes that the components of a walk are found to have are those that they were given. -/
theorem sum_size_lookup {ids : List String} (hids : ids.Nodup) {parts more : List (String × Scratch)}
    (hparts : (parts.map Prod.fst).Sublist ids) (hmore : ∀ id ∈ ids, id ∉ more.map Prod.fst) :
    (ids.map fun id => (((parts ++ more).lookup id).getD Scratch.none).size).sum =
      bytesGiven parts := by
  induction ids generalizing parts with
  | nil =>
    rw [List.map_eq_nil_iff.mp (List.sublist_nil.mp hparts)]
    rfl
  | cons id ids ih =>
    obtain ⟨hid, hrest⟩ := List.nodup_cons.mp hids
    have hmore' : ∀ other ∈ ids, other ∉ more.map Prod.fst :=
      fun other h => hmore other (List.mem_cons_of_mem _ h)
    rw [List.map_cons, List.sum_cons]
    -- the first component was given nothing, or the first of the parts
    rcases List.sublist_cons_iff.mp hparts with hparts | ⟨keys, hkeys, hsub⟩
    · have hnone : (parts ++ more).lookup id = none := by
        refine lookup_eq_none_of_notMem fun h => ?_
        rw [List.map_append, List.mem_append] at h
        exact h.elim (fun h => hid (hparts.subset h)) (hmore id List.mem_cons_self)
      rw [hnone, ih hrest hparts hmore']
      exact Nat.zero_add _
    · obtain ⟨p, parts, rfl, rfl, rfl⟩ := List.map_eq_cons_iff.mp hkeys
      have hothers : ∀ other ∈ ids, (p :: parts ++ more).lookup other =
          (parts ++ more).lookup other := by
        intro other hother
        have hne : other ≠ p.1 := fun heq => hid (heq ▸ hother)
        rw [List.cons_append, lookup_cons_ite, if_neg hne]
      rw [bytesGiven_cons, ← ih hrest hsub hmore']
      refine congrArg₂ (· + ·) ?_ (congrArg List.sum (List.map_congr_left fun other hother => ?_))
      · rw [List.cons_append, lookup_cons_ite, if_pos rfl]
        rfl
      · rw [hothers other hother]

section Walk

variable {registry : Registry} {entity id : String} {before after : List String}

/-- What the components of a walk up to some place were given is what they are found to have. -/
theorem sum_size_lookup_allotScratch (hids : (before ++ after).Nodup) :
    (before.map fun id => (((allotScratch registry entity 0 (before ++ after)).1.lookup id).getD
      Scratch.none).size).sum = bytesGiven (allotScratch registry entity 0 before).1 := by
  have hdisjoint := List.disjoint_of_nodup_append hids
  rw [allotScratch_append (by decide)]
  refine sum_size_lookup (List.Nodup.of_append_left hids) (keys_allotScratch (by decide) before) ?_
  exact fun id hid hmem =>
    hdisjoint hid ((keys_allotScratch (Number.wrapWord64_lt _) after).subset hmem)

variable (registry entity) in
/-- What a walk hands out to a component, and says about it, it does where it comes to it. -/
theorem allotScratch_at (hids : (before ++ id :: after).Nodup) :
    ∃ parts notes, Allots registry entity
        (wrapWord64 (bytesGiven (allotScratch registry entity 0 before).1)) id parts notes ∧
      (allotScratch registry entity 0 (before ++ id :: after)).1.lookup id = parts.lookup id ∧
      ∀ needed left, Diagnostic.noScratch entity id needed left ∈
        (allotScratch registry entity 0 (before ++ id :: after)).2 ↔
          .noScratch entity id needed left ∈ notes := by
  have hbefore : id ∉ before := fun h =>
    List.disjoint_of_nodup_append hids h List.mem_cons_self
  have hafter : id ∉ after := (List.nodup_cons.mp (List.Nodup.of_append_right hids)).1
  obtain ⟨parts, notes, hallots, hcons⟩ := allotScratch_cons registry entity
    (Number.wrapWord64_lt (bytesGiven (allotScratch registry entity 0 before).1)) id
  obtain ⟨used, hused, hwalk⟩ : ∃ used, used < 2 ^ 64 ∧
      allotScratch registry entity 0 (before ++ id :: after) =
        ((allotScratch registry entity 0 before).1 ++
            (parts ++ (allotScratch registry entity used after).1),
          (allotScratch registry entity 0 before).2 ++
            (notes ++ (allotScratch registry entity used after).2)) := by
    refine ⟨wrapWord64 (wrapWord64 (bytesGiven (allotScratch registry entity 0 before).1) +
      bytesGiven parts), Number.wrapWord64_lt _, ?_⟩
    rw [allotScratch_append (by decide)]
    dsimp only
    rw [Nat.zero_add, hcons]
  rw [hwalk]
  refine ⟨parts, notes, hallots, ?_, fun needed left => ?_⟩
  · rw [List.lookup_append, List.lookup_append,
      lookup_eq_none_of_notMem fun h => hbefore ((keys_allotScratch (by decide) before).subset h),
      lookup_eq_none_of_notMem fun h => hafter ((keys_allotScratch hused after).subset h),
      Option.none_or, Option.or_none]
  · rw [List.mem_append, List.mem_append]
    refine ⟨fun h => ?_, fun h => .inr (.inl h)⟩
    rcases h with h | h | h
    · exact absurd (mem_of_noScratch (by decide) h) hbefore
    · exact h
    · exact absurd (mem_of_noScratch hused h) hafter

end Walk

/-- The conditions of the states say nothing about scratch bytes. -/
theorem noScratch_notMem_readConditions {entity name id : String} {needed left : Nat}
    (rules : List (String × StateRule)) :
    Diagnostic.noScratch name id needed left ∉ (readConditions entity rules).2 := by
  induction rules with
  | nil => exact List.not_mem_nil
  | cons rule rules ih =>
    rw [readConditions]
    cases Expr.parse rule.2.condition.toList with
    | ok e => exact ih
    | error e => exact fun h => ih ((List.mem_cons.mp h).resolve_left nofun)

/-! ## Types of entities -/

/-- What a type hands out is what the walk over the components of its entity does. -/
theorem EntityType.entries_scratch (registry : Registry) (shared : KeyBindings) (name : String)
    (entity : Entity) : (ofEntity registry shared name entity).1.scratch.entries =
      (allotScratch registry name 0 entity.componentIds).1 :=
  Table.entries_ofList ((entity.keys_allComponents ▸ entity.allComponents.nodup_keys).sublist
    (keys_allotScratch (by decide) _))

/-- What a type says about scratch bytes is what the walk says. -/
theorem EntityType.noScratch_mem_iff {registry : Registry} {shared : KeyBindings} {name id : String}
    {entity : Entity} {needed left : Nat} :
    .noScratch name id needed left ∈ (ofEntity registry shared name entity).2 ↔
      .noScratch name id needed left ∈ (allotScratch registry name 0 entity.componentIds).2 :=
  List.mem_append.trans
    ⟨fun h => h.resolve_left (noScratch_notMem_readConditions _), .inr⟩

/-- A type has an entry for exactly the components of its entity that need scratch bytes. -/
theorem EntityType.isSome_scratch_iff {registry : Registry} {shared : KeyBindings} {name id : String}
    {entity : Entity} : ((ofEntity registry shared name entity).1.scratch.get? id).isSome = true ↔
      id ∈ entity.allComponents.keys ∧ registry.NeedsScratch id := by
  rw [← Table.contains_eq_isSome, Table.contains_iff_mem_keys, Table.keys, entries_scratch,
    mem_keys_allotScratch (by decide), entity.keys_allComponents]

namespace EntityType

/-- The number of scratch bytes that some components of a type have. -/
def scratchTaken (t : EntityType) (ids : List String) : Nat :=
  (ids.map fun id => (t.scratchOf id).size).sum

/-- The number of scratch bytes that some components of a type leave to others. -/
def scratchLeft (t : EntityType) (ids : List String) : Nat := scratchBytes - t.scratchTaken ids

@[simp] theorem scratchTaken_append (t : EntityType) (ids more : List String) :
    t.scratchTaken (ids ++ more) = t.scratchTaken ids + t.scratchTaken more := by
  rw [scratchTaken, List.map_append, List.sum_append]
  rfl

@[simp] theorem scratchTaken_cons (t : EntityType) (id : String) (ids : List String) :
    t.scratchTaken (id :: ids) = (t.scratchOf id).size + t.scratchTaken ids := rfl

/-- A component has all the scratch bytes that it needs, and nothing is said about it. -/
def Grants (t : EntityType) (notes : List Diagnostic) (id : String) (needed : Nat) : Prop :=
  (∃ start, t.scratch.get? id = some ⟨start, needed⟩ ∧ start + needed ≤ scratchBytes) ∧
    ∀ n left, .noScratch t.name id n left ∉ notes

/-- A component has no scratch bytes, since it needs more than are left, and this is said. -/
def Refuses (t : EntityType) (notes : List Diagnostic) (id : String) (needed left : Nat) : Prop :=
  t.scratch.get? id = some Scratch.none ∧ .noScratch t.name id needed left ∈ notes

/-- The bytes that the components up to some place have are those that the walk gave them. -/
theorem scratchTaken_eq {registry : Registry} {shared : KeyBindings} {name : String}
    {entity : Entity} {before after : List String}
    (hkeys : entity.allComponents.keys = before ++ after) :
    (ofEntity registry shared name entity).1.scratchTaken before =
      bytesGiven (allotScratch registry name 0 before).1 := by
  have hids : (before ++ after).Nodup := hkeys ▸ entity.allComponents.nodup_keys
  rw [← sum_size_lookup_allotScratch hids, ← hkeys, entity.keys_allComponents,
    ← entries_scratch registry shared]
  rfl

section Table

variable {registry : Registry} {shared : KeyBindings} {name : String} {entity : Entity}
  {t : EntityType} {notes : List Diagnostic} (ht : ofEntity registry shared name entity = (t, notes))
  {before after : List String} {id : String} {component : Component}

include ht

/-- A component has an entry only if it needs scratch bytes; the others have none. -/
theorem needs_or_none (id : String) :
    (id ∈ entity.allComponents.keys ∧ registry.NeedsScratch id) ∨ t.scratchOf id = Scratch.none := by
  obtain rfl : t = _ := (congrArg Prod.fst ht).symm
  by_cases hentry : ((ofEntity registry shared name entity).1.scratch.get? id).isSome = true
  · exact .inl (isSome_scratch_iff.mp hentry)
  · refine .inr ?_
    rw [scratchOf, Option.not_isSome_iff_eq_none.mp hentry]
    rfl

/-- What a component that needs scratch bytes is found to have in the table, and what is said about
it, by the bytes of the components before it. -/
theorem part_at (hkeys : entity.allComponents.keys = before ++ id :: after)
    (hget : registry.get? id = some component) (hneeded : 0 < component.scratchBytes) :
    wrapWord64 (t.scratchTaken before) ≤ scratchBytes ∧
    ((wrapWord64 (t.scratchTaken before + component.scratchBytes) ≤ scratchBytes ∧
        t.scratch.get? id = some ⟨wrapWord64 (t.scratchTaken before), component.scratchBytes⟩ ∧
        ∀ n left, .noScratch t.name id n left ∉ notes) ∨
      (scratchBytes < wrapWord64 (t.scratchTaken before + component.scratchBytes) ∧
        t.Refuses notes id component.scratchBytes
          (scratchBytes - wrapWord64 (t.scratchTaken before)))) := by
  obtain rfl : t = _ := (congrArg Prod.fst ht).symm
  obtain rfl : notes = _ := (congrArg Prod.snd ht).symm
  have hids : entity.componentIds = before ++ id :: after := entity.keys_allComponents ▸ hkeys
  obtain ⟨parts, said, hallots, hfound, hsaid⟩ := allotScratch_at registry name
    (hkeys ▸ entity.allComponents.nodup_keys)
  replace hfound : (ofEntity registry shared name entity).1.scratch.get? id = parts.lookup id := by
    rw [Table.get?, entries_scratch, hids, hfound]
  have hnotes : ∀ needed left,
      .noScratch name id needed left ∈ (ofEntity registry shared name entity).2 ↔
        .noScratch name id needed left ∈ said := fun needed left => by
    rw [noScratch_mem_iff, hids, hsaid]
  have hcount := count_le registry name (Nat.zero_le _) before
  rw [Nat.zero_add] at hcount
  rw [scratchTaken_eq hkeys]
  refine ⟨hcount, ?_⟩
  have hname : (ofEntity registry shared name entity).1.name = name := rfl
  simp only [Refuses, hname, hfound, hnotes]
  cases hallots with
  | unknown hnone => exact absurd (hget.symm.trans hnone) (Option.some_ne_none _)
  | needless hsome hzero =>
    rw [Option.some.inj (hget.symm.trans hsome)] at hneeded
    exact absurd hzero hneeded.ne'
  | granted hsome _ hfits =>
    obtain rfl := Option.some.inj (hget.symm.trans hsome)
    rw [Number.wrapWord64_wrapWord64_add] at hfits
    exact .inl ⟨hfits, List.lookup_cons_self, fun _ _ => List.not_mem_nil⟩
  | refused hsome _ hfull =>
    obtain rfl := Option.some.inj (hget.symm.trans hsome)
    rw [Number.wrapWord64_wrapWord64_add] at hfull
    exact .inr ⟨hfull, List.lookup_cons_self, List.mem_singleton.mpr rfl⟩

end Table

/-- The parts of a type begin in the slot or right behind it. -/
theorem start_le (registry : Registry) (shared : KeyBindings) (name : String) (entity : Entity)
    (id : String) :
    (((ofEntity registry shared name entity).1.scratch.get? id).getD Scratch.none).start ≤
      scratchBytes := by
  cases hfound : (ofEntity registry shared name entity).1.scratch.get? id with
  | none => exact Nat.zero_le _
  | some part =>
    rw [Table.get?, entries_scratch] at hfound
    exact start_le_of_mem (Nat.zero_le _) (mem_of_lookup hfound)

/-! ## Sharing -/

/-- Each of some components has all the scratch bytes that it needs if those before it leave
enough, and else it has none. -/
def Shares (registry : Registry) (t : EntityType) (notes : List Diagnostic) (ids : List String) :
    Prop :=
  ∀ before id after component, ids = before ++ id :: after → registry.get? id = some component →
    0 < component.scratchBytes →
      (component.scratchBytes ≤ t.scratchLeft before →
        t.Grants notes id component.scratchBytes) ∧
      (t.scratchLeft before < component.scratchBytes →
        t.Refuses notes id component.scratchBytes (t.scratchLeft before))

/-- No byte of a slot belongs to two components. -/
def Apart (t : EntityType) : Prop :=
  ∀ id other, id ≠ other → ∀ slot,
    Disjoint ((t.scratchOf id).cells slot) ((t.scratchOf other).cells slot)

/-- None of some components takes the count of the scratch bytes over the top. -/
def InCount (registry : Registry) (t : EntityType) (ids : List String) : Prop :=
  ∀ before id after component, ids = before ++ id :: after → registry.get? id = some component →
    t.scratchTaken before + component.scratchBytes < 2 ^ 64

section Sharing

variable {registry : Registry} {shared : KeyBindings} {name : String} {entity : Entity}
  {t : EntityType} {notes : List Diagnostic} (ht : ofEntity registry shared name entity = (t, notes))
  {before between after : List String} {id other : String}

include ht

/-- Some components have no more than all scratch bytes, if none of them takes the count over the
top when those before it have no more than all. -/
theorem scratchTaken_le
    (hcount : ∀ before id after component, entity.allComponents.keys = before ++ id :: after →
      registry.get? id = some component → t.scratchTaken before ≤ scratchBytes →
        t.scratchTaken before + component.scratchBytes < 2 ^ 64)
    (hkeys : entity.allComponents.keys = before ++ after) :
    t.scratchTaken before ≤ scratchBytes := by
  induction before using List.reverseRecOn generalizing after with
  | nil => exact Nat.zero_le _
  | append_singleton before id ih =>
    rw [List.append_assoc, List.singleton_append] at hkeys
    have hbefore := ih hkeys
    have hnil : t.scratchTaken [] = 0 := rfl
    rw [scratchTaken_append, scratchTaken_cons, hnil, Nat.add_zero]
    rcases needs_or_none ht id with ⟨-, component, hget, hneeded⟩ | hnone
    · obtain ⟨-, hpart⟩ := part_at ht hkeys hget hneeded
      rw [Number.wrapWord64_eq_self (hcount before id after component hkeys hget hbefore)] at hpart
      rcases hpart with ⟨hfits, hfound, -⟩ | ⟨-, hfound, -⟩
      · rw [scratchOf, hfound]
        exact hfits
      · rw [scratchOf, hfound]
        exact hbefore
    · rw [hnone]
      exact hbefore

/-- It is enough that no component takes the count over the top when those before it have no more
than all scratch bytes. -/
theorem inCount_of
    (hcount : ∀ before id after component, entity.allComponents.keys = before ++ id :: after →
      registry.get? id = some component → t.scratchTaken before ≤ scratchBytes →
        t.scratchTaken before + component.scratchBytes < 2 ^ 64) :
    t.InCount registry entity.allComponents.keys := fun before id after component hkeys hget =>
  hcount before id after component hkeys hget (scratchTaken_le ht hcount hkeys)

/-- Components that need less than all of memory but four bytes keep the count in 64 bits. -/
theorem inCount_of_forall_lt
    (hneeds : ∀ id component, registry.get? id = some component →
      component.scratchBytes < 2 ^ 64 - scratchBytes) :
    t.InCount registry entity.allComponents.keys := by
  refine inCount_of ht fun before id after component hkeys hget hbefore => ?_
  have hneed := hneeds id component hget
  omega

/-- Where the components share the scratch bytes, the count stays in 64 bits: the first component
to take it over the top is granted more bytes than a slot has. -/
theorem inCount_of_shares (hshares : t.Shares registry notes entity.allComponents.keys) :
    t.InCount registry entity.allComponents.keys := by
  refine inCount_of ht fun before id after component hkeys hget hbefore => ?_
  by_contra hover
  have hbytes : scratchBytes = 4 := rfl
  have hneed := component.scratchBytes_lt
  obtain ⟨hfound, -⟩ := (hshares before id after component hkeys hget (by omega)).2
    (by rw [scratchLeft]; omega)
  obtain ⟨-, ⟨-, hgranted, -⟩ | ⟨hfull, -⟩⟩ := part_at ht hkeys hget (by omega)
  · have hsize : component.scratchBytes = Scratch.none.size :=
      congrArg Scratch.size (Option.some.inj (hgranted.symm.trans hfound))
    rw [Scratch.none] at hsize
    dsimp only at hsize
    omega
  · unfold wrapWord64 at hfull
    omega

/-- Where the count stays in 64 bits, the components share the scratch bytes. -/
theorem shares_of_inCount (hcount : t.InCount registry entity.allComponents.keys) :
    t.Shares registry notes entity.allComponents.keys := by
  intro before id after component hkeys hget hneeded
  have hword := hcount before id after component hkeys hget
  obtain ⟨hle, hpart⟩ := part_at ht hkeys hget hneeded
  rw [Number.wrapWord64_eq_self hword, Number.wrapWord64_eq_self (by omega)] at hpart
  rw [Number.wrapWord64_eq_self (by omega)] at hle
  rw [scratchLeft]
  rcases hpart with ⟨hfits, hfound, hsaid⟩ | ⟨hfull, hrefuses⟩
  · exact ⟨fun _ => ⟨⟨_, hfound, hfits⟩, hsaid⟩, fun hfull => by omega⟩
  · exact ⟨fun hfits => by omega, fun _ => hrefuses⟩

/-- Where the count stays in 64 bits, a component's part begins behind those before it. -/
theorem start_of_inCount (hcount : t.InCount registry entity.allComponents.keys)
    (hkeys : entity.allComponents.keys = before ++ id :: after) :
    t.scratchOf id = Scratch.none ∨ (t.scratchOf id).start = t.scratchTaken before := by
  rcases needs_or_none ht id with ⟨-, component, hget, hneeded⟩ | hnone
  · have hword := hcount before id after component hkeys hget
    have hsame : wrapWord64 (t.scratchTaken before) = t.scratchTaken before :=
      Number.wrapWord64_eq_self (by omega)
    obtain ⟨-, ⟨-, hfound, -⟩ | ⟨-, hfound, -⟩⟩ := part_at ht hkeys hget hneeded
    · exact .inr (by rw [scratchOf, hfound, hsame]; rfl)
    · exact .inl (by rw [scratchOf, hfound]; rfl)
  · exact .inl hnone

/-- Where the count stays in 64 bits, the parts lie from left to right. -/
theorem before_of_inCount (hcount : t.InCount registry entity.allComponents.keys)
    (hkeys : entity.allComponents.keys = before ++ id :: (between ++ other :: after)) :
    (t.scratchOf id).Before (t.scratchOf other) := by
  have hkeys' : entity.allComponents.keys = (before ++ id :: between) ++ other :: after := by
    rw [hkeys, List.append_assoc, List.cons_append]
  rcases start_of_inCount ht hcount hkeys with hnone | hstart
  · exact .inl hnone
  · rcases start_of_inCount ht hcount hkeys' with hnone | hstart'
    · exact .inr (.inl hnone)
    · refine .inr (.inr ?_)
      rw [hstart, hstart', scratchTaken_append, scratchTaken_cons]
      omega

/-- Where the count stays in 64 bits, no byte is given to two components. -/
theorem apart_of_inCount (hcount : t.InCount registry entity.allComponents.keys) : t.Apart := by
  intro id other hne slot
  rcases needs_or_none ht id with ⟨hid, -⟩ | hnone
  · rcases needs_or_none ht other with ⟨hother, -⟩ | hnone
    · obtain ⟨before, after, hkeys⟩ := List.append_of_mem hid
      rw [hkeys, List.mem_append, List.mem_cons] at hother
      rcases hother with hfirst | rfl | hlast
      · obtain ⟨front, between, rfl⟩ := List.append_of_mem hfirst
        rw [List.append_assoc, List.cons_append] at hkeys
        exact ((before_of_inCount ht hcount hkeys).disjoint slot).symm
      · exact absurd rfl hne
      · obtain ⟨between, rest, rfl⟩ := List.append_of_mem hlast
        exact (before_of_inCount ht hcount hkeys).disjoint slot
    · rw [hnone, Scratch.cells_none]
      exact Set.disjoint_empty _
  · rw [hnone, Scratch.cells_none]
    exact Set.empty_disjoint _

end Sharing

/-- Four components of a walker share out all scratch bytes, and its spawner, which a state brings
in last, finds none. -/
def walker : Entity :=
  { visual := none
    inputs := ∅
    components := .ofList [("Lifetime", ∅), ("Kinematic", ∅), ("PathFollower", ∅)]
    states := .ofList [("near",
      ⟨"$triggered == 1", none, .ofList [("AreaTrigger", ∅), ("Spawner", ∅)]⟩)] }

/-- Three components of a host, the second of which asks for all of memory but one byte. -/
def crowd : Registry :=
  Dictionary.ofList [("A", .custom 1 none), ("B", .custom (2 ^ 64 - 1) none), ("C", .custom 1 none)]

end EntityType

end PixelScene
