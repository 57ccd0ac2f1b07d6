import PixelScene.Proofs.Expression.Names
import PixelScene.Proofs.Memory.Cell
import PixelScene.Proofs.Simulation.WriteSet

/-!
# Actions that commute

Two actions may be carried out in either order if neither writes to bytes that the other one reads
or writes. What counts is the bytes: two variables may share some of them, under different types.

* `Edit.DependsOn cells e`: what `e` gives, and what it writes to `cells`, is known from `cells`.
* `Edit.commute`: edits commute if neither writes to the cells that the other depends on.
* `Assignment.dependsOn_apply`: an action depends on its variable and on those of its expression.
* `Assignment.apply_comm`: actions on bytes apart commute.

Bytes and not names decide, since addresses are given in scripts and variables may overlap. The
statement has the memory and both results, refused accesses included: a refusal depends on the
length of the memory alone. Operators and expressions are arbitrary.
-/

namespace PixelScene

open Memory (Within)

/-! ## Edits that commute -/

/-- What a sequence of changes gives, besides the state that it leaves. -/
def gives {ε σ α : Type} (x : EStateM ε σ α) (s : σ) : Except ε α :=
  match x s with
  | .ok a _ => .ok a
  | .error e _ => .error e

namespace Edit

variable {α β : Type}

/-- Of two memories that are alike in some cells the edit gives the same, and it leaves them alike
in these cells. -/
def DependsOn (cells : Set Nat) (e : Edit α) : Prop :=
  ∀ m m', Within cellsᶜ m m' →
    gives e m' = gives e m ∧ Within cellsᶜ (leaves e m) (leaves e m')

section DependsOn

variable {cells : Set Nat}

theorem dependsOn_pure (a : α) : DependsOn cells (pure a) := fun _ _ h => ⟨rfl, h⟩

theorem dependsOn_bind {x : Edit α} {f : α → Edit β} (hx : DependsOn cells x)
    (hf : ∀ a, DependsOn cells (f a)) : DependsOn cells (x >>= f) := by
  intro m m' h
  obtain ⟨hgives, hleaves⟩ := hx m m' h
  cases hrun : x m with
  | ok a m₁ =>
    cases hrun' : x m' with
    | ok a' m₁' =>
      simp only [gives, leaves, hrun, hrun', Except.ok.injEq] at hgives hleaves
      subst hgives
      simp only [gives, leaves, bind_of_ok hrun, bind_of_ok hrun']
      exact hf a' m₁ m₁' hleaves
    | error e m₁' => simp only [gives, hrun, hrun', reduceCtorEq] at hgives
  | error e m₁ =>
    cases hrun' : x m' with
    | ok a' m₁' => simp only [gives, hrun, hrun', reduceCtorEq] at hgives
    | error e' m₁' =>
      simp only [gives, leaves, hrun, hrun', Except.error.injEq] at hgives hleaves
      subst hgives
      simp only [gives, leaves, bind_of_error hrun, bind_of_error hrun', true_and]
      exact hleaves

/-- What follows a look at the memory may use what the cells tell. -/
theorem dependsOn_get_bind {f : Memory → Edit α}
    (hsame : ∀ m m', Within cellsᶜ m m' → f m' = f m) (hf : ∀ m, DependsOn cells (f m)) :
    DependsOn cells (get >>= f) := by
  intro m m' h
  have hrun : ∀ m, (get >>= f : Edit α) m = f m m := fun _ => rfl
  simp only [gives, leaves, hrun, hsame m m' h]
  exact hf m m m' h

theorem dependsOn_read {f : Memory → Except AccessError α}
    (hf : ∀ m m', Within cellsᶜ m m' → f m' = f m) : DependsOn cells (Edit.read f) := by
  intro m m' h
  rw [leaves_read, leaves_read]
  refine ⟨?_, h⟩
  simp only [gives, read, hf m m' h]
  cases f m <;> rfl

/-- Where a cell is written, two memories become alike if they were not. -/
theorem dependsOn_storeInt (t : Storage) (address : Nat) (v : Int) :
    DependsOn cells (storeInt t address v) := by
  intro m m' h
  by_cases hsize : address + t.width ≤ m.size
  · have hrun := storeInt_eq_ok hsize v
    have hrun' := storeInt_eq_ok (m := m') (h.size ▸ hsize) v
    simp only [gives, leaves, hrun, hrun', true_and]
    refine ⟨by simp only [Memory.size_storeRaw, h.size], fun i hi => ?_⟩
    simp only [Memory.byte_storeRaw, h.size, h.byte i hi]
  · have hrun := storeInt_eq_error hsize v
    have hrun' := storeInt_eq_error (m := m') (h.size ▸ hsize) v
    simp only [gives, leaves, hrun, hrun', h.size, true_and]
    exact h

end DependsOn

/-- Edits commute if neither writes to the cells that the other depends on. -/
theorem commute {x : Edit α} {y : Edit β} {writes writes' cells cells' : Set Nat}
    (hx : Keeps (Within writes) x) (hy : Keeps (Within writes') y) (hdx : DependsOn cells x)
    (hdy : DependsOn cells' y) (hsub : writes ⊆ cells) (hsub' : writes' ⊆ cells')
    (hxy : Disjoint writes cells') (hyx : Disjoint writes' cells) (m : Memory) :
    leaves y (leaves x m) = leaves x (leaves y m) ∧ gives y (leaves x m) = gives y m ∧
      gives x (leaves y m) = gives x m := by
  obtain ⟨hgives, halike⟩ := hdx m (leaves y m) ((hy m).mono hyx.subset_compl_right)
  obtain ⟨hgives', halike'⟩ := hdy m (leaves x m) ((hx m).mono hxy.subset_compl_right)
  refine ⟨Memory.eq_of_byte ?_ fun i => ?_, hgives', hgives⟩
  · rw [(hy _).size, (hx m).size, (hx _).size, (hy m).size]
  · -- each byte is the business of one of the two edits at most
    by_cases hi : i ∈ cells
    · have hother : i ∉ writes' := hyx.notMem_of_mem_right hi
      rw [(hy _).byte i hother, halike.byte i (Set.notMem_compl_iff.mpr hi)]
    · by_cases hi' : i ∈ cells'
      · have hother : i ∉ writes := hxy.notMem_of_mem_right hi'
        rw [(hx _).byte i hother, halike'.byte i (Set.notMem_compl_iff.mpr hi')]
      · have hother : i ∉ writes := fun h => hi (hsub h)
        have hother' : i ∉ writes' := fun h => hi' (hsub' h)
        rw [(hy _).byte i hother', (hx m).byte i hother, (hx _).byte i hother,
          (hy m).byte i hother']

end Edit

/-! ## Variables in the memory -/

namespace Memory

variable {m m' : Memory} {cells : Set Nat}

theorem Within.fetchNumber_eq (h : Within cells m m') {v : Variable}
    (hcells : Disjoint v.cells cells) :
    m'.fetchNumber v.storage v.address = m.fetchNumber v.storage v.address := by
  rw [fetchNumber, fetchNumber,
    h.fetchInt_eq fun i hlow hhigh => hcells.notMem_of_mem_left ⟨hlow, hhigh⟩]

/-- Changes elsewhere make no difference to the value of a variable. -/
theorem Within.valueOf_eq (h : Within cells m m') {globals : Table Variable} {name : String}
    (hcells : ∀ v, globals.get? name = some v → Disjoint v.cells cells) :
    m'.valueOf globals name = m.valueOf globals name := by
  unfold valueOf
  cases hget : globals.get? name with
  | none => rfl
  | some v => simp only [h.fetchNumber_eq (hcells v hget)]

end Memory

/-! ## Actions -/

namespace Assignment

theorem cells_of_get? {a : Assignment} {globals : Table Variable} {v : Variable}
    (h : globals.get? a.target = some v) : a.cells globals = v.cells := by
  refine Set.ext fun i => ⟨fun ⟨u, hu, hi⟩ => ?_, fun hi => ⟨v, h, hi⟩⟩
  rwa [← Option.some.inj (hu.symm.trans h)]

/-- The bytes of the variables in the expression of an action. -/
def reads (a : Assignment) (globals : Table Variable) : Set Nat :=
  {i | ∃ name ∈ a.value.names, ∃ v, globals.get? name = some v ∧ i ∈ v.cells}

/-- An action depends on the variable that it assigns and on those in its expression. -/
theorem dependsOn_apply (a : Assignment) (globals : Table Variable) :
    Edit.DependsOn (a.cells globals ∪ a.reads globals) (a.apply globals) := by
  unfold apply
  cases hget : globals.get? a.target with
  | none => exact Edit.dependsOn_pure false
  | some v =>
    have htarget : v.cells ⊆ a.cells globals ∪ a.reads globals := fun i hi => .inl ⟨v, hget, hi⟩
    have hread : Edit.DependsOn (a.cells globals ∪ a.reads globals)
        (Edit.read (·.fetchNumber v.storage v.address)) := Edit.dependsOn_read fun m m' h =>
      h.fetchNumber_eq (Set.disjoint_compl_right_iff_subset.mpr htarget)
    have hwrite : ∀ x, Edit.DependsOn (a.cells globals ∪ a.reads globals) (do
        Edit.storeNumber v.storage v.address x
        return true : Edit Bool) := fun x =>
      Edit.dependsOn_bind (Edit.dependsOn_storeInt _ _ _) fun _ => Edit.dependsOn_pure true
    refine Edit.dependsOn_get_bind (fun m m' h => ?_) fun m => ?_
    · have hvalue : a.value.eval (m'.valueOf globals) = a.value.eval (m.valueOf globals) := by
        refine Expr.eval_congr fun name hname => h.valueOf_eq fun u hu => ?_
        exact Set.disjoint_compl_right_iff_subset.mpr fun i hi => .inr ⟨name, hname, u, hu, hi⟩
      simp only [hvalue]
    · dsimp only
      split
      · exact Edit.dependsOn_bind (Edit.dependsOn_pure 0) fun _ => hwrite _
      · exact Edit.dependsOn_bind hread fun _ => hwrite _

/--
**Actions on bytes apart commute.** If no byte of the variable that an action assigns belongs to the
variable that the other one assigns, or to a variable in the other's expression, then both orders
leave the same memory, and each of the actions gives the same whether it comes first or second: that
it was carried out, that its variable is not declared, or why it was refused.
-/
theorem apply_comm (globals : Table Variable) (a b : Assignment) (m : Memory)
    (hab : Disjoint (a.cells globals) (b.cells globals ∪ b.reads globals))
    (hba : Disjoint (b.cells globals) (a.cells globals ∪ a.reads globals)) :
    leaves (b.apply globals) (leaves (a.apply globals) m) =
        leaves (a.apply globals) (leaves (b.apply globals) m) ∧
      gives (b.apply globals) (leaves (a.apply globals) m) = gives (b.apply globals) m ∧
      gives (a.apply globals) (leaves (b.apply globals) m) = gives (a.apply globals) m :=
  Edit.commute (a.apply_within globals) (b.apply_within globals) (a.dependsOn_apply globals)
    (b.dependsOn_apply globals) Set.subset_union_left Set.subset_union_left hab hba m

/-- Variables of which one shares two bytes with another, and one has no bytes in a memory of 80. -/
def sharedGlobals : Table Variable :=
  .ofList [("score", ⟨64, .int16⟩), ("wide", ⟨63, .int24⟩), ("lives", ⟨66, .signedInt16⟩),
    ("far", ⟨79, .int16⟩)]

theorem apply_comm_shared :
    let a : Assignment := ⟨"score", .add, .var "wide"⟩
    let b : Assignment := ⟨"lives", .sub, .binary .add (.var "far") (.var "missing")⟩
    let m := Memory.zeros 80
    Disjoint (a.cells sharedGlobals) (b.cells sharedGlobals ∪ b.reads sharedGlobals) ∧
      Disjoint (b.cells sharedGlobals) (a.cells sharedGlobals ∪ a.reads sharedGlobals) ∧
      leaves (b.apply sharedGlobals) (leaves (a.apply sharedGlobals) m) =
        leaves (a.apply sharedGlobals) (leaves (b.apply sharedGlobals) m) ∧
      gives (b.apply sharedGlobals) (leaves (a.apply sharedGlobals) m) =
        gives (b.apply sharedGlobals) m ∧
      gives (a.apply sharedGlobals) (leaves (b.apply sharedGlobals) m) =
        gives (a.apply sharedGlobals) m := by
  intro a b m
  have hscore : a.cells sharedGlobals = Set.Ico 64 66 := cells_of_get? (v := ⟨64, .int16⟩) rfl
  have hlives : b.cells sharedGlobals = Set.Ico 66 68 :=
    cells_of_get? (v := ⟨66, .signedInt16⟩) rfl
  have hwide : a.reads sharedGlobals ⊆ Set.Ico 63 66 := by
    rintro i ⟨name, hname, v, hget, hi⟩
    obtain rfl : name = "wide" := List.mem_singleton.mp hname
    cases hget
    exact hi
  have hfar : b.reads sharedGlobals ⊆ Set.Ico 79 81 := by
    rintro i ⟨name, hname, v, hget, hi⟩
    obtain rfl | rfl : name = "far" ∨ name = "missing" := List.mem_pair.mp hname
    · cases hget
      exact hi
    · cases hget
  have hab : Disjoint (a.cells sharedGlobals) (b.cells sharedGlobals ∪ b.reads sharedGlobals) := by
    rw [hscore, hlives, Set.disjoint_left]
    rintro i ⟨-, hi⟩ (⟨hlow, -⟩ | hread)
    · omega
    · have := (hfar hread).1
      omega
  have hba : Disjoint (b.cells sharedGlobals) (a.cells sharedGlobals ∪ a.reads sharedGlobals) := by
    rw [hscore, hlives, Set.disjoint_left]
    rintro i ⟨hi, -⟩ (⟨-, hhigh⟩ | hread)
    · omega
    · have := (hwide hread).2
      omega
  exact ⟨hab, hba, apply_comm sharedGlobals a b m hab hba⟩

end Assignment

end PixelScene
