import Mathlib
import PixelScene.Memory.Storage
import PixelScene.Proofs.Change

/-!
# What a write changes

A write that goes through changes the bytes of its cell and no others; a write that is refused
changes nothing. `Memory.Within cells m m'` says that `m'` differs from `m` in `cells` at most, and
`Keeps (Within cells) e` that the edit `e` writes to `cells` at most.

* `Memory.byte_storeRaw`, `Memory.byte_fillRaw`: every byte after a write.
* `Edit.store_within`: where an edit writes that may be refused.

This is the frame of everything that is said about memories: which bytes may differ, as a set, with
the size always kept. Sets are joined along sequences of writes, and a statement about one byte asks
only whether it is in the set.
-/

namespace PixelScene

/-! ## Bytes after a write -/

namespace Memory

@[simp] theorem size_storeRaw (m : Memory) (address width value : Nat) :
    (m.storeRaw address width value).size = m.size := by
  induction width generalizing value with
  | zero => rfl
  | succ width ih => rw [storeRaw, size_setByte, ih]

@[simp] theorem size_fillRaw (m : Memory) (address : Nat) (value : UInt8) (width : Nat) :
    (m.fillRaw address value width).size = m.size := by
  induction width with
  | zero => rfl
  | succ width ih => rw [fillRaw, size_setByte, ih]

/-- Beyond the end there are zeros. -/
theorem byte_of_size_le {m : Memory} {i : Nat} (h : m.size ≤ i) : m.byte i = 0 := by
  rw [byte, Array.getD_eq_getD_getElem?, Array.getElem?_eq_none h]
  rfl

theorem byte_zeros (size i : Nat) : (zeros size).byte i = 0 := by
  rw [byte, zeros, Array.getD_eq_getD_getElem?, Array.getElem?_replicate]
  split <;> rfl

/-- The digits of the number to base 256, the last one at the last byte of the cell. -/
theorem byte_storeRaw (m : Memory) (address width value i : Nat) :
    (m.storeRaw address width value).byte i =
      if address ≤ i ∧ i < address + width ∧ i < m.size then
        UInt8.ofNat (value / 256 ^ (address + width - 1 - i)) else m.byte i := by
  induction width generalizing value with
  | zero => rw [storeRaw, if_neg (by omega)]
  | succ width ih =>
    -- the last byte of the cell is set after the others, which hold the quotient by 256
    rw [storeRaw, byte_setByte, size_storeRaw, ih]
    by_cases hlast : i = address + width
    · subst hlast
      have hexp : address + (width + 1) - 1 - (address + width) = 0 := by omega
      rw [hexp, Nat.pow_zero, Nat.div_one]
      by_cases hsize : address + width < m.size
      · rw [if_pos ⟨rfl, hsize⟩, if_pos ⟨by omega, by omega, hsize⟩]
      · rw [if_neg (by omega), if_neg (by omega), if_neg (by omega)]
    · rw [if_neg (by omega)]
      by_cases hcell : address ≤ i ∧ i < address + width ∧ i < m.size
      · have hexp : address + (width + 1) - 1 - i = (address + width - 1 - i) + 1 := by omega
        rw [if_pos hcell, if_pos (by omega), hexp, Nat.pow_succ', ← Nat.div_div_eq_div_mul]
      · rw [if_neg hcell, if_neg (by omega)]

theorem byte_fillRaw (m : Memory) (address : Nat) (value : UInt8) (width i : Nat) :
    (m.fillRaw address value width).byte i =
      if address ≤ i ∧ i < address + width ∧ i < m.size then value else m.byte i := by
  induction width with
  | zero => rw [fillRaw, if_neg (by omega)]
  | succ width ih =>
    rw [fillRaw, byte_setByte, size_fillRaw, ih]
    by_cases hlast : i = address + width ∧ address + width < m.size
    · rw [if_pos hlast, if_pos (by omega)]
    · rw [if_neg hlast]
      by_cases hcell : address ≤ i ∧ i < address + width ∧ i < m.size
      · rw [if_pos hcell, if_pos (by omega)]
      · rw [if_neg hcell, if_neg (by omega)]

/-! ## Where two memories differ -/

/-- The second memory is as long as the first, and differs from it in the given cells at most. -/
structure Within (cells : Set Nat) (m m' : Memory) : Prop where
  size : m'.size = m.size
  byte : ∀ i ∉ cells, m'.byte i = m.byte i

namespace Within

variable {cells cells' : Set Nat} {m m' m'' : Memory}

theorem refl (cells : Set Nat) (m : Memory) : Within cells m m := ⟨rfl, fun _ _ => rfl⟩

theorem trans (h : Within cells m m') (h' : Within cells m' m'') : Within cells m m'' :=
  ⟨h'.size.trans h.size, fun i hi => (h'.byte i hi).trans (h.byte i hi)⟩

instance : IsPreorder Memory (Within cells) where
  refl := refl cells
  trans _ _ _ := trans

theorem mono (hsub : cells ⊆ cells') (h : Within cells m m') : Within cells' m m' :=
  ⟨h.size, fun i hi => h.byte i fun hcells => hi (hsub hcells)⟩

end Within

theorem within_storeRaw (m : Memory) (address width value : Nat) :
    Within (Set.Ico address (address + width)) m (m.storeRaw address width value) := by
  refine ⟨m.size_storeRaw address width value, fun i hi => ?_⟩
  rw [byte_storeRaw, if_neg fun h => hi ⟨h.1, h.2.1⟩]

theorem within_fillRaw (m : Memory) (address : Nat) (value : UInt8) (width : Nat) :
    Within (Set.Ico address (address + width)) m (m.fillRaw address value width) := by
  refine ⟨m.size_fillRaw address value width, fun i hi => ?_⟩
  rw [byte_fillRaw, if_neg fun h => hi ⟨h.1, h.2.1⟩]

theorem check_eq_ok {m : Memory} {address width : Nat} (h : address + width ≤ m.size) :
    m.check address width = .ok () := if_pos h

theorem checkRegion_eq_ok {m : Memory} {r : Region} {address width : Nat}
    (hr : r.holds address width = true) (h : address + width ≤ m.size) :
    m.checkRegion r address width = .ok () := by
  rw [checkRegion, if_pos hr, check_eq_ok h]

end Memory

/-! ## Edits -/

namespace Edit

open Memory (Within)

variable {α : Type}

theorem leaves_read (f : Memory → Except AccessError α) (m : Memory) :
    leaves (Edit.read f) m = m := by
  rw [leaves, read]
  cases f m <;> rfl

theorem keeps_read {R : Memory → Memory → Prop} [IsPreorder Memory R]
    (f : Memory → Except AccessError α) : Keeps R (Edit.read f) := by
  intro m
  rw [leaves_read]
  exact Std.Refl.refl m

theorem read_eq_ok {f : Memory → Except AccessError α} {m : Memory} {a : α} (h : f m = .ok a) :
    Edit.read f m = .ok a m := by
  rw [read, h]

theorem read_eq_error {f : Memory → Except AccessError α} {m : Memory} {e : AccessError}
    (h : f m = .error e) : Edit.read f m = .error e m := by
  rw [read, h]

theorem store_eq_ok {m : Memory} {address width : Nat} (h : address + width ≤ m.size)
    (value : Nat) :
    Edit.store address width value m = .ok () (m.storeRaw address width value) :=
  bind_of_ok (read_eq_ok (Memory.check_eq_ok h))

theorem store_eq_error {m : Memory} {address width : Nat} (h : ¬ address + width ≤ m.size)
    (value : Nat) :
    Edit.store address width value m = .error (.outOfRange address width m.size) m :=
  bind_of_error (read_eq_error (if_neg h))

theorem store_within (address width value : Nat) :
    Keeps (Within (Set.Ico address (address + width))) (store address width value) := by
  intro m
  by_cases h : address + width ≤ m.size
  · rw [leaves_of_ok (store_eq_ok h value)]
    exact m.within_storeRaw address width value
  · rw [leaves_of_error (store_eq_error h value)]
    exact .refl _ m

theorem storeInt_within (t : Storage) (address : Nat) (value : Int) :
    Keeps (Within (Set.Ico address (address + t.width))) (storeInt t address value) :=
  store_within address t.width (t.encode value)

/-- The bytes of the shake of the camera. -/
def shakeCells : Set Nat := Set.Ico shakeX 512

theorem setShake_within (x y : Int) : Keeps (Within shakeCells) (setShake x y) := by
  have hcell : ∀ {address : Nat} (value : Int), shakeX ≤ address → address + 2 ≤ 512 →
      Keeps (Within shakeCells) (storeInt .signedInt16 address value) := by
    intro address value hlow hhigh
    refine (storeInt_within _ address value).mono fun _ _ => Within.mono fun i hi => ?_
    exact ⟨hlow.trans hi.1, hi.2.trans_le hhigh⟩
  refine keeps_bind (keeps_read _) fun _ => keeps_bind (keeps_read _) fun _ => ?_
  exact keeps_bind (hcell x (le_refl _) (by decide)) fun _ => hcell y (by decide) (le_refl _)

end Edit

end PixelScene
