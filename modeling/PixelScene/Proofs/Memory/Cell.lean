import Mathlib
import PixelScene.Proofs.Memory.Write
import PixelScene.Proofs.Number.Integer
import PixelScene.Proofs.Outcome

/-!
# Cells

A cell of a storage type is written whole or not at all. What is read from it afterwards is the
integer that was written, as far as the type can hold it, and what was read from it can be written
back without a change.

* `Storage.decode_encode`, `Storage.encode_decode`: integers and the numbers that bytes spell.
* `Memory.fetchRaw_storeRaw`, `Memory.storeRaw_fetchRaw`: numbers and bytes.
* `Storage.encode_rounded_ofInt`: an integer is stored alike when it is written as a number.
* `Edit.storeInt_exact`: writing to a cell and reading from it.

The typed accesses of the engine are one function with a parameter here: a cell has a width, and its
type decides how a number becomes bytes (`VarType`). The plain accesses, `write_int16` and its like,
take integers, and `write_var` takes a double, which is rounded first. The statement has both. Every
access comes after `check`, whose sum is a checked one, so an address may be any number.
-/

namespace PixelScene

open Memory (Within)

/-! ## What a cell can hold -/

namespace Storage

/-- The least integer of a cell. -/
def least : Storage → Int
  | signedInt16 => -32768
  | _ => 0

/-- The greatest integer of a cell. -/
def greatest : Storage → Int
  | int8 => 255
  | int16 => 65535
  | signedInt16 => 32767
  | int24 => 16777215

theorem width_pos (t : Storage) : 0 < t.width := by cases t <;> decide

theorem width_le (t : Storage) : t.width ≤ 3 := by cases t <;> decide

theorem decode_mem (t : Storage) {raw : Nat} (h : raw < 256 ^ t.width) :
    t.least ≤ t.decode raw ∧ t.decode raw ≤ t.greatest := by
  cases t with
  | int8 | int16 | int24 =>
    simp only [width] at h
    simp only [decode, least, greatest]
    omega
  | signedInt16 =>
    have h15 : Number.twoTo 15 = 32768 := rfl
    have h16 : Number.twoTo 16 = 65536 := rfl
    simp only [width] at h
    simp only [decode, least, greatest, h15, h16]
    split <;> omega

theorem least_ge (t : Storage) : -32768 ≤ t.least := by cases t <;> decide

theorem greatest_le (t : Storage) : t.greatest ≤ 16777215 := by cases t <;> decide

/-- What a cell holds of an integer: one byte the nearest that it can, the wider types the one that
is the same up to a multiple of a power of two. -/
def kept : Storage → Int → Int
  | int8, v => Number.clamp 0 255 v
  | int16, v => v % 2 ^ 16
  | signedInt16, v => v.bmod (2 ^ 16)
  | int24, v => v % 2 ^ 24

/-- The wider types spell the low bits of an integer. -/
theorem encode_eq_emod {t : Storage} (ht : t ≠ int8) (v : Int) :
    t.encode v = (v % 256 ^ t.width).toNat := by
  cases t with
  | int8 => exact absurd rfl ht
  | int16 | signedInt16 | int24 => rfl

theorem encode_lt (t : Storage) (v : Int) : t.encode v < 256 ^ t.width := by
  by_cases ht : t = int8
  · subst ht
    have := Number.clamp_mem (by decide : (0 : Int) ≤ 255) v
    simp only [encode, width]
    omega
  · have hpos : (0 : Int) < 256 ^ t.width := by positivity
    have := Int.emod_lt_of_pos v hpos
    have hnonneg := Int.emod_nonneg v hpos.ne'
    rw [encode_eq_emod ht]
    zify
    rwa [Int.toNat_of_nonneg hnonneg]

theorem decode_encode (t : Storage) (v : Int) : t.decode (t.encode v) = t.kept v := by
  cases t with
  | int8 =>
    have := Number.clamp_mem (by decide : (0 : Int) ≤ 255) v
    simp only [decode, encode, kept]
    omega
  | int16 | int24 =>
    rw [encode_eq_emod]
    · simp only [decode, width, kept]
      omega
    · decide
  | signedInt16 =>
    have h15 : Number.twoTo 15 = 32768 := rfl
    have h16 : Number.twoTo 16 = 65536 := rfl
    rw [encode_eq_emod]
    · simp only [decode, width, kept, h15, h16, Int.bmod]
      split <;> split <;> omega
    · decide

/-- An integer that a cell can hold is held as it is. -/
theorem kept_eq_self {t : Storage} {v : Int} (hlow : t.least ≤ v) (hhigh : v ≤ t.greatest) :
    t.kept v = v := by
  cases t with
  | int8 => exact Number.clamp_eq_self hlow hhigh
  | int16 | int24 =>
    simp only [least, greatest] at hlow hhigh
    simp only [kept]
    omega
  | signedInt16 =>
    simp only [least, greatest] at hlow hhigh
    simp only [kept, Int.bmod]
    split <;> omega

/-- A natural number that a cell can hold is spelt as it is. -/
theorem encode_eq_toNat {t : Storage} {v : Int} (hlow : 0 ≤ v) (hhigh : v ≤ t.greatest) :
    t.encode v = v.toNat := by
  cases t with
  | int8 => exact congrArg Int.toNat (Number.clamp_eq_self hlow hhigh)
  | int16 | signedInt16 | int24 =>
    simp only [greatest] at hhigh
    rw [encode_eq_emod (by decide), Int.emod_eq_of_lt hlow (by simp only [width]; omega)]

theorem encode_decode (t : Storage) {raw : Nat} (h : raw < 256 ^ t.width) :
    t.encode (t.decode raw) = raw := by
  cases t with
  | int8 | int16 | int24 =>
    simp only [width] at h
    exact encode_eq_toNat (by simp only [decode]; omega) (by simp only [decode, greatest]; omega)
  | signedInt16 =>
    have h15 : Number.twoTo 15 = 32768 := rfl
    have h16 : Number.twoTo 16 = 65536 := rfl
    simp only [width] at h
    rw [encode_eq_emod (by decide)]
    simp only [decode, width, h15, h16]
    split <;> omega

/-- A byte takes every integer of 64 bits alike when it is written as a number, and any cell takes
those that a double has. -/
theorem encode_rounded_ofInt {t : Storage} {v : Int}
    (h : v.natAbs < 2 ^ 53 ∨ t = int8 ∧ v.natAbs < 2 ^ 64) :
    t.encode (t.rounded (Number.ofInt v)) = t.encode v := by
  by_cases ht : t = int8
  · subst ht
    have hround : int8.rounded (Number.ofInt v) = Number.clamp 0 255 v :=
      Number.round_ofInt (by norm_num) le_rfl (by norm_num) (by norm_num) (by omega)
    have hmem := Number.clamp_mem (by decide : (0 : Int) ≤ 255) v
    rw [hround, encode, encode, Number.clamp_eq_self hmem.1 hmem.2]
  · have hround : t.rounded (Number.ofInt v) = Number.roundFinite (Number.ofInt v) := by
      cases t with
      | int8 => exact absurd rfl ht
      | int16 | signedInt16 | int24 => rfl
    rw [hround, Number.roundFinite_ofInt (h.resolve_right fun h => ht h.1)]

end Storage

/-! ## The bytes of a cell -/

namespace Memory

variable {m m' : Memory} {address width : Nat} {t : Storage}

theorem fetchRaw_lt (m : Memory) (address width : Nat) : m.fetchRaw address width < 256 ^ width := by
  induction width with
  | zero => exact Nat.one_pos
  | succ width ih =>
    have hbyte := (m.byte (address + width)).toNat_lt
    rw [fetchRaw, Nat.pow_succ]
    omega

theorem fetchRaw_congr (h : ∀ i, address ≤ i → i < address + width → m'.byte i = m.byte i) :
    m'.fetchRaw address width = m.fetchRaw address width := by
  induction width with
  | zero => rfl
  | succ width ih =>
    rw [fetchRaw, fetchRaw, ih fun i hlow hhigh => h i hlow (by omega), h _ (by omega) (by omega)]

/-- The low bytes of a number are read where they were written. -/
theorem fetchRaw_storeRaw (h : address + width ≤ m.size) (value : Nat) :
    (m.storeRaw address width value).fetchRaw address width = value % 256 ^ width := by
  induction width generalizing value with
  | zero => exact (Nat.mod_one value).symm
  | succ width ih =>
    have hfront : ((m.storeRaw address width (value / 256)).setByte (address + width)
        (UInt8.ofNat value)).fetchRaw address width = value / 256 % 256 ^ width := by
      rw [← ih (by omega)]
      exact fetchRaw_congr fun i _ hhigh => by rw [byte_setByte, if_neg (by omega)]
    have hlast : ((m.storeRaw address width (value / 256)).setByte (address + width)
        (UInt8.ofNat value)).byte (address + width) = UInt8.ofNat value := by
      rw [byte_setByte, if_pos ⟨rfl, by rw [size_storeRaw]; omega⟩]
    have hsplit : value % 256 ^ (width + 1) = value % 256 + 256 * (value / 256 % 256 ^ width) := by
      rw [Nat.pow_succ', Nat.mod_mul]
    rw [storeRaw, fetchRaw, hfront, hlast, UInt8.toNat_ofNat', hsplit]
    omega

/-- A memory is its bytes. -/
theorem eq_of_byte (hsize : m'.size = m.size) (h : ∀ i, m'.byte i = m.byte i) : m' = m := by
  refine congrArg Memory.mk (Array.ext hsize fun i hi hi' => ?_)
  have hbyte := h i
  rw [byte, byte, Array.getD_eq_getD_getElem?, Array.getD_eq_getD_getElem?,
    Array.getElem?_eq_getElem hi, Array.getElem?_eq_getElem hi'] at hbyte
  exact hbyte

theorem setByte_byte (m : Memory) (address : Nat) : m.setByte address (m.byte address) = m := by
  refine eq_of_byte (m.size_setByte _ _) fun i => ?_
  rw [byte_setByte]
  split
  · rename_i h
    rw [h.1]
  · rfl

/-- Writing what is there changes nothing. -/
theorem storeRaw_fetchRaw (m : Memory) (address width : Nat) :
    m.storeRaw address width (m.fetchRaw address width) = m := by
  induction width with
  | zero => rfl
  | succ width ih =>
    have hbyte := (m.byte (address + width)).toNat_lt
    have hfront : (m.fetchRaw address width * 256 + (m.byte (address + width)).toNat) / 256 =
        m.fetchRaw address width := by omega
    have hlast : UInt8.ofNat (m.fetchRaw address width * 256 + (m.byte (address + width)).toNat) =
        m.byte (address + width) := by
      rw [← UInt8.toNat_inj, UInt8.toNat_ofNat']
      omega
    rw [storeRaw, fetchRaw, hfront, ih, hlast, setByte_byte]

/-! ## Reading a cell -/

theorem fetchInt_eq_ok (h : address + t.width ≤ m.size) :
    m.fetchInt t address = .ok (t.decode (m.fetchRaw address t.width)) := by
  rw [fetchInt, fetch, check_eq_ok h]
  rfl

theorem fetchInt_eq_error (h : ¬ address + t.width ≤ m.size) :
    m.fetchInt t address = .error (.outOfRange address t.width m.size) := by
  rw [fetchInt, fetch, check, if_neg h]
  rfl

theorem fetchInt_eq_ok_iff {n : Int} : m.fetchInt t address = .ok n ↔
    address + t.width ≤ m.size ∧ t.decode (m.fetchRaw address t.width) = n := by
  by_cases h : address + t.width ≤ m.size
  · simp [fetchInt_eq_ok h, h]
  · simp [fetchInt_eq_error h, h]

theorem fetchInt_mem {n : Int} (h : m.fetchInt t address = .ok n) :
    t.least ≤ n ∧ n ≤ t.greatest := by
  obtain ⟨-, rfl⟩ := fetchInt_eq_ok_iff.mp h
  exact t.decode_mem (m.fetchRaw_lt address t.width)

/-- Changes elsewhere make no difference to a cell. -/
theorem Within.fetchInt_eq {cells : Set Nat} (h : Within cells m m')
    (hcells : ∀ i, address ≤ i → i < address + t.width → i ∉ cells) :
    m'.fetchInt t address = m.fetchInt t address := by
  have hraw : m'.fetchRaw address t.width = m.fetchRaw address t.width :=
    fetchRaw_congr fun i hlow hhigh => h.byte i (hcells i hlow hhigh)
  by_cases hsize : address + t.width ≤ m.size
  · rw [fetchInt_eq_ok hsize, fetchInt_eq_ok (h.size ▸ hsize), hraw]
  · rw [fetchInt_eq_error hsize, fetchInt_eq_error (h.size ▸ hsize), h.size]

theorem fetchInt_storeRaw (h : address + t.width ≤ m.size) (v : Int) :
    (m.storeRaw address t.width (t.encode v)).fetchInt t address = .ok (t.kept v) := by
  rw [fetchInt_eq_ok (by rwa [size_storeRaw]), fetchRaw_storeRaw h, Nat.mod_eq_of_lt (t.encode_lt v),
    t.decode_encode]

/-- Writing the integer that a cell holds changes nothing. -/
theorem storeRaw_of_fetchInt {n : Int} (h : m.fetchInt t address = .ok n) :
    m.storeRaw address t.width (t.encode n) = m := by
  obtain ⟨-, rfl⟩ := fetchInt_eq_ok_iff.mp h
  rw [t.encode_decode (m.fetchRaw_lt address t.width), storeRaw_fetchRaw]

end Memory

/-! ## Writing a cell -/

namespace Edit

variable {m m' : Memory} {address : Nat} {t : Storage} {v : Int}

theorem storeInt_eq_ok (h : address + t.width ≤ m.size) (v : Int) :
    storeInt t address v m = .ok () (m.storeRaw address t.width (t.encode v)) :=
  store_eq_ok h _

theorem storeInt_eq_error (h : ¬ address + t.width ≤ m.size) (v : Int) :
    storeInt t address v m = .error (.outOfRange address t.width m.size) m :=
  store_eq_error h _

theorem storeInt_eq_ok_iff : storeInt t address v m = .ok () m' ↔
    address + t.width ≤ m.size ∧ m' = m.storeRaw address t.width (t.encode v) := by
  by_cases h : address + t.width ≤ m.size
  · simp [storeInt_eq_ok h, h, eq_comm]
  · simp [storeInt_eq_error h, h]

/-- An integer is stored alike when it is written as a number. -/
theorem storeNumber_ofInt (h : v.natAbs < 2 ^ 53 ∨ t = .int8 ∧ v.natAbs < 2 ^ 64) :
    storeNumber t address (Number.ofInt v) = storeInt t address v := by
  rw [storeNumber, storeInt, storeInt, Storage.encode_rounded_ofInt h]

/-- The number that was read from a cell is written back without a change. -/
theorem storeNumber_of_fetchNumber {x : Float} (h : m.fetchNumber t address = .ok x) :
    storeNumber t address x m = .ok () m := by
  obtain ⟨n, hfetch, hx⟩ := bind_eq_ok_iff.mp h
  have hmem := Memory.fetchInt_mem hfetch
  have hlow := t.least_ge
  have hhigh := t.greatest_le
  rw [← Except.ok.inj hx, storeNumber_ofInt (.inl (by omega)),
    storeInt_eq_ok (Memory.fetchInt_eq_ok_iff.mp hfetch).1, Memory.storeRaw_of_fetchInt hfetch]

/--
**Access to a cell is exact and local.** A write succeeds exactly if all bytes of the cell are in the
memory. It changes these bytes only, the cell is read as the integer that was written, as far as it
can hold that, and what is read from cells beside it stays. A write that fails changes nothing. The
integers of 64 bits may be written to a byte as numbers too, and a number that was read from a cell
is written back without a change.
-/
theorem storeInt_exact (t : Storage) (m : Memory) (address : Nat) (v : Int) :
    ((∃ m', storeInt t address v m = .ok () m') ↔ address + t.width ≤ m.size) ∧
      (∀ m', storeInt t address v m = .ok () m' →
        Within (Set.Ico address (address + t.width)) m m' ∧
          m'.fetchInt t address = .ok (t.kept v) ∧
          ∀ (u : Storage) (other : Nat),
            other + u.width ≤ address ∨ address + t.width ≤ other →
              m'.fetchInt u other = m.fetchInt u other) ∧
      (∀ e m', storeInt t address v m = .error e m' → m' = m) ∧
      (v.natAbs ≤ 2 ^ 63 →
        storeNumber .int8 address (Number.ofInt v) m = storeInt .int8 address v m) ∧
      ∀ x, m.fetchNumber t address = .ok x → storeNumber t address x m = .ok () m := by
  refine ⟨⟨fun ⟨m', h⟩ => (storeInt_eq_ok_iff.mp h).1, fun h => ⟨_, storeInt_eq_ok h v⟩⟩, ?_, ?_, ?_,
    fun x h => storeNumber_of_fetchNumber h⟩
  · intro m' h
    obtain ⟨hsize, rfl⟩ := storeInt_eq_ok_iff.mp h
    have hwithin := m.within_storeRaw address t.width (t.encode v)
    refine ⟨hwithin, Memory.fetchInt_storeRaw hsize v, fun u other hother => ?_⟩
    refine hwithin.fetchInt_eq fun i hlow hhigh hi => ?_
    have hlow' : address ≤ i := hi.1
    have hhigh' : i < address + t.width := hi.2
    omega
  · intro e m' h
    by_cases hsize : address + t.width ≤ m.size
    · rw [storeInt_eq_ok hsize] at h
      cases h
    · rw [storeInt_eq_error hsize] at h
      cases h
      rfl
  · intro hv
    rw [storeNumber_ofInt (.inr ⟨rfl, by omega⟩)]

end Edit

end PixelScene
