import Mathlib.Data.List.Basic
import PixelScene.Cartridge

/-!
# Cartridges lose nothing

Packing and unpacking find the first row under the canvas on their own: packing from the canvas,
unpacking from the size of the memory and the height of the whole picture. Both round twice, from
bytes up to pixels and from pixels up to rows.

* `Cartridge.state?_eq_some_iff` and `Cartridge.unpack?_eq_some_iff` say how a picture has to be
  made up for a memory to be found in it: canvas, mark, three pixels of anything, the memory,
  anything.
* `Cartridge.pack_eq_ok_iff`: packing makes such a picture, with zeros in the place of anything.
* `Cartridge.pack_unpack_lossless`: unpacking undoes packing, and packing undoes unpacking but for
  the bytes that no one reads.

Both results are about `pack` and `unpack` on pictures in memory, for every canvas with a column and
every memory, the empty one included. A picture that was not packed may pass for one that was, if it
happens to have the mark in the right place; the statement about unpacking is an equivalence, so it
covers these as well. The PNG file around the picture is left out.
-/

namespace PixelScene

theorem Picture.eq_of_bytes {p q : Picture} (hwidth : p.width = q.width)
    (hheight : p.height = q.height) (hbytes : p.bytes = q.bytes) : p = q := by
  cases p
  cases q
  simp only at hwidth hheight hbytes
  subst hwidth hheight hbytes
  rfl

namespace Cartridge

variable {canvas image packed : Picture} {state : Memory} {under : List UInt8} {size width : Nat}

/-! ## What stands under the canvas -/

/-- The number of bytes between the mark and the memory. -/
def gapSize : Nat := 3 * pixelBytes

/-- Some bytes carry a memory: the mark, a gap, the bytes of the memory, and a rest. -/
def Carries (under : List UInt8) (state : Memory) (gap rest : List UInt8) : Prop :=
  gap.length = gapSize ∧ under = mark ++ gap ++ state.bytes.toList ++ rest

/-- What is packed under a canvas has zeros in the gap and behind the memory. -/
theorem carries_rows (state : Memory) (width : Nat) :
    Carries (rows state width) state (List.replicate gapSize 0) (List.replicate
      (width * dataRows state.size width * pixelBytes - (header.length + state.size)) 0) :=
  ⟨List.length_replicate, rfl⟩

/-- **A memory is found exactly where bytes carry it.** -/
theorem state?_eq_some_iff :
    state? under size = some state ↔ state.size = size ∧ ∃ gap rest, Carries under state gap rest := by
  have hheader : header.length = mark.length + gapSize := rfl
  unfold state?
  constructor
  · intro h
    split at h
    · rename_i hfits
      obtain ⟨hmark, hlong⟩ := hfits
      obtain ⟨tail, rfl⟩ := List.isPrefixOf_iff_prefix.mp hmark
      obtain rfl := Option.some.inj h
      rw [List.length_append, hheader] at hlong
      have hdrop : (mark ++ tail).drop header.length = tail.drop gapSize := by
        rw [hheader, List.drop_append, List.drop_of_length_le (Nat.le_add_right _ _),
          Nat.add_sub_cancel_left, List.nil_append]
      refine ⟨?_, tail.take gapSize, (tail.drop gapSize).drop size, ?_, ?_⟩
      · rw [Memory.size, hdrop, List.size_toArray, List.length_take, List.length_drop]
        omega
      · rw [List.length_take]
        omega
      · rw [hdrop, List.toList_toArray, List.append_assoc, List.append_assoc, List.take_append_drop,
          List.take_append_drop]
    · cases h
  · rintro ⟨rfl, gap, rest, hgap, rfl⟩
    have hsize : state.bytes.toList.length = state.size := rfl
    have hlong : header.length + state.size ≤
        (mark ++ gap ++ state.bytes.toList ++ rest).length := by
      simp only [List.length_append, hgap, hsize, hheader]
      omega
    have hmark : mark.isPrefixOf (mark ++ gap ++ state.bytes.toList ++ rest) = true := by
      rw [List.isPrefixOf_iff_prefix, List.append_assoc, List.append_assoc]
      exact List.prefix_append _ _
    have hfront : header.length = (mark ++ gap).length := by rw [List.length_append, hgap, hheader]
    rw [if_pos ⟨hmark, hlong⟩, hfront, List.append_assoc, List.drop_left, ← hsize, List.take_left]

/-! ## Taking a picture apart -/

theorem upperRows_eq_iff {height : Nat} (h : height ≤ image.height) :
    upperRows image height h = canvas ↔
      canvas.width = image.width ∧ canvas.height = height ∧
        ∃ under, image.bytes = canvas.bytes ++ under := by
  constructor
  · rintro rfl
    exact ⟨rfl, rfl, _, (List.take_append_drop _ _).symm⟩
  · rintro ⟨hwidth, rfl, under, hbytes⟩
    refine Picture.eq_of_bytes hwidth.symm rfl ?_
    have hlength : image.width * canvas.height * pixelBytes = canvas.bytes.length := by
      rw [canvas.length_bytes, hwidth]
    simp only [upperRows, hlength, hbytes, List.take_left]

/-- **A picture is taken apart exactly where its rows carry a memory**: the canvas is what stands
above the rows that a memory of this size takes. -/
theorem unpack?_eq_some_iff :
    unpack? image size = some (canvas, state) ↔
      canvas.width = image.width ∧ canvas.height + dataRows size image.width = image.height ∧
        ∃ under, image.bytes = canvas.bytes ++ under ∧ state? under size = some state := by
  unfold unpack?
  constructor
  · intro h
    split at h
    · rename_i hrows
      simp only [Option.map_eq_some_iff, Prod.mk.injEq] at h
      obtain ⟨state', hstate, hcanvas, rfl⟩ := h
      obtain ⟨hwidth, hheight, under, hbytes⟩ := (upperRows_eq_iff _).mp hcanvas
      rw [hcanvas, hbytes, List.drop_left] at hstate
      exact ⟨hwidth, by omega, under, hbytes, hstate⟩
    · cases h
  · rintro ⟨hwidth, hheight, under, hbytes, hstate⟩
    have hcanvas : upperRows image (image.height - dataRows size image.width) (Nat.sub_le _ _) =
        canvas := (upperRows_eq_iff _).mpr ⟨hwidth, by omega, under, hbytes⟩
    rw [if_pos (by omega)]
    simp only [hcanvas, hbytes, List.drop_left, hstate, Option.map_some]

/-! ## Packing -/

theorem pack_eq_ok_iff : pack canvas state = .ok packed ↔
    canvas.width ≠ 0 ∧ packed.width = canvas.width ∧
      packed.height = canvas.height + dataRows state.size canvas.width ∧
      packed.bytes = canvas.bytes ++ rows state canvas.width := by
  unfold pack
  split
  · rename_i hwidth
    exact ⟨nofun, fun h => absurd hwidth h.1⟩
  · rename_i hwidth
    rw [Except.ok.injEq]
    constructor
    · rintro rfl
      exact ⟨hwidth, rfl, rfl, rfl⟩
    · rintro ⟨-, hpacked, hheight, hbytes⟩
      exact Picture.eq_of_bytes hpacked.symm hheight.symm hbytes.symm

theorem exists_pack_eq_ok (h : canvas.width ≠ 0) (state : Memory) :
    ∃ packed, pack canvas state = .ok packed := by
  unfold pack
  rw [dif_neg h]
  exact ⟨_, rfl⟩

/-- A picture without columns has no bytes, so none that carry a memory. -/
theorem width_ne_zero_of_carries {gap rest : List UInt8}
    (hbytes : image.bytes = canvas.bytes ++ under) (h : Carries under state gap rest) :
    image.width ≠ 0 := by
  intro hwidth
  have hlength := image.length_bytes
  rw [hwidth, Nat.zero_mul, Nat.zero_mul, hbytes, h.2] at hlength
  simp [mark] at hlength

theorem unpack?_pack (h : pack canvas state = .ok packed) :
    unpack? packed state.size = some (canvas, state) := by
  obtain ⟨-, hpacked, hheight, hbytes⟩ := pack_eq_ok_iff.mp h
  rw [unpack?_eq_some_iff, hpacked]
  exact ⟨rfl, hheight.symm, _, hbytes, state?_eq_some_iff.mpr ⟨rfl, _, _, carries_rows state _⟩⟩

/--
**Cartridges lose nothing.** A memory of any size can be packed under any canvas that has a column,
and unpacking gives both back. The other way round, what can be unpacked from a picture can be packed
again, and the result is the picture, only that there are zeros in the gap between mark and memory
and behind the memory. Sides are not bounded here: a format that bounds them has room for the packed
picture when the rows of the canvas and those under it stay within the bound together.
-/
theorem pack_unpack_lossless :
    (∀ (canvas : Picture) (state : Memory), canvas.width ≠ 0 →
      ∃ packed, pack canvas state = .ok packed ∧ packed.width = canvas.width ∧
        packed.height = canvas.height + dataRows state.size canvas.width ∧
        unpack? packed state.size = some (canvas, state)) ∧
    ∀ (image canvas : Picture) (size : Nat) (state : Memory),
      unpack? image size = some (canvas, state) →
      state.size = size ∧ ∃ packed, pack canvas state = .ok packed ∧
        packed.width = image.width ∧ packed.height = image.height ∧
        ∃ gap rest : List UInt8, gap.length = 3 * pixelBytes ∧
          image.bytes = canvas.bytes ++ (mark ++ gap ++ state.bytes.toList ++ rest) ∧
          packed.bytes = canvas.bytes ++ (mark ++ List.replicate gap.length 0 ++
            state.bytes.toList ++ List.replicate rest.length 0) := by
  refine ⟨fun canvas state hwidth => ?_, fun image canvas size state h => ?_⟩
  · obtain ⟨packed, hpack⟩ := exists_pack_eq_ok hwidth state
    obtain ⟨-, hpacked, hheight, -⟩ := pack_eq_ok_iff.mp hpack
    exact ⟨packed, hpack, hpacked, hheight, unpack?_pack hpack⟩
  · obtain ⟨hwidth, hheight, under, hbytes, hstate⟩ := unpack?_eq_some_iff.mp h
    obtain ⟨rfl, gap, rest, hcarries⟩ := state?_eq_some_iff.mp hstate
    have hcolumns : canvas.width ≠ 0 := hwidth ▸ width_ne_zero_of_carries hbytes hcarries
    obtain ⟨packed, hpack⟩ := exists_pack_eq_ok hcolumns state
    obtain ⟨-, hpacked, hrows, hpackedBytes⟩ := pack_eq_ok_iff.mp hpack
    obtain ⟨hgap, rfl⟩ := hcarries
    have hsame : packed.height = image.height := by rw [hrows, hwidth, hheight]
    -- both pictures have as many bytes, so what follows the memory is equally long
    have hlength : packed.bytes.length = image.bytes.length := by
      rw [packed.length_bytes, image.length_bytes, hpacked, hwidth, hsame]
    rw [hpackedBytes, hbytes, (carries_rows state canvas.width).2] at hlength
    simp only [List.length_append, List.length_replicate, hgap] at hlength
    refine ⟨rfl, packed, hpack, hpacked.trans hwidth, hsame, gap, rest, hgap, hbytes, ?_⟩
    rw [hpackedBytes, (carries_rows state canvas.width).2, hgap]
    congr 3
    omega

/-- A canvas of three columns and one row. -/
def narrowCanvas : Picture := Picture.filled 3 1 10 20 30 255

/-- A memory that ends inside its second pixel. -/
def fiveBytes : Memory := ⟨#[1, 2, 3, 4, 5]⟩

/-- The canvas with the memory, and other bytes where no one reads. -/
def strayImage : Picture where
  width := 3
  height := 3
  bytes := narrowCanvas.bytes ++ (mark ++ List.replicate 12 7 ++ [1, 2, 3, 4, 5] ++ [9, 9, 9])
  length_bytes := by decide

theorem pack_unpack_lossless_narrow : narrowCanvas.width ≠ 0 ∧
    (∃ packed, pack narrowCanvas fiveBytes = .ok packed ∧ packed.width = 3 ∧ packed.height = 3 ∧
      unpack? packed 5 = some (narrowCanvas, fiveBytes)) ∧
    unpack? strayImage 5 = some (narrowCanvas, fiveBytes) ∧
    ∃ packed, pack narrowCanvas fiveBytes = .ok packed ∧ packed.height = strayImage.height := by
  have hwidth : narrowCanvas.width ≠ 0 := by decide
  have hunpack : unpack? strayImage 5 = some (narrowCanvas, fiveBytes) := by decide
  obtain ⟨hpacks, hunpacks⟩ := pack_unpack_lossless
  obtain ⟨-, packed, hpack, -, hheight, -⟩ := hunpacks _ _ _ _ hunpack
  exact ⟨hwidth, hpacks narrowCanvas fiveBytes hwidth, hunpack, packed, hpack, hheight⟩

end Cartridge

end PixelScene
