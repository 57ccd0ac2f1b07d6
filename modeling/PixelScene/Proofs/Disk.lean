import Mathlib.Data.List.Infix
import PixelScene.Disk
import PixelScene.Proofs.Text.Split

/-!
# Files that are written

A file that was given new content has it, and all others have what they had. No path means another
place than before, since a file can only be written into a folder that is there.

* `Disk.isFolderAt_write?`, `Disk.locate?_write?`: writing a file makes no folder.
* `Disk.file?_write?`, `Disk.json?_write?`: what is written is what is read.
* `Disk.get?_tree`: what the project beneath a folder has of the files.
* `Disk.files_write?_of_ne`, `Disk.get?_tree_write?_of_ne`: no other file changes.

A path is followed part by part, as the system does it: a part may be looked up only in a folder
that is there. Files lie in a dictionary by their whole path, and a folder is there if some file
lies beneath it (`Disk.isFolderAt_iff`). A write goes to the place that the path means, if this lies
in a folder and is none itself, so the folders before and after it are the same. This is what a
recording that is kept relies on (`PixelScene.Proofs.Program.Rehearse`). Links and files of others
are left out.
-/

namespace PixelScene

namespace Content

theorem text?_ofText (text : String) : (ofText text).text? = some text := by
  rw [ofText, text?, String.fromUTF8?, String.toUTF8_eq_toByteArray, dif_pos text.isValidUTF8]
  rfl

end Content

/-! ## Keys that begin alike -/

theorem Dictionary.mem_keys_insert {α : Type} {d : Dictionary α} {key other : String} {value : α} :
    other ∈ (d.insert key value).keys ↔ other = key ∨ other ∈ d.keys := by
  rw [← get?_isSome_iff_mem_keys, ← get?_isSome_iff_mem_keys, get?_insert]
  by_cases h : other = key <;> simp [h]

theorem Dictionary.get?_behind {α β : Type} (front : List Char) (f : List Char → α → β)
    (d : Dictionary α) (key : String) : (d.behind front f).get? key =
      (d.get? (String.ofList (front ++ key.toList))).map (f key.toList) := by
  have hkey : ∀ other : String, String.ofList (front ++ key.toList) = other ↔
      other.toList = front ++ key.toList := fun other => by
    rw [← String.toList_inj, String.toList_ofList, eq_comm]
  simp only [get?, behind]
  induction d.entries with
  | nil => rfl
  | cons e es ih =>
    rw [List.filterMap_cons, lookup_cons_ite]
    cases hdrop : Text.dropFront? front e.1.toList with
    | none =>
      have hne : ¬ String.ofList (front ++ key.toList) = e.1 := fun heq => by
        rw [Text.dropFront?_eq_some_iff.mpr ((hkey e.1).mp heq)] at hdrop
        exact absurd hdrop nofun
      rw [if_neg hne]
      exact ih
    | some rest =>
      have hfront : e.1.toList = front ++ rest := Text.dropFront?_eq_some_iff.mp hdrop
      have hiff : String.ofList (front ++ key.toList) = e.1 ↔ key = String.ofList rest := by
        rw [hkey, hfront, List.append_cancel_left_eq, ← String.toList_inj, String.toList_ofList,
          eq_comm]
      simp only [Option.map_some, lookup_cons_ite, hiff]
      split
      · rename_i heq
        rw [heq, String.toList_ofList]
        rfl
      · exact ih

namespace Disk

variable {d d' : Disk}

/-! ## Folders -/

theorem joinParts_concat (place : List (List Char)) (part : List Char) :
    joinParts (place ++ [part]) = front place ++ part := by
  induction place with
  | nil => exact List.intercalate_singleton
  | cons first place ih =>
    have hfirst : front (first :: place) = joinParts (first :: place) ++ ['/'] := rfl
    rw [hfirst]
    cases place with
    | nil =>
      rw [joinParts, List.cons_append, List.nil_append, List.intercalate_cons_cons, joinParts,
        List.intercalate_singleton, List.intercalate_singleton]
    | cons next place =>
      have hnext : front (next :: place) = joinParts (next :: place) ++ ['/'] := rfl
      have hall : ∀ more : List (List Char), joinParts (first :: next :: more) =
          first ++ ['/'] ++ joinParts (next :: more) := fun more => List.intercalate_cons_cons
      rw [hnext] at ih
      rw [List.cons_append, List.cons_append, hall, hall, ← List.cons_append, ih]
      simp only [List.append_assoc]

theorem front_concat (place : List (List Char)) (part : List Char) :
    front (place ++ [part]) = front place ++ part ++ ['/'] := by
  rw [← joinParts_concat]
  cases place <;> rfl

theorem isFolderAt_iff {place : List (List Char)} :
    d.isFolderAt place = true ↔ place = [] ∨ ∃ id ∈ d.files.keys, front place <+: id.toList := by
  have hbeneath : ∀ id : String, (beneath? place id).isSome = true ↔ front place <+: id.toList := by
    intro id
    rw [Option.isSome_iff_exists]
    exact exists_congr fun rest => Text.dropFront?_eq_some_iff.trans eq_comm
  rw [isFolderAt, Bool.or_eq_true, List.isEmpty_iff, List.any_eq_true]
  simp only [hbeneath]

/-- What a folder is in is a folder. -/
theorem isFolderAt_of_concat {place : List (List Char)} {part : List Char}
    (h : d.isFolderAt (place ++ [part]) = true) : d.isFolderAt place = true := by
  obtain hnil | ⟨id, hid, hfront⟩ := isFolderAt_iff.mp h
  · exact absurd hnil (List.append_ne_nil_of_right_ne_nil _ (List.cons_ne_nil _ _))
  · rw [front_concat, List.append_assoc] at hfront
    exact isFolderAt_iff.mpr (.inr ⟨id, hid, (List.prefix_append _ _).trans hfront⟩)

/-- A path means the outermost folder, or something in a folder, whose name has no separator. -/
theorem walk?_eq_some {reversed parts place : List (List Char)}
    (hreversed : d.isFolderAt reversed.tail.reverse = true)
    (hparts : ∀ part ∈ reversed ++ parts, '/' ∉ part) (h : d.walk? reversed parts = some place) :
    place = [] ∨
      ∃ folder part, place = folder ++ [part] ∧ d.isFolderAt folder = true ∧ '/' ∉ part := by
  induction parts generalizing reversed with
  | nil =>
    obtain rfl := Option.some.inj h
    cases reversed with
    | nil => exact .inl rfl
    | cons part parents =>
      exact .inr ⟨parents.reverse, part, List.reverse_cons, hreversed,
        hparts part List.mem_cons_self⟩
  | cons part more ih =>
    have hmore : ∀ other ∈ reversed ++ more, '/' ∉ other := fun other hother =>
      hparts other (by simp only [List.mem_append, List.mem_cons] at hother ⊢; tauto)
    unfold walk? at h
    cases hfolder : d.isFolderAt reversed.reverse with
    | false => rw [hfolder] at h; cases h
    | true =>
      rw [hfolder] at h
      simp only [Bool.not_true, Bool.false_eq_true, if_false] at h
      split at h
      · exact ih hreversed hmore h
      · split at h
        · cases reversed with
          | nil => cases h
          | cons last parents =>
            refine ih ?_ (fun other hother => hmore other (List.mem_cons_of_mem last hother)) h
            cases parents with
            | nil => rfl
            | cons next parents =>
              rw [List.tail_cons, List.reverse_cons] at hreversed
              exact isFolderAt_of_concat hreversed
        · have hinner : d.isFolderAt (part :: reversed).tail.reverse = true := hfolder
          have hstacked : ∀ other ∈ part :: reversed ++ more, '/' ∉ other := fun other hother =>
            hparts other (by simp only [List.mem_append, List.mem_cons] at hother ⊢; tauto)
          exact ih hinner hstacked h

theorem locate?_eq_some {path : String} {place : List (List Char)}
    (h : d.locate? path = some place) : place = [] ∨
      ∃ folder part, place = folder ++ [part] ∧ d.isFolderAt folder = true ∧ '/' ∉ part := by
  unfold locate? at h
  split at h
  · cases h
  · cases h
  · exact walk?_eq_some rfl (Text.not_mem_of_mem_splitAt) h

theorem walk?_congr (h : ∀ place, d'.isFolderAt place = d.isFolderAt place)
    (reversed parts : List (List Char)) : d'.walk? reversed parts = d.walk? reversed parts := by
  induction parts generalizing reversed with
  | nil => rfl
  | cons part more ih =>
    unfold walk?
    simp only [h, ih]

/-! ## Writing -/

section Write

variable {path : String} {content : Content}

theorem write?_eq_some (h : d.write? path content = some d') : ∃ place,
    d.locate? path = some place ∧ d.isFolderAt place = false ∧
      d' = ⟨d.files.insert (String.ofList (joinParts place)) content⟩ := by
  obtain ⟨place, hplace, hwrite⟩ := Option.bind_eq_some_iff.mp h
  cases hfolder : d.isFolderAt place with
  | true => rw [hfolder] at hwrite; cases hwrite
  | false =>
    rw [hfolder] at hwrite
    exact ⟨place, hplace, hfolder, (Option.some.inj hwrite).symm⟩

/-- A front that ends with a mark lies before what has none. -/
theorem prefix_of_prefix_append {α : Type} {mark : α} {front before after : List α}
    (h : front ++ [mark] <+: before ++ after) (hafter : mark ∉ after) :
    front ++ [mark] <+: before := by
  rcases List.prefix_or_prefix_of_prefix h (List.prefix_append before after) with hfront | hbefore
  · exact hfront
  · obtain ⟨rest, hrest⟩ := hbefore
    cases hlast : rest.getLast? with
    | none => rw [← hrest, List.getLast?_eq_none_iff.mp hlast, List.append_nil]
    | some last =>
      have hmark : (before ++ rest).getLast? = some mark := by rw [hrest, List.getLast?_concat]
      rw [List.getLast?_append, hlast, Option.some_or] at hmark
      rw [← hrest, List.prefix_append_right_inj] at h
      exact absurd (h.subset (Option.some.inj hmark ▸ List.mem_of_getLast? hlast)) hafter

/-- Writing a file makes no folder. -/
theorem isFolderAt_write? (h : d.write? path content = some d') (place : List (List Char)) :
    d'.isFolderAt place = d.isFolderAt place := by
  obtain ⟨written, hwritten, hfile, rfl⟩ := write?_eq_some h
  rw [Bool.eq_iff_iff, isFolderAt_iff, isFolderAt_iff]
  simp only [Dictionary.mem_keys_insert]
  refine or_congr_right' fun hne => ⟨?_, fun ⟨id, hid, hfront⟩ => ⟨id, .inr hid, hfront⟩⟩
  rintro ⟨id, rfl | hid, hfront⟩
  · -- the new file lies in a folder that was there
    obtain rfl | ⟨folder, part, rfl, hfolder, hpart⟩ := locate?_eq_some hwritten
    · exact absurd hfile nofun
    · have hmark : front place = joinParts place ++ ['/'] := by
        cases place with
        | nil => exact absurd rfl hne
        | cons => rfl
      rw [String.toList_ofList, joinParts_concat, hmark] at hfront
      have hbefore := hmark ▸ prefix_of_prefix_append hfront hpart
      obtain rfl | ⟨id, hid, hid'⟩ := isFolderAt_iff.mp hfolder
      · rw [hmark] at hbefore
        exact absurd (List.prefix_nil.mp hbefore) (by simp)
      · exact ⟨id, hid, hbefore.trans hid'⟩
  · exact ⟨id, hid, hfront⟩

theorem locate?_write? (h : d.write? path content = some d') (other : String) :
    d'.locate? other = d.locate? other := by
  unfold locate?
  split
  · rfl
  · rfl
  · exact walk?_congr (isFolderAt_write? h) _ _

/-- What is written is what is read. -/
theorem file?_write? (h : d.write? path content = some d') : d'.file? path = some content := by
  rw [file?, locate?_write? h]
  obtain ⟨place, hplace, -, rfl⟩ := write?_eq_some h
  rw [hplace, Option.bind_some, fileAt?, Dictionary.get?_insert, if_pos rfl]

theorem text_write? {text : String} (h : d.write? path (.ofText text) = some d') :
    d'.text path = .ok text := by
  rw [Disk.text, file?_write? h]
  dsimp only
  rw [Content.text?_ofText]

theorem json?_write? {text : String} (h : d.write? path (.ofText text) = some d') :
    d'.json? path = Json.parse? text.toList := by
  rw [json?, file?_write? h, Option.bind_some, Content.text?_ofText, Option.bind_some]

end Write

/-! ## Other files -/

/-- The name that a path has among the files of a disk. -/
def id? (d : Disk) (path : String) : Option String :=
  (d.locate? path).map fun place => String.ofList (joinParts place)

/-- The name that a file of a project has among the files of a disk. -/
def idIn? (d : Disk) (folder id : String) : Option String :=
  (d.root? folder).map fun place => String.ofList (front place ++ id.toList)

theorem file?_eq (d : Disk) (path : String) : d.file? path = (d.id? path).bind d.files.get? := by
  rw [file?, id?, Option.bind_map]
  rfl

/-- What the project beneath a folder has of the files. -/
theorem get?_tree (d : Disk) (folder id : String) : (d.tree folder).files.get? id =
    ((d.idIn? folder id).bind d.files.get?).map (projectText folder id.toList) := by
  rw [tree, idIn?]
  cases d.root? folder with
  | none => rfl
  | some place => exact d.files.get?_behind (front place) (projectText folder) id

section OtherFiles

variable {path other folder id : String} {content : Content}
  (h : d.write? path content = some d')

include h

theorem id?_write? (other : String) : d'.id? other = d.id? other := by
  rw [id?, id?, locate?_write? h]

theorem idIn?_write? (folder id : String) : d'.idIn? folder id = d.idIn? folder id := by
  rw [idIn?, idIn?, root?, root?, locate?_write? h]

/-- No other file changes. -/
theorem files_write?_of_ne (hid : d.id? path ≠ some id) :
    d'.files.get? id = d.files.get? id := by
  obtain ⟨place, hplace, -, rfl⟩ := write?_eq_some h
  rw [id?, hplace] at hid
  rw [Dictionary.get?_insert, if_neg fun heq => hid (congrArg some heq.symm)]

theorem file?_write?_of_ne (hother : d.id? other ≠ d.id? path) :
    d'.file? other = d.file? other := by
  rw [file?_eq, file?_eq, id?_write? h]
  cases hid : d.id? other with
  | none => rfl
  | some id => exact files_write?_of_ne h fun heq => hother (hid.trans heq.symm)

theorem get?_tree_write?_of_ne (hid : d.idIn? folder id ≠ d.id? path) :
    (d'.tree folder).files.get? id = (d.tree folder).files.get? id := by
  rw [get?_tree, get?_tree, idIn?_write? h]
  cases hfile : d.idIn? folder id with
  | none => rfl
  | some file =>
    rw [Option.bind_some, Option.bind_some,
      files_write?_of_ne h fun heq => hid (hfile.trans heq.symm)]

theorem text_write?_of_ne (hother : d.id? other ≠ d.id? path) : d'.text other = d.text other := by
  have hfolder : d'.isFolder other = d.isFolder other := by
    rw [isFolder, isFolder, locate?_write? h, funext (isFolderAt_write? h)]
  rw [Disk.text, Disk.text, file?_write?_of_ne h hother, hfolder]

end OtherFiles

end Disk

end PixelScene
