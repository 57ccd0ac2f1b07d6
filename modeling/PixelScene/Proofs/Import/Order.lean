import PixelScene.Proofs.Import.Walk

/-!
# The order of the files

The resolver folds every file into its importer before the importer is folded into its own. The
result is the same as laying all files over one another in the order in which they are entered.

* `Entry.files` is this order: the entry, then what import lines lead to, depth first. It is found
  with a list of lines still to be followed, without any script being merged.
* `Follows.follow_eq`: a walk enters the files in this order.
* `resolve_flattens`: the resolved script is merged from `Entry.files`, each of them once, and keeps
  what is the entry's own.

`Entry.files` is defined on the graph and knows nothing of merging, so the theorem compares the
engine with a plain list of files. The order matters: of two definitions of one name the first
counts, names keep the order in which they are declared, and events come one file after the other. A
file that cannot be parsed is entered, and adds nothing.
-/

namespace PixelScene

namespace Entry

variable (e : Entry)

/-- The files entered after the pending import lines, each given with its file, are followed. The
lines of a file that is entered come before those that are pending. -/
def follow (pending : List (String × String)) (entered : List String) : List String :=
  match pending with
  | [] => entered
  | (file, path) :: more =>
    match h : e.tree.scriptFile? file path with
    | none => follow more entered
    | some target =>
      if hnew : target ∈ entered then follow more entered
      else
        have : e.tree.unentered (entered ++ [target]) < e.tree.unentered entered :=
          FileTree.unentered_append_lt (FileTree.mem_keys_of_scriptFile? h) hnew
        follow ((e.script target).imports.map (target, ·) ++ more) (entered ++ [target])
termination_by (e.tree.unentered entered, pending.length)
decreasing_by
  · exact Prod.Lex.right _ (Nat.lt_succ_self _)
  · exact Prod.Lex.right _ (Nat.lt_succ_self _)
  · exact Prod.Lex.left _ _ this

/-- The entry and the files that it imports, in the order in which they are entered. -/
def files : List String := e.follow ((e.script e.id).imports.map (e.id, ·)) [e.id]

variable {e} {file path : String} {more : List (String × String)} {entered : List String}

theorem follow_nil : e.follow [] entered = entered := by rw [follow]

theorem follow_none (h : e.tree.scriptFile? file path = none) :
    e.follow ((file, path) :: more) entered = e.follow more entered := by
  rw [follow]
  split
  · rfl
  · rename_i hsome
    rw [h] at hsome
    exact absurd hsome nofun

theorem follow_known {target : String} (h : e.tree.scriptFile? file path = some target)
    (hknown : target ∈ entered) :
    e.follow ((file, path) :: more) entered = e.follow more entered := by
  rw [follow]
  split
  · rfl
  · rename_i hsome
    rw [h] at hsome
    exact dif_pos (Option.some.inj hsome ▸ hknown)

theorem follow_new {target : String} (h : e.tree.scriptFile? file path = some target)
    (hnew : target ∉ entered) : e.follow ((file, path) :: more) entered =
      e.follow ((e.script target).imports.map (target, ·) ++ more) (entered ++ [target]) := by
  rw [follow]
  split
  · rename_i hnone
    rw [h] at hnone
    exact absurd hnone nofun
  · rename_i hsome
    obtain rfl := Option.some.inj (h.symm.trans hsome)
    exact dif_neg hnew

end Entry

variable {e : Entry} {file : String} {paths new : List String} {s s' : Script} {w w' : Walk}

/-- A walk enters the files in the order of `Entry.follow`. -/
theorem Follows.follow_eq (h : Follows e file paths s w new s' w') (more : List (String × String)) :
    e.follow (paths.map (file, ·) ++ more) w.entered = e.follow more w'.entered := by
  induction h generalizing more with
  | done => rfl
  | fault target _ ih => exact (Entry.follow_none (scriptFile?_of_fault target)).trans (ih more)
  | known target _ ih =>
    obtain ⟨known, hknown, hmem⟩ := scriptFile?_of_known target
    exact (Entry.follow_known hknown hmem).trans (ih more)
  | @fresh file path rest _ _ s imported s' w v w' f isFile isNew target _ _ _ ihinner ihrest =>
    calc e.follow ((file, path) :: (rest.map (file, ·) ++ more)) w.entered
        = e.follow ((e.script f.id).imports.map (f.id, ·) ++ (rest.map (file, ·) ++ more))
            (w.entered ++ [f.id]) := Entry.follow_new (scriptFile?_of_fresh target) isNew
      _ = e.follow (rest.map (file, ·) ++ more) v.entered := by rw [← ihinner, entered_enterFile]
      _ = e.follow more w'.entered := ihrest more

/-- **Nested imports come to the same as a flat list of files.** The resolved script is what the
files define together, each of them once and in the order in which they are entered; its pictures,
imports and placements are those of the entry. -/
theorem resolve_flattens (e : Entry) :
    let r := resolve e.tree e.text e.id
    r.entered = e.files ∧ e.files.Nodup ∧ r.script.MergedFrom (e.files.map e.script) ∧
      Script.SameOwn r.script (e.script e.id) := by
  obtain ⟨new, hentered, h⟩ := e.follows_resolution
  have hfiles : e.files = e.id :: new := by
    have hfollow := h.follow_eq []
    rwa [List.append_nil, Entry.follow_nil, e.entered_start, hentered] at hfollow
  refine ⟨hentered.trans hfiles.symm, ?_, ?_, h.merges.sameOwn⟩
  · rw [hfiles, ← hentered]
    exact h.nodup_entered (by simp)
  · rw [hfiles]
    exact h.merges.mergedFrom (.single (e.script e.id))

end PixelScene
