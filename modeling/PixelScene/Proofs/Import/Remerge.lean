import PixelScene.Proofs.Import.Coverage

/-!
# Merging again at every line

A resolver may do without a memory of the files that it has entered, and merge a file again for each
line that leads to it. On a cycle it does not end. Without cycles it finds the same definitions,
since all that a line brings for the second time was merged before.

* `remerge` is this resolver, with a bound on how deep imports may nest.
* `Walk.Settled`: a walk has entered all imports of a file unless it is still below that file.
* `Follows.entered_eq_eraseDups`: what a walk enters are the first occurrences of what is merged
  without a memory.
* `resolve_eq_remerge`: the resolvers agree on everything but the events.

A resolver without memory merges a file once for every way that leads to it, which is exponential
and does not end on a cycle, so it has to be given a bound. The engine visits each file once. For a
graph without cycles the theorem says that this is an optimization of the plain meaning of imports
and not a change of it, but for events: a file that is merged twice declares its events twice.
-/

namespace PixelScene

/-! ## Resolving without a memory -/

/-- One import line of `file`, given how the contents of another file are resolved. -/
def remergeLine (tree : FileTree)
    (inner : (contents : Except String String) → (file : String) → Option (Script × List String))
    (file : String) (r : Script × List String) (path : String) : Option (Script × List String) :=
  match tree.scriptFile? file path with
  | none => some r
  | some target => (inner (tree.text target) target).map fun imported =>
      (r.1.absorb imported.1, r.2 ++ imported.2)

/-- The script of a file with everything that it imports and the files that were merged, or nothing
if imports nest `depth` deep. Each import line merges its file, whether or not it was merged before.
-/
def remerge (tree : FileTree) : (depth : Nat) → (contents : Except String String) →
    (file : String) → Option (Script × List String)
  | 0, _, _ => none
  | depth + 1, contents, file =>
    let own := (Script.ofContents? contents).getD Script.empty
    own.imports.foldlM (remergeLine tree (remerge tree depth) file) (own, [file])

/-- An import line means no script file. -/
def Entry.MeansNone (e : Entry) (file path : String) : Prop := e.tree.scriptFile? file path = none

variable {e : Entry} {file : String} {paths new : List String} {s s' : Script} {w w' : Walk}

theorem Merges.unique {merged merged' : List String} {t : Script}
    (h : Merges e e.MeansNone file paths s merged s')
    (h' : Merges e e.MeansNone file paths s merged' t) : merged = merged' ∧ s' = t := by
  induction h generalizing merged' t with
  | done =>
    cases h'
    exact ⟨rfl, rfl⟩
  | skip skips _ ih =>
    cases h' with
    | skip _ rest' => exact ih rest'
    | merge leads _ _ => exact absurd (skips.symm.trans leads) nofun
  | merge leads _ _ ihinner ihrest =>
    cases h' with
    | skip skips _ => exact absurd (skips.symm.trans leads) nofun
    | merge leads' inner' rest' =>
      obtain rfl := Option.some.inj (leads.symm.trans leads')
      obtain ⟨rfl, rfl⟩ := ihinner inner'
      obtain ⟨rfl, rfl⟩ := ihrest rest'
      exact ⟨rfl, rfl⟩

theorem foldlM_remergeLine {depth : Nat}
    (hinner : ∀ target, e.Imports file target → ∃ imported below,
      remerge e.tree depth (e.tree.text target) target = some (imported, target :: below) ∧
        Merges e e.MeansNone target (e.script target).imports (e.script target) below imported)
    (hpaths : ∀ path ∈ paths, path ∈ (e.script file).imports) (s : Script) (files : List String) :
    ∃ s' merged, paths.foldlM (remergeLine e.tree (remerge e.tree depth) file) (s, files) =
      some (s', files ++ merged) ∧ Merges e e.MeansNone file paths s merged s' := by
  induction paths generalizing s files with
  | nil => exact ⟨s, [], by rw [List.append_nil]; rfl, .done⟩
  | cons path more ih =>
    have hmore : ∀ p ∈ more, p ∈ (e.script file).imports :=
      fun p hp => hpaths p (List.mem_cons_of_mem _ hp)
    rw [List.foldlM_cons]
    cases leads : e.tree.scriptFile? file path with
    | none =>
      obtain ⟨s', merged, hfold, hmerges⟩ := ih hmore s files
      refine ⟨s', merged, ?_, .skip leads hmerges⟩
      rw [remergeLine, leads]
      exact hfold
    | some target =>
      have hedge : e.Imports file target :=
        Entry.imports_iff.mpr ⟨path, hpaths path List.mem_cons_self, leads⟩
      obtain ⟨imported, below, hremerge, hbelow⟩ := hinner target hedge
      obtain ⟨s', after, hfold, hmerges⟩ := ih hmore (s.absorb imported) (files ++ target :: below)
      refine ⟨s', target :: below ++ after, ?_, .merge leads hbelow hmerges⟩
      rw [remergeLine, leads]
      simp only [hremerge]
      rw [← List.append_assoc]
      exact hfold

/-- Without cycles, imports nest no deeper than the project has files. -/
theorem remerge_merges (hacyclic : e.Acyclic) (depth : Nat) (ancestors : List String)
    (hreach : e.Reachable file)
    (hancestors : ∀ x ∈ ancestors, Relation.ReflTransGen e.Imports x file)
    (hdepth : e.tree.unentered ancestors < depth) :
    ∃ s merged, remerge e.tree depth (e.textOf file) file = some (s, file :: merged) ∧
      Merges e e.MeansNone file (e.script file).imports (e.script file) merged s := by
  induction depth generalizing file ancestors with
  | zero => exact absurd hdepth (Nat.not_lt_zero _)
  | succ depth ih =>
    -- each level adds a file to the ancestors, so there are only so many
    refine foldlM_remergeLine (fun target hedge => ?_) (fun p hp => hp) (e.script file) [file]
    have htarget : e.Reachable target := hreach.tail hedge
    have hne : target ≠ e.id := by
      rintro rfl
      exact hacyclic e.id .refl (.tail' hreach hedge)
    have hnew : target ∉ ancestors := fun hmem =>
      hacyclic target htarget (.tail' (hancestors target hmem) hedge)
    have hkey : target ∈ e.tree.files.keys := by
      obtain ⟨_, -, _, -, hfind⟩ := hedge
      exact FileTree.mem_keys_of_scriptFile? hfind
    have hlt := FileTree.unentered_append_lt hkey hnew
    have htext : e.textOf target = e.tree.text target := if_neg hne
    rw [← htext]
    refine ih (ancestors ++ [target]) htarget (fun x hx => ?_) (by omega)
    rcases List.mem_append.mp hx with hx | hx
    · exact (hancestors x hx).tail hedge
    · rw [List.mem_singleton.mp hx]

/-! ## What a memory passes over -/

/-- The walk has entered all imports of the files that it entered, but for those above `file`. -/
def Walk.Settled (w : Walk) (e : Entry) (file : String) : Prop :=
  ∀ x ∈ w.entered, Relation.ReflTransGen e.Imports x file ∨
    ∀ target, e.Imports x target → target ∈ w.entered

theorem Walk.Settled.enter (hw : w.Settled e file) {f : FileRef} (hedge : e.Imports file f.id) :
    (enterFile e.tree w f).2.Settled e f.id := by
  intro x hx
  rw [entered_enterFile] at hx ⊢
  rcases List.mem_append.mp hx with hx | hx
  · rcases hw x hx with habove | hclosed
    · exact .inl (habove.tail hedge)
    · exact .inr fun target htarget => List.mem_append_left _ (hclosed target htarget)
  · rw [List.mem_singleton.mp hx]
    exact .inl .refl

theorem Follows.settled (h : Follows e file paths s w new s' w') (hw : w.Settled e file) :
    w'.Settled e file := by
  intro x hx
  rw [h.entered_eq] at hx
  rcases List.mem_append.mp hx with hx | hx
  · rcases hw x hx with habove | hclosed
    · exact .inl habove
    · exact .inr fun target htarget => h.entered_subset target (hclosed target htarget)
  · exact .inr (h.imports_closed x hx)

/-- Without cycles, everything below an import that was entered before was entered, too. -/
theorem Walk.Settled.mem_entered (hw : w.Settled e file) (hacyclic : e.Acyclic)
    (hreach : e.Reachable file) {target : String} (hedge : e.Imports file target)
    (hmem : target ∈ w.entered) {x : String} (hx : Relation.ReflTransGen e.Imports target x) :
    x ∈ w.entered := by
  induction hx with
  | refl => exact hmem
  | @tail y z hy hz ih =>
    rcases hw y ih with habove | hclosed
    -- were `y` above `file`, the line to `target` would close a cycle
    · exact absurd (Relation.TransGen.head' hedge (hy.trans habove)) (hacyclic file hreach)
    · exact hclosed z hz

/-- **A walk enters the first occurrences of what is merged without a memory.** -/
theorem Follows.entered_eq_eraseDups (h : Follows e file paths s w new s' w')
    (hacyclic : e.Acyclic) (hreach : e.Reachable file)
    (hpaths : ∀ path ∈ paths, path ∈ (e.script file).imports) (hw : w.Settled e file)
    (hnodup : w.entered.Nodup) {t t' : Script} {merged : List String}
    (hmerges : Merges e e.MeansNone file paths t merged t') :
    w'.entered = (w.entered ++ merged).eraseDups := by
  induction h generalizing t t' merged with
  | @done _ _ w =>
    cases hmerges
    rw [List.append_nil, eraseDups_of_nodup hnodup]
  | fault target _ ih =>
    cases hmerges with
    | skip _ rest =>
      exact ih hreach (fun p hp => hpaths p (List.mem_cons_of_mem _ hp)) hw hnodup rest
    | merge leads _ _ => exact absurd ((scriptFile?_of_fault target).symm.trans leads) nofun
  | @known file path more _ _ _ w w' target _ ih =>
    obtain ⟨known, hknown, hmem⟩ := scriptFile?_of_known target
    cases hmerges with
    | skip skips _ => exact absurd (skips.symm.trans hknown) nofun
    | @merge _ _ _ _ below after _ _ _ leads inner rest =>
      obtain rfl := Option.some.inj (hknown.symm.trans leads)
      -- the walk skips `known`, so all that is merged for it must be old
      have hedge : e.Imports file known :=
        Entry.imports_iff.mpr ⟨path, hpaths path List.mem_cons_self, hknown⟩
      have hbelow : ∀ x ∈ known :: below, x ∈ w.entered := by
        intro x hx
        rcases List.mem_cons.mp hx with rfl | hx
        · exact hmem
        · have hpath := inner.transGen_of_mem (fun _ hp => hp) x hx
          exact hw.mem_entered hacyclic hreach hedge hmem hpath.to_reflTransGen
      calc w'.entered
          = (w.entered ++ after).eraseDups :=
            ih hreach (fun p hp => hpaths p (List.mem_cons_of_mem _ hp)) hw hnodup rest
        _ = ((w.entered ++ (known :: below)).eraseDups ++ after).eraseDups := by
            rw [eraseDups_append_of_subset hbelow, eraseDups_eraseDups_append]
        _ = (w.entered ++ (known :: below ++ after)).eraseDups := by
            rw [eraseDups_eraseDups_append, List.append_assoc]
  | @fresh file path more _ _ s _ _ w v w' f isFile isNew target hid inner _ ihinner ihrest =>
    have hfound := scriptFile?_of_fresh target
    cases hmerges with
    | skip skips _ => exact absurd (skips.symm.trans hfound) nofun
    | @merge _ _ _ _ below after _ _ _ leads innerMerges restMerges =>
      obtain rfl := Option.some.inj (hfound.symm.trans leads)
      have hedge : e.Imports file f.id :=
        Entry.imports_iff.mpr ⟨path, hpaths path List.mem_cons_self, hfound⟩
      have hnodup' := nodup_entered_enterFile e.tree hnodup isNew
      have hv : v.entered = (w.entered ++ (f.id :: below)).eraseDups := by
        rw [ihinner (hreach.tail hedge) (fun _ hp => hp) (hw.enter hedge) hnodup' innerMerges,
          entered_enterFile, List.append_assoc, List.singleton_append]
      -- what the line brought is settled, too, seen from the file with the line
      have hline : Follows e file [path] s w _ _ v := .fresh target hid inner .done
      calc w'.entered
          = (v.entered ++ after).eraseDups :=
            ihrest hreach (fun p hp => hpaths p (List.mem_cons_of_mem _ hp)) (hline.settled hw)
              (inner.nodup_entered hnodup') restMerges
        _ = (w.entered ++ (f.id :: below ++ after)).eraseDups := by
            rw [hv, eraseDups_eraseDups_append, List.append_assoc]

/-! ## Agreement -/

/-- **The resolvers agree on everything but the events.** Where no file imports itself, resolving
without a memory ends. It finds the definitions, in the same order, that a resolution finds; the
events of a file it repeats for each way that leads to the file. -/
theorem resolve_eq_remerge (e : Entry) (hacyclic : e.Acyclic) :
    let r := resolve e.tree e.text e.id
    ∃ s files, (∀ depth > e.tree.files.keys.length,
        remerge e.tree depth (.ok e.text) e.id = some (s, files)) ∧
      s = { r.script with events := s.events } ∧ r.entered = files.eraseDups ∧
      s.events = files.flatMap (fun file => (e.script file).events) ∧
      r.script.events = files.eraseDups.flatMap (fun file => (e.script file).events) := by
  have hself : e.textOf e.id = .ok e.text := if_pos rfl
  have hremerge : ∀ depth > e.tree.files.keys.length, ∃ s merged,
      remerge e.tree depth (.ok e.text) e.id = some (s, e.id :: merged) ∧
        Merges e e.MeansNone e.id (e.script e.id).imports (e.script e.id) merged s := by
    intro depth hdepth
    rw [← hself]
    refine remerge_merges hacyclic depth [] .refl (fun x hx => absurd hx List.not_mem_nil) ?_
    exact Nat.lt_of_le_of_lt (List.length_filter_le _ _) hdepth
  obtain ⟨s, merged, -, hmerges⟩ := hremerge _ (Nat.lt_succ_self _)
  obtain ⟨new, hentered, h⟩ := e.follows_resolution
  have hparts : s.MergedFrom ((e.id :: merged).map e.script) :=
    hmerges.mergedFrom (.single (e.script e.id))
  have hresolved : e.resolution.script.MergedFrom ((e.id :: new).map e.script) :=
    h.merges.mergedFrom (.single (e.script e.id))
  have hfiles : e.resolution.entered = (e.id :: merged).eraseDups := by
    have hsettled : e.start.Settled e e.id := by
      intro x hx
      rw [e.entered_start] at hx
      rw [List.mem_singleton.mp hx]
      exact .inl .refl
    rw [h.entered_eq_eraseDups hacyclic .refl (fun _ hp => hp) hsettled (by simp) hmerges,
      e.entered_start, List.singleton_append]
  rw [← hentered, hfiles] at hresolved
  refine ⟨s, e.id :: merged, fun depth hdepth => ?_, ?_, hfiles, ?_, ?_⟩
  · obtain ⟨s', merged', hsome, hmerges'⟩ := hremerge depth hdepth
    obtain ⟨rfl, rfl⟩ := hmerges.unique hmerges'
    exact hsome
  · have hagain := hresolved.of_eraseDups
    rw [← hparts.events] at hagain
    have hown : Script.SameOwn s e.resolution.script := hmerges.sameOwn.trans h.merges.sameOwn.symm
    exact hparts.eq hagain
      ⟨hown.source, hown.imports, hown.backgrounds, hown.layers, hown.placements⟩
  · rw [hparts.events, List.flatMap_map]
  · exact hresolved.events.trans (List.flatMap_map _ _ _)

/-- A project in which two files import a third. -/
def diamond : Entry where
  tree := FileTree.ofTexts [("left.msc", "Import: base"), ("right.msc", "Import: base"),
    ("base.msc", "Events:\n  - OnFrame: State.$ticks += 1")]
  id := "main.msc"
  text := "Import: left\nImport: right"

theorem acyclic_diamond : diamond.Acyclic := by
  let rank (file : String) : Nat :=
    if file = "main.msc" then 2 else if file = "base.msc" then 0 else 1
  exact Entry.acyclic_of_rank rank (by decide +kernel)

/-- Without a memory the shared import is merged twice. -/
theorem resolve_eq_remerge_diamond : diamond.Acyclic ∧
    ∃ s, remerge diamond.tree 4 (.ok diamond.text) "main.msc" =
        some (s, ["main.msc", "left.msc", "base.msc", "right.msc", "base.msc"]) ∧
      s = { (resolve diamond.tree diamond.text "main.msc").script with events := s.events } ∧
      (resolve diamond.tree diamond.text "main.msc").entered =
        ["main.msc", "left.msc", "base.msc", "right.msc"] := by
  obtain ⟨s, files, hremerge, hs, hentered, -, -⟩ := resolve_eq_remerge diamond acyclic_diamond
  have hdepth : 4 > diamond.tree.files.keys.length := by decide +kernel
  have hsome := hremerge 4 hdepth
  have hmerged : (remerge diamond.tree 4 (.ok diamond.text) diamond.id).map Prod.snd =
      some ["main.msc", "left.msc", "base.msc", "right.msc", "base.msc"] := by decide +kernel
  rw [hsome] at hmerged
  obtain rfl := Option.some.inj hmerged
  exact ⟨acyclic_diamond, s, hsome, hs, hentered⟩

end PixelScene
