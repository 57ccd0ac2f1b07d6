import PixelScene.Proofs.Import.Path
import PixelScene.Proofs.Import.Reading

/-!
# A resolution stays inside the project

Each file that an import leads to is the one that the next import paths start from, so a single path
with a `..` left in it could lead the resolver out of the project, however long the chain.

* `FileTree.lookups`, `Entry.lookups`: the paths that the project is asked for, by one import line
  and in a whole resolution.
* `Follows.ordinary`: a walk from a file without `..` enters files with ordinary paths only.
* `Entry.resolve_congr`: the project is asked for nothing else, since a project that answers the
  same there gives the same resolution.
* `resolve_confined`: what an import path means, and that no lookup and no read leaves the project.

The engine asks a project for three things: whether there is a file at a path, for its text, and,
once in a whole resolution, for the name of the entry. An import line leads to lookups of normalized
paths only, at most two of them. The entry's path is never normalized, so it is looked up as it was
given, and this is the only lookup that may have another path (`resolve_looks_up_entry`). That there
are no lookups besides those that are listed cannot be read off a result, so it is said by
congruence.
-/

namespace PixelScene

/-! ## Lookups -/

namespace FileTree

variable {tree tree' : FileTree} {file path : String}

/-- The paths that are looked up one after the other, until one is in the project. -/
def asked (tree : FileTree) : List String → List String
  | [] => []
  | id :: more => if tree.contains id then [id] else id :: tree.asked more

/-- The paths that an import line of `file` looks up. -/
def lookups (tree : FileTree) (file path : String) : List String :=
  match joinPath? file.toList path.toList with
  | none => []
  | some joined => tree.asked ((candidates joined).map String.ofList)

theorem asked_subset (tree : FileTree) (ids : List String) : tree.asked ids ⊆ ids := by
  induction ids with
  | nil => exact List.Subset.refl _
  | cons id more ih =>
    unfold asked
    split
    · exact List.cons_subset_cons id (List.nil_subset more)
    · exact List.cons_subset_cons id ih

theorem mem_asked_of_find? {ids : List String} {id : String}
    (h : ids.find? tree.contains = some id) : id ∈ tree.asked ids := by
  induction ids with
  | nil => exact absurd h nofun
  | cons first more ih =>
    unfold asked
    rw [List.find?_cons] at h
    cases hfirst : tree.contains first with
    | true =>
      rw [hfirst] at h
      rw [if_pos rfl, Option.some.inj h]
      exact List.mem_cons_self
    | false =>
      rw [hfirst] at h
      exact List.mem_cons_of_mem first (ih h)

theorem find?_congr_of_asked {ids : List String}
    (h : ∀ id ∈ tree.asked ids, tree'.contains id = tree.contains id) :
    ids.find? tree'.contains = ids.find? tree.contains := by
  induction ids with
  | nil => rfl
  | cons first more ih =>
    unfold asked at h
    rw [List.find?_cons, List.find?_cons]
    cases hfirst : tree.contains first with
    | true =>
      rw [hfirst, if_pos rfl, List.forall_mem_singleton, hfirst] at h
      rw [h]
    | false =>
      rw [hfirst, if_neg Bool.false_ne_true, List.forall_mem_cons, hfirst] at h
      rw [h.1, ih h.2]

/-- The file that an import path means was looked up. -/
theorem mem_lookups_of_find? {f : FileRef} (h : tree.find? file path = some f) :
    f.id ∈ tree.lookups file path := by
  simp only [find?, Option.bind_eq_bind, Option.bind_eq_some_iff, Option.pure_def,
    Option.some.injEq] at h
  obtain ⟨joined, hjoined, id, hid, rfl⟩ := h
  rw [lookups, hjoined]
  exact mem_asked_of_find? hid

/-- What an import path means depends on its lookups alone. -/
theorem find?_congr_of_lookups
    (h : ∀ id ∈ tree.lookups file path, tree'.contains id = tree.contains id) :
    tree'.find? file path = tree.find? file path := by
  unfold find?
  unfold lookups at h
  cases hjoined : joinPath? file.toList path.toList with
  | none => rfl
  | some joined =>
    rw [hjoined] at h
    simp only [Option.bind_eq_bind, Option.bind_some, find?_congr_of_asked h]

/-- **An import line looks up ordinary paths only.** -/
theorem ordinary_of_mem_lookups (hfile : parentPart ∉ components file.toList) :
    ∀ id ∈ tree.lookups file path, Ordinary id.toList := by
  intro id hid
  unfold lookups at hid
  split at hid
  · exact absurd hid List.not_mem_nil
  · rename_i joined hjoined
    obtain ⟨candidate, hcandidate, rfl⟩ := List.mem_map.mp (asked_subset tree _ hid)
    rw [String.toList_ofList]
    exact ordinary_candidates (ordinary_joinPath? hfile hjoined) candidate hcandidate

end FileTree

/-! ## Chains of imports -/

section Chain

variable {e : Entry} {file path : String} {paths new : List String} {s s' : Script} {w w' : Walk}

/-- A file that an import line enters was looked up for it. -/
theorem mem_lookups_of_fresh {tree : FileTree} {f : FileRef} {isFile : f.id ∈ tree.files.keys}
    {isNew : f.id ∉ w.entered} (h : importTarget tree w file path = .fresh f isFile isNew) :
    f.id ∈ tree.lookups file path := by
  obtain ⟨g, hfind, -, hid⟩ := FileTree.scriptFile?_eq_some_iff.mp (scriptFile?_of_fresh h)
  rw [← hid]
  exact FileTree.mem_lookups_of_find? hfind

/-- **A walk from a file without `..` enters files with ordinary paths only.** -/
theorem Follows.ordinary (h : Follows e file paths s w new s' w')
    (hfile : parentPart ∉ components file.toList) : ∀ x ∈ new, Ordinary x.toList := by
  induction h with
  | done => exact List.forall_mem_nil _
  | fault _ _ ih => exact ih hfile
  | known _ _ ih => exact ih hfile
  | fresh target _ _ _ ihinner ihrest =>
    have hf := FileTree.ordinary_of_mem_lookups hfile _ (mem_lookups_of_fresh target)
    exact List.forall_mem_append.mpr
      ⟨List.forall_mem_cons.mpr ⟨hf, ihinner hf.parentPart_not_mem⟩, ihrest hfile⟩

/-- A walk enters only what it looked up for an import line. -/
theorem Follows.mem_lookups (h : Follows e file paths s w new s' w')
    (hpaths : ∀ path ∈ paths, path ∈ (e.script file).imports) :
    ∀ x ∈ new, ∃ importer ∈ file :: new, ∃ path ∈ (e.script importer).imports,
      x ∈ e.tree.lookups importer path := by
  induction h with
  | done => exact List.forall_mem_nil _
  | fault _ _ ih => exact ih (List.forall_mem_cons.mp hpaths).2
  | known _ _ ih => exact ih (List.forall_mem_cons.mp hpaths).2
  | @fresh file path more below after _ _ _ _ _ _ f _ _ target _ _ _ ihinner ihrest =>
    obtain ⟨hpath, hmore⟩ := List.forall_mem_cons.mp hpaths
    intro x hx
    rcases List.mem_append.mp hx with hx | hx
    · rcases List.mem_cons.mp hx with rfl | hx
      · exact ⟨file, List.mem_cons_self, path, hpath, mem_lookups_of_fresh target⟩
      · obtain ⟨importer, himporter, hfound⟩ := ihinner (fun _ h => h) x hx
        exact ⟨importer, List.mem_cons_of_mem _ (List.mem_append_left after himporter), hfound⟩
    · obtain ⟨importer, himporter, hfound⟩ := ihrest hmore x hx
      refine ⟨importer, ?_, hfound⟩
      rcases List.mem_cons.mp himporter with rfl | himporter
      · exact List.mem_cons_self
      · exact List.mem_cons_of_mem _ (List.mem_append_right _ himporter)

namespace Entry

/-- The paths that a resolution looks up for the import lines of the files that it enters. -/
def importLookups (e : Entry) : List String :=
  e.resolution.entered.flatMap fun file => (e.script file).imports.flatMap (e.tree.lookups file)

/-- The paths that a resolution looks up. That of the entry comes first, as it was given, for the
name under which its own faults are reported. -/
def lookups (e : Entry) : List String := e.id :: e.importLookups

theorem mem_importLookups {id : String} (hfile : file ∈ e.resolution.entered)
    (hpath : path ∈ (e.script file).imports) (hid : id ∈ e.tree.lookups file path) :
    id ∈ e.importLookups :=
  List.mem_flatMap.mpr ⟨file, hfile, List.mem_flatMap.mpr ⟨path, hpath, hid⟩⟩

/-- The files that a resolution enters have no `..` in their paths if the entry has none. -/
theorem parentPart_not_mem_of_entered (hid : parentPart ∉ components e.id.toList) :
    ∀ file ∈ e.resolution.entered, parentPart ∉ components file.toList := by
  obtain ⟨new, hentered, h⟩ := e.follows_resolution
  rw [hentered]
  exact List.forall_mem_cons.mpr
    ⟨hid, fun file hfile => (h.ordinary hid file hfile).parentPart_not_mem⟩

theorem ordinary_of_mem_importLookups (hid : parentPart ∉ components e.id.toList) :
    ∀ id ∈ e.importLookups, Ordinary id.toList := by
  intro id hmem
  obtain ⟨file, hfile, hmem⟩ := List.mem_flatMap.mp hmem
  obtain ⟨path, -, hmem⟩ := List.mem_flatMap.mp hmem
  exact FileTree.ordinary_of_mem_lookups (parentPart_not_mem_of_entered hid file hfile) id hmem

/-- What a resolution reads are the files that its walk enters behind the entry. -/
theorem follows_reads (e : Entry) : Follows e e.id (e.script e.id).imports (e.script e.id) e.start
    e.resolution.reads e.resolution.script e.resolution.toWalk := by
  obtain ⟨new, hentered, h⟩ := e.follows_resolution
  have hreads := (h.readsEntered e.readsEntered_start).entered
  obtain rfl : new = e.resolution.reads := (List.cons.inj (hentered.symm.trans hreads)).2
  exact h

/-- What is read was looked up. -/
theorem reads_subset_importLookups (e : Entry) : e.resolution.reads ⊆ e.importLookups := by
  intro x hx
  have hentered := (e.follows_reads.readsEntered e.readsEntered_start).entered
  obtain ⟨importer, himporter, path, hpath, hfound⟩ :=
    e.follows_reads.mem_lookups (fun _ h => h) x hx
  exact mem_importLookups (hentered ▸ himporter) hpath hfound

theorem ordinary_of_mem_reads (hid : parentPart ∉ components e.id.toList) :
    ∀ id ∈ e.resolution.reads, Ordinary id.toList :=
  e.follows_reads.ordinary hid

end Entry

end Chain

/-! ## Nothing else is looked up -/

section Congruence

variable {e : Entry} {tree tree' : FileTree} {file path : String} {paths new : List String}
  {s s' : Script} {w w' : Walk}

theorem FileTree.contains_eq_isSome (tree : FileTree) (id : String) :
    tree.contains id = (tree.files.get? id).isSome := by
  rw [Bool.eq_iff_iff, contains, List.contains_iff_mem, Dictionary.get?_isSome_iff_mem_keys]

/-- One more file makes no difference to those who do not ask for it. -/
theorem FileTree.insert_elsewhere {id other : String} (text : String)
    (h : other ≠ String.ofList (id.toList.dropWhile (· == '/'))) :
    (tree.insert id text).contains other = tree.contains other ∧
      (tree.insert id text).text other = tree.text other := by
  have hget : (tree.insert id text).files.get? other = tree.files.get? other := by
    rw [insert, Dictionary.get?_insert, if_neg h]
  rw [contains_eq_isSome, contains_eq_isSome, FileTree.text, FileTree.text, hget]
  exact ⟨rfl, rfl⟩

/-- What an import line leads to, without what it says of the project. -/
def ImportTarget.outline : ImportTarget tree w → Except ImportFault (Option FileRef)
  | .fault f => .error f
  | .known => .ok none
  | .fresh f _ _ => .ok (some f)

namespace ImportTarget

variable {target : ImportTarget tree w}

theorem eq_fault_of_outline {fault : ImportFault} (h : target.outline = .error fault) :
    target = .fault fault := by
  cases target with
  | fault _ => rw [Except.error.inj h]
  | known => exact absurd h nofun
  | fresh _ _ _ => exact absurd h nofun

theorem eq_known_of_outline (h : target.outline = .ok none) : target = .known := by
  cases target with
  | fault _ => exact absurd h nofun
  | known => rfl
  | fresh _ _ _ => exact absurd h nofun

theorem eq_fresh_of_outline {f : FileRef} (h : target.outline = .ok (some f)) :
    ∃ isFile isNew, target = .fresh f isFile isNew := by
  cases target with
  | fault _ => exact absurd h nofun
  | known => exact absurd h nofun
  | fresh g isFile isNew =>
    obtain rfl : g = f := Option.some.inj (Except.ok.inj h)
    exact ⟨isFile, isNew, rfl⟩

end ImportTarget

theorem importTarget_of_find?_eq_none (h : tree.find? file path = none) :
    importTarget tree w file path = .fault (.notFound path) := by
  unfold importTarget
  split
  · rfl
  · rename_i f hfind
    exact absurd (hfind.symm.trans h) (Option.some_ne_none f)

theorem importTarget_of_find?_eq_some {f : FileRef} (h : tree.find? file path = some f) :
    importTarget tree w file path =
      if f.kind ≠ .script then .fault (.notScript path)
      else if isNew : f.id ∈ w.entered then .known
      else .fresh f (FileTree.contains_of_find? h) isNew := by
  unfold importTarget
  split
  · rename_i hfind
    exact absurd (h.symm.trans hfind) (Option.some_ne_none f)
  · rename_i g hfind
    obtain rfl := Option.some.inj (h.symm.trans hfind)
    rfl

/-- Where an import line leads to depends on its lookups and on what was entered. -/
theorem outline_importTarget_congr (w : Walk)
    (h : ∀ id ∈ tree.lookups file path, tree'.contains id = tree.contains id) :
    (importTarget tree' w file path).outline = (importTarget tree w file path).outline := by
  have hfind := FileTree.find?_congr_of_lookups h
  cases hfound : tree.find? file path with
  | none =>
    rw [importTarget_of_find?_eq_none hfound, importTarget_of_find?_eq_none (hfind.trans hfound)]
    rfl
  | some f =>
    rw [importTarget_of_find?_eq_some hfound, importTarget_of_find?_eq_some (hfind.trans hfound)]
    split
    · rfl
    · split <;> rfl

theorem enterFile_congr {f : FileRef} (h : tree'.text f.id = tree.text f.id) :
    enterFile tree' w f = enterFile tree w f := by
  unfold enterFile Walk.read
  rw [h]

theorem Entry.script_congr (h : tree'.text file = e.tree.text file) :
    Entry.script { e with tree := tree' } file = e.script file := by
  unfold script parsed? textOf
  rw [h]

/-- **A walk goes the same way through a project that has the same of the files it looks up, and the
same text in those it enters.** -/
theorem Follows.congr (h : Follows e file paths s w new s' w')
    (hlines : ∀ path ∈ paths, ∀ id ∈ e.tree.lookups file path,
      tree'.contains id = e.tree.contains id)
    (hnew : ∀ x ∈ new, tree'.text x = e.tree.text x ∧ ∀ path ∈ (e.script x).imports,
      ∀ id ∈ e.tree.lookups x path, tree'.contains id = e.tree.contains id) :
    Follows { e with tree := tree' } file paths s w new s' w' := by
  induction h with
  | done => exact .done
  | @fault _ _ _ _ _ _ w _ _ target _ ih =>
    obtain ⟨hline, hmore⟩ := List.forall_mem_cons.mp hlines
    have houtline := outline_importTarget_congr w hline
    rw [target] at houtline
    exact .fault (ImportTarget.eq_fault_of_outline houtline) (ih hmore hnew)
  | @known _ _ _ _ _ _ w _ target _ ih =>
    obtain ⟨hline, hmore⟩ := List.forall_mem_cons.mp hlines
    have houtline := outline_importTarget_congr w hline
    rw [target] at houtline
    exact .known (ImportTarget.eq_known_of_outline houtline) (ih hmore hnew)
  | @fresh _ _ _ _ _ _ _ _ w _ _ f _ _ target hid _ _ ihinner ihrest =>
    obtain ⟨hline, hmore⟩ := List.forall_mem_cons.mp hlines
    obtain ⟨hentered, hafter⟩ := List.forall_mem_append.mp hnew
    obtain ⟨⟨htext, hbelow⟩, hinner⟩ := List.forall_mem_cons.mp hentered
    have houtline := outline_importTarget_congr w hline
    rw [target] at houtline
    obtain ⟨isFile', isNew', target'⟩ := ImportTarget.eq_fresh_of_outline houtline
    have hfollows := ihinner hbelow hinner
    rw [← Entry.script_congr htext, ← enterFile_congr htext] at hfollows
    exact .fresh target' hid hfollows (ihrest hmore hafter)

/-- A walk has one outcome. -/
theorem Follows.unique {new' : List String} {t : Script} {v : Walk}
    (h : Follows e file paths s w new s' w') (h' : Follows e file paths s w new' t v) :
    s' = t ∧ w' = v := by
  have hfirst := h.foldlM_eq _ (Nat.le_refl _)
  have hsecond := h'.foldlM_eq _ (Nat.le_refl _)
  exact Prod.mk.inj (Option.some.inj (hfirst.symm.trans hsecond))

/-- **A resolution asks whether the project has the files that it looks up, asks for the texts that
it reads, and for nothing else.** -/
theorem Entry.resolve_congr (hlookups : ∀ id ∈ e.lookups, tree'.contains id = e.tree.contains id)
    (hreads : ∀ id ∈ e.resolution.reads, tree'.text id = e.tree.text id) :
    resolve tree' e.text e.id = resolve e.tree e.text e.id := by
  let e' : Entry := { e with tree := tree' }
  have hentered := (e.follows_reads.readsEntered e.readsEntered_start).entered
  obtain ⟨hid, himports⟩ := List.forall_mem_cons.mp hlookups
  have hlines : ∀ file ∈ e.id :: e.resolution.reads, ∀ path ∈ (e.script file).imports,
      ∀ id ∈ e.tree.lookups file path, tree'.contains id = e.tree.contains id :=
    fun file hfile path hpath id hmem =>
      himports id (mem_importLookups (hentered ▸ hfile) hpath hmem)
  obtain ⟨hown, hread⟩ := List.forall_mem_cons.mp hlines
  have hscript : e'.script e.id = e.script e.id := (script_self e').trans (script_self e).symm
  have hstart : e'.start = e.start := by
    unfold start FileTree.entryName
    rw [hid]
  have hsame := e.follows_reads.congr hown fun x hx => ⟨hreads x hx, hread x hx⟩
  rw [← hscript, ← hstart] at hsame
  obtain ⟨hmerged, hwalk⟩ := hsame.unique e'.follows_reads
  have hext : ∀ r r' : Resolution, r.toWalk = r'.toWalk → r.script = r'.script → r = r' := by
    rintro ⟨_, _⟩ ⟨_, _⟩ rfl rfl
    rfl
  exact hext e'.resolution e.resolution hwalk.symm hmerged.symm

end Congruence

/-! ## Confinement -/

/-- **Import paths are normalized and cannot leave the project.** From a file without `..` in its
path, an import path is refused just when a `..` finds nothing on the stack or nothing is left on
it; else it means the final stack, whose components are names. So from an entry without `..`, all
that is looked up for an import line and all that is read has an ordinary path. Only the path of the
entry is looked up as it was given: a project that has the same of the files that are looked up and
the same text in those that are read gives the same resolution. -/
theorem resolve_confined :
    (∀ current path : List Char, parentPart ∉ components current →
      (joinPath? current path = none ↔
        Escapes (startStack current path) (pathParts path) ∨ finalStack current path = []) ∧
      ∀ joined, joinPath? current path = some joined →
        joined = joinParts (finalStack current path) ∧
          components joined = finalStack current path ∧ Ordinary joined) ∧
    ∀ e : Entry, parentPart ∉ components e.id.toList →
      e.lookups = e.id :: e.importLookups ∧ (∀ id ∈ e.importLookups, Ordinary id.toList) ∧
      (∀ id ∈ e.resolution.reads, Ordinary id.toList) ∧
      ∀ tree', (∀ id ∈ e.lookups, tree'.contains id = e.tree.contains id) →
        (∀ id ∈ e.resolution.reads, tree'.text id = e.tree.text id) →
        resolve tree' e.text e.id = resolve e.tree e.text e.id := by
  refine ⟨fun current path hcurrent => ⟨joinPath?_eq_none_iff current path, ?_⟩, fun e hid => ?_⟩
  · intro joined hjoined
    exact ⟨(joinPath?_eq_some hjoined).1, components_of_joinPath? hcurrent hjoined,
      ordinary_joinPath? hcurrent hjoined⟩
  · exact ⟨rfl, Entry.ordinary_of_mem_importLookups hid, Entry.ordinary_of_mem_reads hid,
      fun _ hlookups hreads => Entry.resolve_congr hlookups hreads⟩

/-- A project whose import lines go up, down, and too far up. -/
def tower : Entry where
  tree := FileTree.ofTexts [("lib/hero.msc", "Import: .././shared//base\nImport: ../../outside"),
    ("shared/base.msc", "")]
  id := "levels/./one.msc"
  text := "Import: ../lib/hero\nImport: ../../outside"

/-- A file beside the project is out of the reach of the tower. -/
theorem resolve_confined_tower :
    parentPart ∉ components tower.id.toList ∧
      joinPath? "lib/hero.msc".toList "../../outside".toList = none ∧
      joinPath? "lib/hero.msc".toList ".././shared//base".toList = some "shared/base".toList ∧
      Ordinary "shared/base".toList ∧ "lib/hero.msc" ∈ tower.importLookups ∧
      resolve (tower.tree.insert "../outside.msc" "Source: outside.png") tower.text tower.id =
        resolve tower.tree tower.text tower.id := by
  obtain ⟨hjoin, hresolve⟩ := resolve_confined
  have hhero : parentPart ∉ components "lib/hero.msc".toList := by decide
  have hescapes : Escapes (startStack "lib/hero.msc".toList "../../outside".toList)
      (pathParts "../../outside".toList) :=
    ⟨[parentPart], ["outside".toList], by decide, by decide⟩
  have hup := (hjoin _ _ hhero).1.mpr (.inl hescapes)
  have hbase : joinPath? "lib/hero.msc".toList ".././shared//base".toList =
      some "shared/base".toList := rfl
  have hid : parentPart ∉ components tower.id.toList := by decide
  obtain ⟨hall, himports, hreads, hcongr⟩ := hresolve tower hid
  have hentered : tower.id ∈ tower.resolution.entered := by
    obtain ⟨_, hentered, -⟩ := tower.follows_resolution
    rw [hentered]
    exact List.mem_cons_self
  have hpath : "../lib/hero" ∈ (tower.script tower.id).imports := by decide +kernel
  have hlookup : "lib/hero.msc" ∈ tower.tree.lookups tower.id "../lib/hero" := by decide +kernel
  have hmem : "lib/hero.msc" ∈ tower.importLookups :=
    Entry.mem_importLookups hentered hpath hlookup
  -- neither the entry nor an ordinary path is that of the file outside
  have houtside : ∀ id, Ordinary id.toList → id ≠ "../outside.msc" :=
    fun id hordinary heq => absurd (heq ▸ hordinary) (by decide)
  have hlookups : ∀ id ∈ tower.lookups, id ≠ "../outside.msc" := by
    rw [hall]
    exact List.forall_mem_cons.mpr ⟨by decide, fun id hid => houtside id (himports id hid)⟩
  exact ⟨hid, hup, hbase, ((hjoin _ _ hhero).2 _ hbase).2.2, hmem,
    hcongr _ (fun id hid => (FileTree.insert_elsewhere _ (hlookups id hid)).1)
      fun id hid => (FileTree.insert_elsewhere _ (houtside id (hreads id hid))).2⟩

/-- A script that declares nothing, under a path with a component that is no name. -/
def unready : Entry where
  tree := FileTree.ofTexts [("./main.msc", "Entity")]
  id := "./main.msc"
  text := "Entity"

/-- The path of an entry is looked up as it was given, ordinary or not: the fault of this one is
reported under the name of the file that is found there, and under the path where there is none. -/
theorem resolve_looks_up_entry :
    parentPart ∉ components unready.id.toList ∧ unready.id ∈ unready.lookups ∧
      ¬ Ordinary unready.id.toList ∧
      ∃ fault, unready.resolution.faults = [.badScript "main.msc" fault] ∧
        (resolve FileTree.empty unready.text unready.id).faults =
          [.badScript "./main.msc" fault] := by
  have hparse : ¬ (Script.parse unready.text.toList).isOk := by decide +kernel
  have hfound : unready.tree.entryName unready.id = "main.msc" := by decide +kernel
  have hmissing : FileTree.empty.entryName unready.id = "./main.msc" := by decide +kernel
  obtain ⟨fault, hparse⟩ : ∃ fault, Script.parse unready.text.toList = .error fault := by
    cases h : Script.parse unready.text.toList with
    | ok script => exact absurd (h ▸ rfl) hparse
    | error fault => exact ⟨fault, rfl⟩
  have hfaults : ∀ tree : FileTree, (resolve tree unready.text unready.id).faults =
      [.badScript (tree.entryName unready.id) fault] := fun tree => by
    rw [resolve_of_parse_error hparse]
  refine ⟨by decide, List.mem_cons_self, by decide, fault, ?_, ?_⟩
  · rw [Entry.resolution, hfaults, hfound]
  · rw [hfaults, hmissing]

end PixelScene
