import PixelScene.Program.Rehearse
import PixelScene.Proofs.Change
import PixelScene.Proofs.Scenario.Files
import PixelScene.Proofs.Scenario.Run

/-!
# Recordings that are kept and compared

A scenario that was blessed keeps its recording in a file, and a check compares the recording of the
same scenario with what it reads of that file.

* `Rehearse.exists_of_record`: what is recorded is the run of the scenario in a file, and recording
  changes no file.
* `Rehearse.record_of_bless`: after blessing, the same is recorded, unless the scenario reads the
  file that was written.
* `Rehearse.verdict_eq`: what a check says of a recording that was kept, by its camera alone.
* `Rehearse.rehearse_check_blessed`: so this is what a check says of a scenario that was blessed and
  has not changed. It is right exactly when the numbers of the camera survive being written.

A number that is not finite is written as `null`, and no field of a camera can be `null` when it is
read, so the check fails before it compares. The zoom of a camera comes from a script without a
check, and may be infinite. `Rehearse.verdict_of_isEven` is the case in which the numbers alone tell
that the check succeeds. The same holds whatever generator the runs draw from. Messages are those of
the programs; what the library says of a malformed file is left out.
-/

namespace PixelScene

namespace Rehearse

/-! ## Files -/

variable {path golden : String} {c c' : Console} {o : Recording}

section ReadJson

variable {α : Type} {unopened malformed : String} {read : Json → Option α}

/-- A file that is there is read for its value. -/
theorem readJson_of_file {content : Content} (h : c.disk.file? path = some content) :
    readJson path unopened malformed read c =
      match (c.disk.json? path).bind read with
      | some a => .ok a c
      | none => .error ⟨malformed, [Session.malformed]⟩ c := by
  have hcontains : c.disk.contains path = true := by
    rw [Disk.contains, h]
    rfl
  rw [readJson, bind_of_ok get_eq_ok, if_pos hcontains, Session.jsonFile, bind_of_ok get_eq_ok, h]
  dsimp only
  cases (c.disk.json? path).bind read <;> rfl

/-- What is read is what a file holds, and nothing changes. -/
theorem readJson_eq_ok {a : α} (h : readJson path unopened malformed read c = .ok a c') :
    (c.disk.json? path).bind read = some a ∧ c' = c := by
  cases hfile : c.disk.file? path with
  | some content =>
    rw [readJson_of_file hfile] at h
    cases hread : (c.disk.json? path).bind read with
    | none => rw [hread] at h; cases h
    | some b => rw [hread] at h; cases h; exact ⟨rfl, rfl⟩
  | none =>
    rw [readJson, bind_of_ok get_eq_ok] at h
    split at h
    · rw [Session.jsonFile, bind_of_ok get_eq_ok, hfile] at h
      cases h
    · cases h

end ReadJson

section Record

variable [Generator]

/-- A recording is that of the scenario in the file, run with the script that it leads to. -/
theorem exists_of_record (h : record path c = .ok o c') : ∃ s r,
    (c.disk.json? path).bind Scenario.ofJson? = some s ∧
      s.resolution c.disk (FilePath.folder path) = .ok r ∧ o = (s.recordResolved r).1 ∧
      c'.disk = c.disk := by
  obtain ⟨s, c₁, hread, hrun⟩ := bind_run_eq_ok_iff.mp h
  obtain ⟨hs, rfl⟩ := readJson_eq_ok hread
  rw [bind_of_ok get_eq_ok, Scenario.record] at hrun
  cases hresolve : s.resolution c₁.disk (FilePath.folder path) with
  | error fault =>
    rw [hresolve] at hrun
    cases hrun
  | ok r =>
    rw [hresolve] at hrun
    cases hrun
    exact ⟨s, r, hs, hresolve, rfl, rfl⟩

/-- A scenario is recorded by running it with the script that it leads to. -/
theorem record_of_resolution {s : Scenario} {r : Resolution}
    (hread : (c.disk.json? path).bind Scenario.ofJson? = some s)
    (hresolve : s.resolution c.disk (FilePath.folder path) = .ok r) :
    record path c = .ok (s.recordResolved r).1 (c.note (s.recordResolved r).2) := by
  obtain ⟨v, hv, -⟩ := Option.bind_eq_some_iff.mp hread
  obtain ⟨text, htext, -⟩ := Option.bind_eq_some_iff.mp hv
  obtain ⟨content, hfile, -⟩ := Option.bind_eq_some_iff.mp htext
  have hs : readJson path s!"opening fixture '{path}'" "parsing fixture JSON" Scenario.ofJson? c =
      .ok s c := by
    rw [readJson_of_file hfile, hread]
  rw [record, bind_of_ok hs, bind_of_ok get_eq_ok, Scenario.record, hresolve]
  rfl

/-- What is recorded can be kept. -/
theorem fits_of_record (h : record path c = .ok o c')
    (hfired : ∀ step ∈ o.results, step.fired ≤ Json.word64) : o.Fits := by
  obtain ⟨s, r, hs, -, rfl, -⟩ := exists_of_record h
  obtain ⟨v, -, hv⟩ := Option.bind_eq_some_iff.mp hs
  exact Scenario.recordResolved_fits (Scenario.steps_le_of_ofJson? hv) r hfired

end Record

/-- Keeping a recording writes its text. -/
theorem keep_eq_ok (h : keep golden o c = .ok () c') :
    c.disk.write? golden (.ofText o.toJson.prettyText) = some c'.disk := by
  rw [keep, bind_of_ok get_eq_ok] at h
  cases hwrite : c.disk.write? golden (.ofText o.toJson.prettyText) with
  | none => rw [hwrite] at h; cases h
  | some disk => rw [hwrite] at h; cases h; rfl

/-! ## Comparing -/

/-- What a check says of a recording whose text was kept. -/
def verdict (path golden : String) (o : Recording) : Session Bool :=
  match o.readBack with
  | none => Session.fail s!"parsing golden '{golden}'" [Session.malformed]
  | some expected =>
    match expected.difference? o with
    | none => do
      Session.say [s!"[harness] ok {path}"]
      return true
    | some difference => do
      Session.say [s!"[harness] MISMATCH {path}: {difference.message}"]
      return false

/-- A check compares with what is read of the text that was kept. -/
theorem compare_of_file {content : Content} (h : c.disk.file? golden = some content)
    (hread : (c.disk.json? golden).bind Recording.ofJson? = o.readBack) :
    compare path golden o c = verdict path golden o c := by
  rw [compare, verdict]
  cases hback : o.readBack with
  | none =>
    refine bind_of_error ?_
    rw [readJson_of_file h, hread, hback]
  | some expected =>
    refine bind_of_ok ?_
    rw [readJson_of_file h, hread, hback]

/-- The verdict on a recording that can be kept depends on its camera alone. -/
theorem verdict_eq (h : o.Fits) : verdict path golden o =
    if o.camera.IsFinite then
      if o.camera.Survives then do
        Session.say [s!"[harness] ok {path}"]
        return true
      else do
        Session.say [s!"[harness] MISMATCH {path}: {Difference.camera.message}"]
        return false
    else Session.fail s!"parsing golden '{golden}'" [Session.malformed] := by
  rw [verdict, Recording.readBack_eq h]
  by_cases hfinite : o.camera.IsFinite
  · rw [if_pos hfinite, if_pos hfinite]
    dsimp only
    rw [Recording.difference?_camera h, Camera.mapNumbers_beq]
    by_cases hsurvives : o.camera.Survives
    · rw [if_pos hsurvives, if_pos (List.all_eq_true.mpr hsurvives)]
    · rw [if_neg hsurvives, if_neg fun hall => hsurvives (List.all_eq_true.mp hall)]
  · rw [if_neg hfinite, if_neg hfinite]

/-- A recording with its camera at even numbers is found unchanged. `verdict_eq` leaves open which
numbers survive; here are those of a camera that no entity moves, and the whole numbers and halves
of everyday scripts. -/
theorem verdict_of_isEven (h : o.Fits) (heven : ∀ x ∈ o.camera.numbers, Json.IsEven x) :
    verdict path golden o = do
      Session.say [s!"[harness] ok {path}"]
      return true := by
  obtain ⟨hfinite, hsurvives⟩ := Camera.survives_of_isEven heven
  rw [verdict_eq h, if_pos hfinite, if_pos hsurvives]

/-! ## Blessing -/

section Bless

variable [Generator]

/-- Blessing writes the text of the recording. -/
theorem write?_of_bless {c₁ : Console} (hrecord : record path c = .ok o c')
    (hbless : rehearse .bless path c = .ok true c₁) :
    c.disk.write? (goldenPath path) (.ofText o.toJson.prettyText) = some c₁.disk := by
  obtain ⟨-, -, -, -, -, hdisk⟩ := exists_of_record hrecord
  rw [rehearse, bind_of_ok hrecord] at hbless
  obtain ⟨_, c₂, hkeep, hreturn⟩ := bind_run_eq_ok_iff.mp hbless
  cases hreturn
  exact hdisk ▸ keep_eq_ok hkeep

/-- The recording of the scenario in a file depends on a file of the disk: on its own, or on one
that the scenario asks for. -/
def DependsOn (path : String) (d : Disk) (id : String) : Prop :=
  d.id? path = some id ∨ ∃ s, (d.json? path).bind Scenario.ofJson? = some s ∧
    s.Asks d (FilePath.folder path) id

/-- **A scenario that was blessed is recorded the same**, unless its recording depends on the file
that it is kept in. -/
theorem record_of_bless {c₁ : Console} (hrecord : record path c = .ok o c')
    (hbless : rehearse .bless path c = .ok true c₁)
    (hgolden : ∀ id, c.disk.id? (goldenPath path) = some id → ¬ DependsOn path c.disk id) :
    ∃ c₂, record path c₁ = .ok o c₂ := by
  have hwrite := write?_of_bless hrecord hbless
  obtain ⟨s, r, hs, hresolve, rfl, -⟩ := exists_of_record hrecord
  obtain ⟨place, hplace, -, -⟩ := Disk.write?_eq_some hwrite
  have hid : c.disk.id? (goldenPath path) = some (String.ofList (joinParts place)) := by
    rw [Disk.id?, hplace]
    rfl
  have hown : c.disk.id? path ≠ c.disk.id? (goldenPath path) := fun heq =>
    hgolden _ hid (.inl (heq.trans hid))
  have hjson : c₁.disk.json? path = c.disk.json? path := by
    rw [Disk.json?, Disk.json?, Disk.file?_write?_of_ne hwrite hown]
  have hscript := Scenario.resolution_write? hwrite fun id hid hasks =>
    hgolden id hid (.inr ⟨s, hs, hasks⟩)
  exact ⟨_, record_of_resolution (by rw [hjson, hs]) (hscript.trans hresolve)⟩

/-- A check of a scenario that was blessed and has not changed gives the verdict on its
recording. -/
theorem rehearse_check_eq_verdict {c₁ c₂ : Console} (hrecord : record path c = .ok o c')
    (hbless : rehearse .bless path c = .ok true c₁) (hsame : record path c₁ = .ok o c₂) :
    c₁.disk.text (goldenPath path) = .ok o.toJson.prettyText ∧
      (c₁.disk.json? (goldenPath path)).bind Recording.ofJson? = o.readBack ∧
      rehearse .check path c₁ = verdict path (goldenPath path) o c₂ := by
  have hwrite := write?_of_bless hrecord hbless
  have hread : (c₁.disk.json? (goldenPath path)).bind Recording.ofJson? = o.readBack := by
    rw [Disk.json?_write? hwrite]
    rfl
  refine ⟨Disk.text_write? hwrite, hread, ?_⟩
  have hfile := Disk.file?_write? hwrite
  obtain ⟨-, -, -, -, -, hdisk⟩ := exists_of_record hsame
  rw [← hdisk] at hfile hread
  rw [rehearse, bind_of_ok hsame]
  exact compare_of_file hfile hread

/-- A scenario is blessed by writing what is recorded of it. -/
theorem rehearse_bless_of_write {d : Disk} (hrecord : record path c = .ok o c')
    (hwrite : c'.disk.write? (goldenPath path) (.ofText o.toJson.prettyText) = some d) :
    ∃ c₁, rehearse .bless path c = .ok true c₁ ∧ c₁.disk = d := by
  have hkeep : keep (goldenPath path) o c' =
      Session.say [s!"[harness] blessed {goldenPath path}"] { c' with disk := d } := by
    rw [keep, bind_of_ok get_eq_ok, hwrite]
    rfl
  obtain ⟨c₁, hsay, hdisk⟩ : ∃ c₁, Session.say [s!"[harness] blessed {goldenPath path}"]
      { c' with disk := d } = .ok () c₁ ∧ c₁.disk = d := ⟨_, rfl, rfl⟩
  refine ⟨c₁, ?_, hdisk⟩
  rw [rehearse, bind_of_ok hrecord]
  exact bind_of_ok (hkeep.trans hsay)

end Bless

/-! ## A lens -/

/-- An entity that is all camera, with a given zoom. -/
def lensSource (zoom : String) : String :=
  "Entity.Lens:\n  Camera:\n    zoom: " ++ zoom ++ "\nInstances:\n  - entity: Lens\n"

/-- A scenario of one step with a lens. -/
def lens (zoom : String) : Scenario where
  script := none
  source := some (lensSource zoom)
  files := ∅
  steps := 1
  width := 12
  height := 11
  seed := 0
  places := true
  spans := []
  geometry := Geometry.empty
  watched := []

/-- The JSON value of the scenario. -/
def lensJson (zoom : String) : Json :=
  .object [("source", .text (lensSource zoom)), ("steps", .integer 1), ("width", .integer 12),
    ("height", .integer 11)]

theorem ofJson?_lensJson (zoom : String) :
    Scenario.ofJson? (Json.reread (lensJson zoom)) = some (lens zoom) := by
  rw [lensJson, Json.reread_object]
  rfl

/-- The script of a lens. -/
def lensScript (zoom : String) : Script :=
  (Script.parse (lensSource zoom).toList).toOption.getD Script.empty

/-- The resolution of a script that imports nothing. -/
def lensResolution (zoom : String) : Resolution :=
  ⟨⟨["main.msc"], [], ["main.msc"], []⟩, lensScript zoom⟩

theorem resolution_lens {zoom : String}
    (hparse : (Script.parse (lensSource zoom).toList).toOption.isSome = true)
    (himports : (lensScript zoom).imports = []) (d : Disk) (folder : String) :
    (lens zoom).resolution d folder = .ok (lensResolution zoom) := by
  cases hscript : Script.parse (lensSource zoom).toList with
  | error e => rw [hscript] at hparse; cases hparse
  | ok script =>
    have hlens : lensScript zoom = script := by rw [lensScript, hscript]; rfl
    rw [hlens] at himports
    rw [lensResolution, hlens]
    exact congrArg Except.ok (resolve_of_parse hscript himports)

/-- What is recorded of a lens. -/
def lensRecording [Generator] (zoom : String) : Recording :=
  ((lens zoom).recordResolved (lensResolution zoom)).1

/-- A folder with the scenario. -/
def lensDisk (zoom : String) : Disk := ⟨.ofList [("lens.json", .ofText (lensJson zoom).prettyText)]⟩

theorem scenario_lensDisk (zoom : String) :
    ((lensDisk zoom).json? "lens.json").bind Scenario.ofJson? = some (lens zoom) := by
  have hfile : (lensDisk zoom).file? "lens.json" =
      some (.ofText (lensJson zoom).prettyText) := rfl
  have hnesting : Json.nesting (lensJson zoom) < Json.depthBound := by
    simp [lensJson, Json.nesting, Json.nestingFields, Json.depthBound]
  rw [Disk.json?, hfile, Option.bind_some, Content.text?_ofText, Option.bind_some,
    Json.parse?_prettyText hnesting, Option.bind_some, ofJson?_lensJson]

theorem locate?_lensDisk (zoom : String) :
    (lensDisk zoom).locate? (goldenPath "lens.json") = some ["lens.golden.json".toList] := by
  have hgolden : goldenPath "lens.json" = "lens.golden.json" := by decide +kernel
  rw [hgolden]
  rfl

theorem exists_write?_lensDisk (zoom : String) (content : Content) :
    ∃ d, (lensDisk zoom).write? (goldenPath "lens.json") content = some d := by
  have hkeys : (lensDisk zoom).files.keys = ["lens.json"] := rfl
  have hbeneath : Disk.beneath? ["lens.golden.json".toList] "lens.json" = none := by
    decide +kernel
  have hfolder : (lensDisk zoom).isFolderAt ["lens.golden.json".toList] = false := by
    rw [Disk.isFolderAt, hkeys, List.any_cons, hbeneath]
    rfl
  rw [Disk.write?, locate?_lensDisk, Option.bind_eq_bind, Option.bind_some, hfolder]
  exact ⟨_, rfl⟩

/-- A lens depends on its own file only, and this is not the file of its recording. -/
theorem not_dependsOn_lensDisk {zoom id : String}
    (hid : (lensDisk zoom).id? (goldenPath "lens.json") = some id) :
    ¬ DependsOn "lens.json" (lensDisk zoom) id := by
  rw [Disk.id?, locate?_lensDisk] at hid
  obtain rfl := Option.some.inj hid
  rintro (hown | ⟨s, hs, hasks⟩)
  · exact absurd (Option.some.inj hown) (by decide +kernel)
  · obtain rfl := Option.some.inj (hs.symm.trans (scenario_lensDisk zoom))
    obtain ⟨_, hscript, -⟩ := hasks
    cases hscript

/-- A lens can be recorded, blessed, and recorded again. -/
theorem bless_lens [Generator] (zoom : String)
    (hparse : (Script.parse (lensSource zoom).toList).toOption.isSome = true)
    (himports : (lensScript zoom).imports = []) : ∃ c' c₁ c₂,
      record "lens.json" (Console.start (lensDisk zoom)) = .ok (lensRecording zoom) c' ∧
      rehearse .bless "lens.json" (Console.start (lensDisk zoom)) = .ok true c₁ ∧
      record "lens.json" c₁ = .ok (lensRecording zoom) c₂ := by
  have hrecord := record_of_resolution (c := Console.start (lensDisk zoom))
    (scenario_lensDisk zoom) (resolution_lens hparse himports _ _)
  obtain ⟨d, hwrite⟩ := exists_write?_lensDisk zoom
    (.ofText (lensRecording zoom).toJson.prettyText)
  obtain ⟨c₁, hbless, -⟩ := rehearse_bless_of_write hrecord hwrite
  obtain ⟨c₂, hsame⟩ := record_of_bless hrecord hbless fun _ => not_dependsOn_lensDisk
  exact ⟨_, c₁, c₂, hrecord, hbless, hsame⟩

/-! ## Blessing and checking -/

/--
**A check of a scenario that was blessed and has not changed.** The file holds the text of the
recording, and all of it is read back but the camera. The check is right exactly if every number of
the camera is finite and comes back as the number it was. If one is not finite, the text has null in
its place, and the check fails because it cannot read what was kept.
-/
theorem rehearse_check_blessed [Generator] {c₁ c₂ : Console} (hrecord : record path c = .ok o c')
    (hfired : ∀ step ∈ o.results, step.fired ≤ Json.word64)
    (hbless : rehearse .bless path c = .ok true c₁) (hsame : record path c₁ = .ok o c₂) :
    c₁.disk.text (goldenPath path) = .ok o.toJson.prettyText ∧
      (c₁.disk.json? (goldenPath path)).bind Recording.ofJson? =
        (if o.camera.IsFinite then some { o with camera := o.camera.mapNumbers Json.throughText }
        else none) ∧
      rehearse .check path c₁ =
        (if o.camera.IsFinite then
          if o.camera.Survives then do
            Session.say [s!"[harness] ok {path}"]
            return true
          else do
            Session.say [s!"[harness] MISMATCH {path}: {Difference.camera.message}"]
            return false
        else Session.fail s!"parsing golden '{goldenPath path}'" [Session.malformed] :
          Session Bool) c₂ := by
  have hfits : o.Fits := fits_of_record hrecord hfired
  rw [← Recording.readBack_eq hfits, ← verdict_eq hfits]
  exact rehearse_check_eq_verdict hrecord hbless hsame

/-- A lens with a zoom of two survives. -/
theorem rehearse_check_blessed_lens : ∃ c' c₁ c₂,
    record "lens.json" (Console.start (lensDisk "2")) = .ok (lensRecording "2") c' ∧
    (∀ step ∈ (lensRecording "2").results, step.fired ≤ Json.word64) ∧
    rehearse .bless "lens.json" (Console.start (lensDisk "2")) = .ok true c₁ ∧
    record "lens.json" c₁ = .ok (lensRecording "2") c₂ ∧
    (c₁.disk.json? (goldenPath "lens.json")).bind Recording.ofJson? =
      some { lensRecording "2" with camera := (lensRecording "2").camera.mapNumbers Json.throughText } ∧
    rehearse .check "lens.json" c₁ =
      (do Session.say ["[harness] ok lens.json"]; return true : Session Bool) c₂ := by
  obtain ⟨c', c₁, c₂, hrecord, hbless, hsame⟩ :=
    bless_lens "2" (by decide +kernel) (by decide +kernel)
  have hrun : (∀ step ∈ (lensRecording "2").results, step.fired ≤ Json.word64) ∧
      (lensRecording "2").camera.IsFinite ∧ (lensRecording "2").camera.Survives := by
    decide +kernel
  obtain ⟨hfired, hfinite, hsurvives⟩ := hrun
  obtain ⟨-, hread, hcheck⟩ := rehearse_check_blessed hrecord hfired hbless hsame
  rw [if_pos hfinite] at hread hcheck
  rw [if_pos hsurvives] at hcheck
  exact ⟨c', c₁, c₂, hrecord, hfired, hbless, hsame, hread, hcheck⟩

/-- A lens with an infinite zoom is blessed, but what was kept of it cannot be read. -/
theorem blessed_lens_is_not_read : ∃ c' c₁ c₂,
    record "lens.json" (Console.start (lensDisk "inf")) = .ok (lensRecording "inf") c' ∧
    rehearse .bless "lens.json" (Console.start (lensDisk "inf")) = .ok true c₁ ∧
    record "lens.json" c₁ = .ok (lensRecording "inf") c₂ ∧
    (c₁.disk.json? (goldenPath "lens.json")).bind Recording.ofJson? = none ∧
    rehearse .check "lens.json" c₁ =
      .error ⟨"parsing golden 'lens.golden.json'", ["the file is malformed"]⟩ c₂ := by
  obtain ⟨c', c₁, c₂, hrecord, hbless, hsame⟩ :=
    bless_lens "inf" (by decide +kernel) (by decide +kernel)
  have hrun : (∀ step ∈ (lensRecording "inf").results, step.fired ≤ Json.word64) ∧
      ¬ (lensRecording "inf").camera.IsFinite := by
    decide +kernel
  obtain ⟨hfired, hinfinite⟩ := hrun
  have hfits : (lensRecording "inf").Fits := fits_of_record hrecord hfired
  obtain ⟨-, hread, hcheck⟩ := rehearse_check_eq_verdict hrecord hbless hsame
  rw [Recording.readBack_eq hfits, if_neg hinfinite] at hread
  rw [verdict_eq hfits, if_neg hinfinite] at hcheck
  exact ⟨c', c₁, c₂, hrecord, hbless, hsame, hread, hcheck⟩

end Rehearse

end PixelScene
