import PixelScene.Proofs.Json.Decode
import PixelScene.Scenario.Recording

/-!
# Recordings that are kept

A recording is written as JSON, and the text is read again when a later run is compared with it.
What can be written without loss is `Fits`: counts of one machine word, the integers of slots, and
finite values of variables in the order of their names. The camera is the exception, since its
numbers come from scripts: one that is not finite is lost, and the others pass through a double.

* `StepRecord.restores`, `EntityRecord.restores`: the parts are read back as they were.
* `Recording.readBack_eq`: what is read of the text of a recording.
* `Recording.difference?_camera`: what is read differs in the camera, or not at all.

Records are compared by value, so what has to be shown of a value is that it equals itself after it
was read, and doubles that are not numbers do not. What is finite does (`beq_self_of_isFinite`,
`single_beq_self_of_isFinite`). `Camera.survives_of_isEven` says of which cameras it is known that
all numbers come back.
-/

namespace PixelScene

open Json (Restores)

/-! ## Numbers that equal themselves -/

theorem beq_self_of_isFinite {x : Float} (h : (Number.exact x).isFinite = true) :
    (x == x) = true := by
  refine Float.beq_self_iff.mpr fun hnan => ?_
  rw [hnan] at h
  exact absurd h (by decide)

theorem single_beq_self_of_isFinite {x : Float32} (h : (Number.exactSingle x).isFinite = true) :
    (x == x) = true := by
  refine Float32.beq_self_iff.mpr fun hnan => ?_
  rw [hnan] at h
  exact absurd h (by decide)

theorem list_beq_self {α : Type} [BEq α] {l : List α} (h : ∀ a ∈ l, (a == a) = true) :
    (l == l) = true := by
  induction l with
  | nil => rfl
  | cons a l ih =>
    obtain ⟨ha, hl⟩ := List.forall_mem_cons.mp h
    rw [List.cons_beq_cons, ha, ih hl, Bool.and_self]

/-! ## Steps -/

namespace StepRecord

/-- Whether the record of a step has counts of one word, and finite values. -/
structure Fits (r : StepRecord) : Prop where
  step_le : r.step ≤ Json.word64
  fired_le : r.fired ≤ Json.word64
  ticked_le : r.ticked ≤ Json.word64
  finite : ∀ g ∈ r.globals.entries, (Number.exact g.2).isFinite = true

/-- The fields that are always written are all there, and those that are left out when they are
empty have the empty default. -/
theorem restores {r : StepRecord} (h : r.Fits) :
    Restores StepRecord.toJson StepRecord.ofJson? r := by
  have hfaults : Json.orElse? (Json.listOf? Json.text?) []
      (if r.faults.isEmpty then none else some (Json.reread (.list (r.faults.map .text)))) =
        some r.faults := by
    split
    next hempty => rw [List.isEmpty_iff.mp hempty]; rfl
    next => exact Json.restores_list fun s _ => Json.restores_text s
  have hglobals : Json.orElse? (Json.dictionary? Json.double?) ∅
      (if r.globals.isEmpty then none
        else some (Json.reread (.object (r.globals.entries.map fun g => (g.1, .real g.2))))) =
          some r.globals := by
    split
    next hempty =>
      have hnil : r.globals.entries = [] := List.isEmpty_iff.mp hempty
      exact congrArg some (Dictionary.ext hnil.symm)
    next => exact Json.restores_dictionary fun g hg => Json.restores_double (h.finite g hg)
  have hfields : Json.record? ["step", "firedEvents", "tickedEntities", "faults", "globals"]
      (Json.reread r.toJson) =
        some [some (Json.reread (.integer r.step)), some (Json.reread (.integer r.fired)),
          some (Json.reread (.integer r.ticked)),
          if r.faults.isEmpty then none else some (Json.reread (.list (r.faults.map .text))),
          if r.globals.isEmpty then none
            else some (Json.reread (.object (r.globals.entries.map fun g => (g.1, .real g.2))))] := by
    rw [toJson, Json.reread_object]
    cases r.faults.isEmpty
    · cases r.globals.isEmpty
      · exact Json.record?_object (by simp) _
      · exact Json.record?_object (by simp) _
    · cases r.globals.isEmpty
      · exact Json.record?_object (by simp) _
      · exact Json.record?_object (by simp) _
  have hstep : Json.nat? Json.word64 (Json.reread (.integer r.step)) = some r.step :=
    Json.restores_nat h.step_le
  have hfired : Json.nat? Json.word64 (Json.reread (.integer r.fired)) = some r.fired :=
    Json.restores_nat h.fired_le
  have hticked : Json.nat? Json.word64 (Json.reread (.integer r.ticked)) = some r.ticked :=
    Json.restores_nat h.ticked_le
  show ofJson? (Json.reread r.toJson) = some r
  rw [ofJson?, hfields]
  simp only [Option.bind_eq_bind, Option.bind_some, Json.needed?, hstep, hfired, hticked, hfaults,
    hglobals]
  rfl

theorem nesting_toJson (r : StepRecord) : Json.nesting r.toJson ≤ 2 := by
  have hfaults : Json.nesting (.list (r.faults.map .text)) ≤ 1 := by
    rw [Json.nesting_list_le_iff, List.forall_mem_map]
    exact fun s _ => Nat.zero_le 0
  have hglobals :
      Json.nesting (.object (r.globals.entries.map fun g => (g.1, .real g.2))) ≤ 1 := by
    rw [Json.nesting_object_le_iff, List.forall_mem_map]
    exact fun g _ => Nat.zero_le 0
  rw [toJson, Json.nesting_object_le_iff]
  simp only [List.forall_mem_append, List.forall_mem_cons]
  refine ⟨⟨⟨Nat.zero_le 1, Nat.zero_le 1, Nat.zero_le 1, nofun⟩, ?faults⟩, ?globals⟩
  case faults =>
    split
    · exact nofun
    · exact List.forall_mem_singleton.mpr hfaults
  case globals =>
    split
    · exact nofun
    · exact List.forall_mem_singleton.mpr hglobals

/-- A record of finite values equals itself. -/
theorem beq_self {r : StepRecord} (h : r.Fits) : (r == r) = true := by
  have hglobals : (r.globals.entries == r.globals.entries) = true := by
    refine list_beq_self fun g hg => ?_
    change (g.1 == g.1 && g.2 == g.2) = true
    rw [beq_self_eq_true, beq_self_of_isFinite (h.finite g hg), Bool.and_self]
  change (r.step == r.step && (r.fired == r.fired && (r.ticked == r.ticked
    && (r.faults == r.faults && r.globals.entries == r.globals.entries)))) = true
  simp only [beq_self_eq_true, hglobals, Bool.and_self]

end StepRecord

/-! ## Entities -/

namespace EntityRecord

/-- Whether the record of an entity has the integers that a slot can have. -/
structure Fits (r : EntityRecord) : Prop where
  slot_le : r.slot ≤ Json.word64
  x_mem : 0 ≤ r.x ∧ r.x ≤ 65535
  y_mem : 0 ≤ r.y ∧ r.y ≤ 65535
  velocityX_mem : -32768 ≤ r.velocityX ∧ r.velocityX ≤ 32767
  velocityY_mem : -32768 ≤ r.velocityY ∧ r.velocityY ≤ 32767
  health_mem : 0 ≤ r.health ∧ r.health ≤ 255
  sprite_mem : 0 ≤ r.sprite ∧ r.sprite ≤ 255

/-- Two integers between bounds, written as a list. -/
theorem tuple?_pair {low high a b : Int} (hlow : -Number.twoTo 63 ≤ low)
    (hhigh : high < Number.twoTo 64) (ha : low ≤ a ∧ a ≤ high) (hb : low ≤ b ∧ b ≤ high) :
    Json.tuple? 2 (Json.int? low high) (Json.reread (.list [.integer a, .integer b])) =
      some [a, b] := by
  refine Json.restores_tuple (l := [a, b]) fun n hn => ?_
  refine Json.restores_int hlow hhigh ?_
  rcases List.mem_pair.mp hn with rfl | rfl
  · exact ha
  · exact hb

theorem restores {r : EntityRecord} (h : r.Fits) :
    Restores EntityRecord.toJson EntityRecord.ofJson? r := by
  have hslot : Json.nat? Json.word64 (Json.reread (.integer r.slot)) = some r.slot :=
    Json.restores_nat h.slot_le
  have hposition := tuple?_pair (by decide) (by decide) h.x_mem h.y_mem
  have hvelocity := tuple?_pair (by decide) (by decide) h.velocityX_mem h.velocityY_mem
  have hhealth : Json.int? 0 255 (Json.reread (.integer r.health)) = some r.health :=
    Json.restores_int (by decide) (by decide) h.health_mem
  have hsprite : Json.int? 0 255 (Json.reread (.integer r.sprite)) = some r.sprite :=
    Json.restores_int (by decide) (by decide) h.sprite_mem
  have hfields : Json.record? ["slot", "entity", "position", "velocity", "health", "sprite"]
      (Json.reread r.toJson) =
        some [some (Json.reread (.integer r.slot)), some (.text r.entity),
          some (Json.reread (.list [.integer r.x, .integer r.y])),
          some (Json.reread (.list [.integer r.velocityX, .integer r.velocityY])),
          some (Json.reread (.integer r.health)), some (Json.reread (.integer r.sprite))] := by
    rw [toJson, Json.reread_object]
    exact Json.record?_object (by simp) _
  show ofJson? (Json.reread r.toJson) = some r
  rw [ofJson?, hfields]
  simp only [Option.bind_eq_bind, Option.bind_some, Json.needed?, Json.text?, hslot, hposition,
    hvelocity, hhealth, hsprite]
  rfl

theorem nesting_toJson (r : EntityRecord) : Json.nesting r.toJson ≤ 2 := by
  rw [toJson, Json.nesting_object_le_iff]
  simp [Json.nesting, Json.nestingItems]

theorem beq_self (r : EntityRecord) : (r == r) = true := by
  change (r.slot == r.slot && (r.entity == r.entity && (r.x == r.x && (r.y == r.y
    && (r.velocityX == r.velocityX && (r.velocityY == r.velocityY
      && (r.health == r.health && r.sprite == r.sprite))))))) = true
  simp only [beq_self_eq_true, Bool.and_self]

end EntityRecord

/-! ## The camera -/

namespace Camera

/-- The numbers of a camera, in the order in which they are written. -/
def numbers (c : Camera) : List Float32 :=
  [c.position.x, c.position.y, c.zoom, c.shake] ++ c.tint.parts

/-- Whether all numbers of a camera are finite. -/
def IsFinite (c : Camera) : Prop := ∀ x ∈ c.numbers, (Number.exactSingle x).isFinite = true

instance (c : Camera) : Decidable c.IsFinite := inferInstanceAs (Decidable (∀ x ∈ c.numbers, _))

/-- A camera with its numbers changed one by one. -/
def mapNumbers (f : Float32 → Float32) (c : Camera) : Camera where
  position := ⟨f c.position.x, f c.position.y⟩
  zoom := f c.zoom
  shake := f c.shake
  tint := ⟨f c.tint.red, f c.tint.green, f c.tint.blue, f c.tint.alpha⟩

/-- A camera is read back unless one of its numbers is not finite. -/
theorem ofJson?_reread (c : Camera) : ofJson? (Json.reread c.toJson) =
    if c.IsFinite then some (c.mapNumbers Json.throughText) else none := by
  have hfields : Json.record? ["x", "y", "zoom", "shake", "tint"] (Json.reread c.toJson) =
      some [some (Json.reread (.single c.position.x)), some (Json.reread (.single c.position.y)),
        some (Json.reread (.single c.zoom)), some (Json.reread (.single c.shake)),
        some (Json.reread (.list (c.tint.parts.map .single)))] := by
    rw [toJson, Json.reread_object]
    exact Json.record?_object (by simp) _
  have htint : Json.tuple? 4 Json.single? (Json.reread (.list (c.tint.parts.map .single))) =
      if ∀ x ∈ c.tint.parts, (Number.exactSingle x).isFinite = true then
        some (c.tint.parts.map Json.throughText)
      else none := by
    rw [Json.tuple?, Json.listOf?_singles]
    split <;> rfl
  have hnumbers : c.IsFinite ↔ (Number.exactSingle c.position.x).isFinite = true ∧
      (Number.exactSingle c.position.y).isFinite = true ∧
      (Number.exactSingle c.zoom).isFinite = true ∧ (Number.exactSingle c.shake).isFinite = true ∧
      ∀ x ∈ c.tint.parts, (Number.exactSingle x).isFinite = true := by
    simp only [IsFinite, numbers, List.cons_append, List.nil_append, List.forall_mem_cons]
  rw [ofJson?, hfields]
  simp only [Option.bind_eq_bind, Option.bind_some, Json.needed?, Json.single?_reread, htint,
    Json.bind_ite, hnumbers, ite_and]
  rfl

theorem nesting_toJson (c : Camera) : Json.nesting c.toJson ≤ 2 := by
  rw [toJson, Json.nesting_object_le_iff]
  simp [Json.nesting, Json.nestingItems, Tint.parts]

/-- Whether all numbers of a camera are the same after they were written and read. -/
def Survives (c : Camera) : Prop := ∀ x ∈ c.numbers, (Json.throughText x == x) = true

instance (c : Camera) : Decidable c.Survives := inferInstanceAs (Decidable (∀ x ∈ c.numbers, _))

/-- A camera at even numbers survives: this has the whole numbers and halves of everyday scripts. -/
theorem survives_of_isEven {c : Camera} (h : ∀ x ∈ c.numbers, Json.IsEven x) :
    c.IsFinite ∧ c.Survives := by
  have hfinite : c.IsFinite := by
    intro x hx
    have heven := h x hx
    rw [Json.IsEven] at heven
    cases hexact : Number.exactSingle x with
    | finite negative m e => rfl
    | notNumber => rw [hexact] at heven; cases heven
    | infinite negative => rw [hexact] at heven; cases heven
  refine ⟨hfinite, fun x hx => ?_⟩
  rw [Json.throughText_of_isEven (h x hx)]
  exact single_beq_self_of_isFinite (hfinite x hx)

/-- A camera equals one whose numbers were changed when each of them does. -/
theorem mapNumbers_beq (f : Float32 → Float32) (c : Camera) :
    (c.mapNumbers f == c) = c.numbers.all fun x => f x == x := by
  rw [Bool.eq_iff_iff]
  change ((f c.position.x == c.position.x && f c.position.y == c.position.y)
    && (f c.zoom == c.zoom && (f c.shake == c.shake
      && (f c.tint.red == c.tint.red && (f c.tint.green == c.tint.green
        && (f c.tint.blue == c.tint.blue && f c.tint.alpha == c.tint.alpha)))))) = true ↔ _
  simp [numbers, Tint.parts, and_assoc]

end Camera

/-! ## Recordings -/

namespace Recording

/-- Whether a recording has only counts and integers that their fields hold. -/
structure Fits (o : Recording) : Prop where
  steps_le : o.steps ≤ Json.word64
  results_fit : ∀ r ∈ o.results, r.Fits
  entities_fit : ∀ r ∈ o.entities, r.Fits

/-- What is read of the text of a recording. -/
def readBack (o : Recording) : Option Recording :=
  (Json.parse? o.toJson.prettyText.toList).bind ofJson?

theorem ofJson?_reread {o : Recording} (h : o.Fits) : ofJson? (Json.reread o.toJson) =
    if o.camera.IsFinite then some { o with camera := o.camera.mapNumbers Json.throughText }
    else none := by
  have hsteps : Json.nat? Json.word64 (Json.reread (.integer o.steps)) = some o.steps :=
    Json.restores_nat h.steps_le
  have hdiagnostics : Json.listOf? Json.text? (Json.reread (.list (o.diagnostics.map .text))) =
      some o.diagnostics := Json.restores_list fun s _ => Json.restores_text s
  have himports : Json.listOf? Json.text? (Json.reread (.list (o.importErrors.map .text))) =
      some o.importErrors := Json.restores_list fun s _ => Json.restores_text s
  have hresults : Json.listOf? StepRecord.ofJson?
      (Json.reread (.list (o.results.map StepRecord.toJson))) = some o.results :=
    Json.restores_list fun r hr => StepRecord.restores (h.results_fit r hr)
  have hentities : Json.listOf? EntityRecord.ofJson?
      (Json.reread (.list (o.entities.map EntityRecord.toJson))) = some o.entities :=
    Json.restores_list fun r hr => EntityRecord.restores (h.entities_fit r hr)
  have hfields : Json.record?
      ["steps", "diagnostics", "importErrors", "results", "finalEntities", "camera"]
      (Json.reread o.toJson) =
        some [some (Json.reread (.integer o.steps)),
          some (Json.reread (.list (o.diagnostics.map .text))),
          some (Json.reread (.list (o.importErrors.map .text))),
          some (Json.reread (.list (o.results.map StepRecord.toJson))),
          some (Json.reread (.list (o.entities.map EntityRecord.toJson))),
          some (Json.reread o.camera.toJson)] := by
    rw [toJson, Json.reread_object]
    exact Json.record?_object (by simp) _
  simp only [ofJson?, hfields, Option.bind_eq_bind, Option.bind_some, Json.needed?, hsteps,
    hdiagnostics, himports, hresults, hentities, Camera.ofJson?_reread, Json.bind_ite]
  rfl

/-- A recording nests its objects four deep. -/
theorem nesting_toJson (o : Recording) : Json.nesting o.toJson ≤ 4 := by
  have htexts : ∀ ss : List String, Json.nesting (.list (ss.map .text)) ≤ 3 := by
    intro ss
    rw [Json.nesting_list_le_iff, List.forall_mem_map]
    exact fun s _ => Nat.zero_le 2
  have hresults : Json.nesting (.list (o.results.map StepRecord.toJson)) ≤ 3 := by
    rw [Json.nesting_list_le_iff, List.forall_mem_map]
    exact fun r _ => r.nesting_toJson
  have hentities : Json.nesting (.list (o.entities.map EntityRecord.toJson)) ≤ 3 := by
    rw [Json.nesting_list_le_iff, List.forall_mem_map]
    exact fun r _ => r.nesting_toJson.trans (by decide)
  have hcamera : Json.nesting o.camera.toJson ≤ 3 := o.camera.nesting_toJson.trans (by decide)
  rw [toJson, Json.nesting_object_le_iff]
  simp only [List.forall_mem_cons]
  exact ⟨Nat.zero_le 3, htexts _, htexts _, hresults, hentities, hcamera, nofun⟩

/-- What is read of the text of a recording is the recording itself, up to the camera. -/
theorem readBack_eq {o : Recording} (h : o.Fits) : o.readBack =
    if o.camera.IsFinite then some { o with camera := o.camera.mapNumbers Json.throughText }
    else none := by
  have hparse := Json.parse?_prettyText (v := o.toJson)
    (Nat.lt_of_le_of_lt o.nesting_toJson (by decide))
  rw [readBack, hparse, Option.bind_some, ofJson?_reread h]

theorem firstDifferent?_self {l : List StepRecord} (h : ∀ r ∈ l, (r == r) = true) :
    firstDifferent? l l = none := by
  induction l with
  | nil => rfl
  | cons r l ih =>
    obtain ⟨hr, hl⟩ := List.forall_mem_cons.mp h
    have hbne : (r != r) = false := by rw [bne, hr, Bool.not_true]
    rw [firstDifferent?, List.zip_cons_cons, List.find?_cons, hbne]
    exact ih hl

/-- Recordings that are the same up to the camera differ in the camera or not at all. -/
theorem difference?_camera {o : Recording} (h : o.Fits) (c : Camera) :
    ({ o with camera := c } : Recording).difference? o =
      if c == o.camera then none else some .camera := by
  have hresults : (o.results == o.results) = true :=
    list_beq_self fun r hr => StepRecord.beq_self (h.results_fit r hr)
  have hentities : (o.entities == o.entities) = true := list_beq_self fun r _ => r.beq_self
  have hequal : ({ o with camera := c } == o) = (c == o.camera) := by
    change (o.steps == o.steps && (o.diagnostics == o.diagnostics
      && (o.importErrors == o.importErrors && (o.results == o.results
        && (o.entities == o.entities && c == o.camera))))) = _
    simp only [beq_self_eq_true, hresults, hentities, Bool.true_and]
  have hfirst : firstDifferent? o.results o.results = none :=
    firstDifferent?_self fun r hr => StepRecord.beq_self (h.results_fit r hr)
  have hrest : difference { o with camera := c } o = .camera := by
    rw [difference, hfirst]
    simp [bne, hentities]
  rw [difference?, hequal, hrest]

end Recording

end PixelScene
