import Mathlib
import PixelScene.Proofs.Outcome
import PixelScene.Script.Statement

/-!
# Sections of a script

A statement reads and writes one section of the script, which no statement of another kind touches.
So a script can be read section by section, and it makes no difference how the statements of
different kinds stand among each other.

* `Statement.apply_only`: a statement sees its own section of a script only.
* `Statement.apply_within`: it leaves the other sections as they were.
* `Script.ofStatements_eq_ok_iff`: every section of a script is what the statements of that section
  declare on their own.
* `Script.ofNode_rearranged`: the order of the sections does not matter.

The statements of the engine are read in one loop with a match over their keywords
(`parse_document`). Every arm writes to the section of its keyword, and reads no other one. A fault
of a statement is reported for the first statement that has one, so a rearrangement may change which
fault is reported; what is kept is whether there is one.
-/

namespace PixelScene

/-! ## Sections -/

/-- What the statements of one kind write. -/
inductive Section where
  | entities
  | source
  | imports
  | globals
  | events
  | sprites
  | backgrounds
  | layers
  | inputs
  | placements
deriving DecidableEq, Repr

namespace Script

/-- The script with one of its sections taken from another script. -/
def withSection (s : Script) (k : Section) (r : Script) : Script :=
  match k with
  | .entities => { s with entities := r.entities }
  | .source => { s with source := r.source }
  | .imports => { s with imports := r.imports }
  | .globals => { s with globals := r.globals }
  | .events => { s with events := r.events }
  | .sprites => { s with sprites := r.sprites, spriteGrid := r.spriteGrid }
  | .backgrounds => { s with backgrounds := r.backgrounds }
  | .layers => { s with layers := r.layers }
  | .inputs => { s with inputs := r.inputs }
  | .placements => { s with placements := r.placements }

/-- A script with nothing but one of its sections. -/
def only (s : Script) (k : Section) : Script := empty.withSection k s

variable {s t r : Script}

theorem only_withSection (s r : Script) (j k : Section) :
    (s.withSection j r).only k = if j = k then r.only k else s.only k := by
  cases j <;> cases k <;> rfl

theorem only_empty (k : Section) : empty.only k = empty := by cases k <;> rfl

theorem withSection_withSection (s t r : Script) (k : Section) :
    (s.withSection k t).withSection k r = s.withSection k r := by cases k <;> rfl

/-- A script is known by its sections. -/
theorem eq_of_only (h : ∀ k, s.only k = t.only k) : s = t := by
  have hentities := congrArg entities (h .entities)
  have hsource := congrArg source (h .source)
  have himports := congrArg imports (h .imports)
  have hglobals := congrArg globals (h .globals)
  have hevents := congrArg events (h .events)
  have hsprites := congrArg sprites (h .sprites)
  have hgrid := congrArg spriteGrid (h .sprites)
  have hbackgrounds := congrArg backgrounds (h .backgrounds)
  have hlayers := congrArg layers (h .layers)
  have hinputs := congrArg inputs (h .inputs)
  have hplacements := congrArg placements (h .placements)
  cases s
  cases t
  simp only [only, withSection] at *
  subst_vars
  rfl

end Script

/-! ## One statement -/

namespace Statement

variable {word : Keyword} {j k : Section} {s t : Script} {body : Node}

/-- The section that a keyword belongs to; keys without a meaning belong to none. -/
def Keyword.section? : Keyword → Option Section
  | .entity _ => some .entities
  | .source => some .source
  | .imports => some .imports
  | .globals => some .globals
  | .events => some .events
  | .sprites => some .sprites
  | .backgrounds => some .backgrounds
  | .layers => some .layers
  | .inputs => some .inputs
  | .placements => some .placements
  | .unknown => none

theorem map_only_bind {α : Type} (k : Section) (x : Except ScriptFault α) (f : α → Script) :
    (x >>= fun a => pure (f a)).map (·.only k) = x >>= fun a => pure ((f a).only k) := by
  cases x <;> rfl

theorem spriteEntry_only (s : Script) (name : String) (body : Node) :
    (spriteEntry s name body).map (·.only .sprites) = spriteEntry (s.only .sprites) name body := by
  unfold spriteEntry
  split
  · cases number body gridKey with
    | error fault => rfl
    | ok size =>
      change Except.map _ (if size < 1 then _ else _) = if size < 1 then _ else _
      split <;> rfl
  · exact map_only_bind .sprites _ _

theorem foldlM_spriteEntry_only (es : List (String × Node)) (s : Script) :
    (es.foldlM (fun s e => spriteEntry s e.1 e.2) s).map (·.only .sprites) =
      es.foldlM (fun s e => spriteEntry s e.1 e.2) (s.only .sprites) := by
  induction es generalizing s with
  | nil => rfl
  | cons e es ih =>
    rw [List.foldlM_cons, List.foldlM_cons, ← spriteEntry_only]
    cases spriteEntry s e.1 e.2 with
    | error fault => rfl
    | ok t => exact ih t

/-- **A statement sees its own section only**: it makes of that section, or fails to make of it,
what it makes of it in the whole script. -/
theorem apply_only (h : word.section? = some k) (s : Script) (body : Node) :
    (apply s word body).map (·.only k) = apply (s.only k) word body := by
  cases word <;> simp only [Keyword.section?, Option.some.injEq, reduceCtorEq] at h <;> subst h
  case entity name =>
    simp only [apply]
    split
    · rfl
    · exact map_only_bind .entities _ _
  case sprites =>
    simp only [apply]
    cases entries body "Sprites" with
    | error fault => rfl
    | ok es => exact foldlM_spriteEntry_only es s
  case events | layers | placements =>
    simp only [apply]
    cases items body _ with
    | error fault => rfl
    | ok nodes => exact map_only_bind _ _ _
  case source | imports => rfl
  case globals | backgrounds | inputs => exact map_only_bind _ _ _

theorem spriteEntry_within {name : String} (h : spriteEntry s name body = .ok t) :
    t = s.withSection .sprites t := by
  simp only [spriteEntry] at h
  split at h
  · obtain ⟨size, -, hsize⟩ := bind_eq_ok_iff.mp h
    split at hsize
    · exact absurd hsize throw_bind_ne_ok
    · rw [← pure_eq_ok_iff.mp hsize]
      rfl
  · obtain ⟨sprite, -, ht⟩ := bind_eq_ok_iff.mp h
    rw [← pure_eq_ok_iff.mp ht]
    rfl

/-- **A statement writes to its own section only.** -/
theorem apply_within (h : word.section? = some k) (happly : apply s word body = .ok t) :
    t = s.withSection k t := by
  cases word <;> simp only [Keyword.section?, Option.some.injEq, reduceCtorEq] at h <;> subst h
  case entity name =>
    simp only [apply] at happly
    split at happly
    · exact absurd happly throw_bind_ne_ok
    · obtain ⟨entity, -, ht⟩ := bind_eq_ok_iff.mp happly
      rw [← pure_eq_ok_iff.mp ht]
      rfl
  case sprites =>
    obtain ⟨es, -, hes⟩ := bind_eq_ok_iff.mp happly
    refine foldlM_invariant (P := fun r => r = s.withSection .sprites r) ?_ rfl hes
    intro r e r' hr hentry
    rw [spriteEntry_within hentry, hr, Script.withSection_withSection]
    rfl
  case events | layers | placements =>
    obtain ⟨nodes, -, hnodes⟩ := bind_eq_ok_iff.mp happly
    obtain ⟨parsed, -, ht⟩ := bind_eq_ok_iff.mp hnodes
    rw [← pure_eq_ok_iff.mp ht]
    rfl
  case source | imports =>
    rw [← pure_eq_ok_iff.mp happly]
    rfl
  case globals | backgrounds | inputs =>
    obtain ⟨parsed, -, ht⟩ := bind_eq_ok_iff.mp happly
    rw [← pure_eq_ok_iff.mp ht]
    rfl

/-- A statement that belongs to no section is skipped. -/
theorem apply_of_section?_eq_none (h : word.section? = none) : apply s word body = .ok s := by
  cases word <;> simp only [Keyword.section?, reduceCtorEq] at h
  rfl

/-- The sections that a statement does not belong to are as they were. -/
theorem only_of_apply (h : word.section? ≠ some k) (happly : apply s word body = .ok t) :
    t.only k = s.only k := by
  cases hword : word.section? with
  | none =>
    rw [Except.ok.inj ((apply_of_section?_eq_none hword).symm.trans happly)]
  | some j =>
    have hne : j ≠ k := fun heq => h (heq ▸ hword)
    rw [apply_within hword happly, Script.only_withSection, if_neg hne]

/-! ## Statements by section -/

/-- Whether a statement belongs to a section. -/
def isIn (k : Section) (e : String × Node) : Bool := (keyword e.1).section? == some k

/-- A statement is read into a script. -/
def step (s : Script) (e : String × Node) : Except ScriptFault Script := apply s (keyword e.1) e.2

end Statement

namespace Script

open Statement (step isIn)

variable {l m : List (String × Node)} {s t : Script}

/-- A statement of a section does in the section what it does in the script. -/
theorem step_only {k : Section} {e : String × Node} (hk : isIn k e = true)
    (h : step s e = .ok t) : step (s.only k) e = .ok (t.only k) := by
  rw [step, ← Statement.apply_only (beq_iff_eq.mp hk)]
  exact congrArg (Except.map _) h

/-- A statement of another section leaves the section as it was. -/
theorem only_of_step {k : Section} {e : String × Node} (hk : ¬ isIn k e = true)
    (h : step s e = .ok t) : t.only k = s.only k :=
  Statement.only_of_apply (fun hword => hk (beq_iff_eq.mpr hword)) h

/-- A statement can be read into a script if it can be read into its section of it. -/
theorem exists_step_eq_ok {e : String × Node}
    (h : ∀ k, isIn k e = true → ∃ u, step (s.only k) e = .ok u) : ∃ r, step s e = .ok r := by
  cases hword : (Statement.keyword e.1).section? with
  | none => exact ⟨s, Statement.apply_of_section?_eq_none hword⟩
  | some k =>
    obtain ⟨u, hu⟩ := h k (beq_iff_eq.mpr hword)
    rw [step, ← Statement.apply_only hword] at hu
    cases happly : Statement.apply s (Statement.keyword e.1) e.2 with
    | error fault =>
      rw [happly] at hu
      exact absurd hu nofun
    | ok r => exact ⟨r, happly⟩

/-- What statements make of one section is what those of that section make of it. -/
theorem foldlM_only (h : l.foldlM step s = .ok t) (k : Section) :
    (l.filter (isIn k)).foldlM step (s.only k) = .ok (t.only k) := by
  induction l generalizing s with
  | nil =>
    rw [← pure_eq_ok_iff.mp h]
    rfl
  | cons e l ih =>
    rw [List.foldlM_cons, bind_eq_ok_iff] at h
    obtain ⟨r, hr, hl⟩ := h
    by_cases hk : isIn k e
    · rw [List.filter_cons_of_pos hk, List.foldlM_cons, step_only hk hr]
      exact ih hl
    · rw [List.filter_cons_of_neg hk, ← only_of_step hk hr]
      exact ih hl

/-- Statements can be read if those of every section can be read on their own. -/
theorem exists_foldlM_eq_ok
    (h : ∀ k, ∃ r, (l.filter (isIn k)).foldlM step (s.only k) = .ok r) :
    ∃ t, l.foldlM step s = .ok t := by
  induction l generalizing s with
  | nil => exact ⟨s, rfl⟩
  | cons e l ih =>
    obtain ⟨r, hr⟩ : ∃ r, step s e = .ok r := by
      refine exists_step_eq_ok fun k hk => ?_
      obtain ⟨t, ht⟩ := h k
      rw [List.filter_cons_of_pos hk, List.foldlM_cons, bind_eq_ok_iff] at ht
      obtain ⟨u, hu, -⟩ := ht
      exact ⟨u, hu⟩
    rw [List.foldlM_cons, hr]
    refine ih fun k => ?_
    obtain ⟨t, ht⟩ := h k
    by_cases hk : isIn k e
    · rw [List.filter_cons_of_pos hk, List.foldlM_cons, step_only hk hr] at ht
      exact ⟨t, ht⟩
    · rw [List.filter_cons_of_neg hk] at ht
      rw [only_of_step hk hr]
      exact ⟨t, ht⟩

/-- **A script is read section by section**: it can be read exactly if the statements of every
section can be read on their own, and then each of its sections is what these declare. -/
theorem ofStatements_eq_ok_iff :
    ofStatements l = .ok s ↔ ∀ k, ofStatements (l.filter (isIn k)) = .ok (s.only k) := by
  constructor
  · intro h k
    have honly := foldlM_only h k
    rwa [only_empty] at honly
  · intro h
    obtain ⟨t, ht⟩ : ∃ t, ofStatements l = .ok t :=
      exists_foldlM_eq_ok fun k => ⟨s.only k, by rw [only_empty]; exact h k⟩
    have hst : s = t := by
      refine eq_of_only fun k => ?_
      have honly := foldlM_only ht k
      rw [only_empty] at honly
      exact Except.ok.inj ((h k).symm.trans honly)
    rw [ht, hst]

end Script

/-! ## The order of the sections -/

namespace Statement

/-- The kind of a statement: its key, but one kind for all entities. -/
def kind? (key : String) : Option String :=
  match Text.dropFront? "Entity.".toList key.toList with
  | some _ => none
  | none => some key

/-- The kind of the statements of a section. -/
def kindOf? : Section → Option String
  | .entities => none
  | .source => some "Source"
  | .imports => some "Import"
  | .globals => some "Schema"
  | .events => some "Events"
  | .sprites => some "Sprites"
  | .backgrounds => some "Backgrounds"
  | .layers => some "Layers"
  | .inputs => some "Input"
  | .placements => some "Instances"

/-- A section has the statements of one kind. -/
theorem section?_keyword_eq_some_iff {key : String} {k : Section} :
    (keyword key).section? = some k ↔ kind? key = kindOf? k := by
  unfold keyword kind?
  cases Text.dropFront? "Entity.".toList key.toList with
  | some name => cases k <;> simp [Keyword.section?, kindOf?]
  | none =>
    dsimp only
    split <;> cases k <;> simp_all [Keyword.section?, kindOf?]

/-- The statements in another order, but those of one kind in the same order among each other. -/
structure Rearranged (l m : List (String × Node)) : Prop where
  perm : m.Perm l
  order : ∀ kind, m.filter (kind? ·.1 = kind) = l.filter (kind? ·.1 = kind)

variable {l m : List (String × Node)}

/-- The statements of a section keep their order. -/
theorem Rearranged.filter_isIn (h : Rearranged l m) (k : Section) :
    m.filter (isIn k) = l.filter (isIn k) := by
  have hisIn : isIn k = fun e => decide (kind? e.1 = kindOf? k) := by
    funext e
    exact Bool.eq_iff_iff.mpr
      (beq_iff_eq.trans (section?_keyword_eq_some_iff.trans decide_eq_true_iff.symm))
  rw [hisIn]
  exact h.order (kindOf? k)

end Statement

namespace Script

open Statement (Rearranged)

variable {l m : List (String × Node)} {s : Script}

theorem ofStatements_rearranged (h : Rearranged l m) :
    ofStatements m = .ok s ↔ ofStatements l = .ok s := by
  rw [ofStatements_eq_ok_iff, ofStatements_eq_ok_iff]
  exact forall_congr' fun k => by rw [h.filter_isIn k]

theorem parse_eq_ok_iff {source : List Char} {root : Node} (h : Node.read source = .ok root) :
    parse source = .ok s ↔ ofNode root = .ok s := by
  have hparse : parse source = (ofNode root).mapError .statement := by
    rw [parse, h]
    rfl
  rw [hparse]
  cases ofNode root with
  | error fault => exact ⟨fun hs => absurd hs nofun, fun hs => absurd hs nofun⟩
  | ok t => exact ⟨fun hs => congrArg Except.ok (Except.ok.inj hs),
      fun hs => congrArg Except.ok (Except.ok.inj hs)⟩

/-- **The order of sections does not matter.** When statements of different kinds change places, and
those of one kind keep their order, the same script is read, or none is read still. This holds of
any two sources with such statements. -/
theorem ofNode_rearranged (h : Rearranged l m) (s : Script) :
    (ofNode (.map m) = .ok s ↔ ofNode (.map l) = .ok s) ∧
    ∀ source source', Node.read source = .ok (.map l) → Node.read source' = .ok (.map m) →
      (parse source' = .ok s ↔ parse source = .ok s) := by
  have hroot : ofNode (.map m) = .ok s ↔ ofNode (.map l) = .ok s := ofStatements_rearranged h
  refine ⟨hroot, fun source source' hl hm => ?_⟩
  rw [parse_eq_ok_iff hm, parse_eq_ok_iff hl]
  exact hroot

/-- An entity between two imports. -/
def mixedStatements : List (String × Node) :=
  [("Import", .text "a"), ("Entity.X", .null), ("Import", .text "b")]

/-- The same statements, kind by kind. -/
def sortedStatements : List (String × Node) :=
  [("Entity.X", .null), ("Import", .text "a"), ("Import", .text "b")]

/-- What both of them declare. -/
def twoImports : Script :=
  { empty with imports := ["a", "b"], entities := .ofList [("X", .empty)] }

theorem read_mixed :
    Node.read "Import: a\nEntity.X:\nImport: b\n".toList = .ok (.map mixedStatements) := by
  cbv

theorem read_sorted :
    Node.read "Entity.X:\nImport: a\nImport: b\n".toList = .ok (.map sortedStatements) := by
  cbv

theorem ofNode_rearranged_imports : Rearranged mixedStatements sortedStatements ∧
    ofNode (.map sortedStatements) = .ok twoImports ∧
    parse "Import: a\nEntity.X:\nImport: b\n".toList = .ok twoImports ∧
    parse "Entity.X:\nImport: a\nImport: b\n".toList = .ok twoImports := by
  have h : Rearranged mixedStatements sortedStatements := by
    refine ⟨List.Perm.swap _ _ _, fun kind => ?_⟩
    by_cases hkind : kind = some "Import"
    · subst hkind
      rfl
    · have himport : decide (Statement.kind? "Import" = kind) = false :=
        decide_eq_false fun h => hkind h.symm
      simp only [sortedStatements, mixedStatements, List.filter_cons, himport]
      rfl
  have hscript : ofNode (.map mixedStatements) = .ok twoImports := by cbv
  obtain ⟨hroot, hparse⟩ := ofNode_rearranged h twoImports
  have hmixed := (parse_eq_ok_iff read_mixed).mpr hscript
  exact ⟨h, hroot.mpr hscript, hmixed, (hparse _ _ read_mixed read_sorted).mpr hmixed⟩

end Script

end PixelScene
