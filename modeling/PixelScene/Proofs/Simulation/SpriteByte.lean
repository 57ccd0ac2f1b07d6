import PixelScene.Proofs.Atlas
import PixelScene.Proofs.Simulation.History
import PixelScene.Proofs.Simulation.Turns
import PixelScene.Script.Statement

/-!
# Which sprite a byte shows

At the end of its turn an entity shows a frame of its visual, and the number of the frame goes into
one byte of its slot. A byte saturates, so a number behind 255 becomes 255, and 255 may belong to
another sprite.

* `SpriteRange.frameAt_mem`: whatever the tick and the speed, the frame is one of the sprite's.
* `Turn.byte_finish`: the byte after a turn is the number of the frame, or 255.
* `Simulation.shows_iff`: an entity shows its own visual exactly if the first number of the visual
  fits into a byte.
* `Simulation.shows_of_size_le`: it always does in a script with at most 255 sprite numbers.
* `Simulation.byte_shows_other_sprite`: a script in which it does not.

The number of a frame is the first number of the visual and the frame that the tick asks for
(`frame_at`); the setter of the byte saturates (`set_sprite_id`). Loading a script does not limit
the number of sprites, only the frames of each. The condition is exact for every script, registry
and tick, also where the memory is too short to hold the byte.
-/

namespace PixelScene

/-! ## Ranges of an atlas -/

namespace SpriteRange

/-- A number of a sprite. -/
def Holds (r : SpriteRange) (id : Nat) : Prop := r.first ≤ id ∧ id < r.first + r.count

instance (r : SpriteRange) (id : Nat) : Decidable (r.Holds id) :=
  inferInstanceAs (Decidable (_ ∧ _))

/-- The frame of an animation is one of the sprite's in every tick and at every speed. -/
theorem frameAt_mem {r : SpriteRange} (h : 0 < r.count) (tick : Nat) (speed : Float) :
    r.Holds (r.frameAt tick speed) := by
  have hcount : max r.count 1 = r.count := Nat.max_eq_left h
  unfold Holds frameAt
  rw [hcount]
  exact ⟨Nat.le_add_right _ _, Nat.add_lt_add_left (Nat.mod_lt _ h) _⟩

/-- Saturating a number of a sprite at 255 gives a number of the sprite again exactly if the first
one is at most 255. -/
theorem holds_min_iff {r : SpriteRange} {id : Nat} (h : r.Holds id) :
    r.Holds (min id 255) ↔ r.first ≤ 255 := by
  unfold Holds at *
  omega

end SpriteRange

namespace Atlas

/-- The ranges of some sprites are not empty and end before the next free number. -/
theorem mem_rangesFrom {next : Nat} {es : List (String × Sprite)} {e : String × SpriteRange}
    (h : e ∈ rangesFrom next es) :
    0 < e.2.count ∧ e.2.first + e.2.count ≤ next + numbersTaken es := by
  induction es generalizing next with
  | nil => exact absurd h List.not_mem_nil
  | cons sprite es ih =>
    rw [rangesFrom] at h
    rw [numbersTaken_cons]
    rcases List.mem_cons.mp h with rfl | hmem
    · exact ⟨sprite.2.frameCount_pos, Nat.add_le_add_left (Nat.le_add_right _ _) next⟩
    · obtain ⟨hpos, hend⟩ := ih hmem
      exact ⟨hpos, by omega⟩

theorem range?_bounds {s : Script} {name : String} {r : SpriteRange}
    (h : (ofScript s).range? name = some r) :
    0 < r.count ∧ r.first ≤ (ofScript s).size := by
  have hmem : (name, r) ∈ (ofScript s).ranges.entries := mem_of_lookup h
  obtain ⟨hpos, hend⟩ : 0 < r.count ∧ r.first + r.count ≤ 1 + s.lastNumber := mem_rangesFrom hmem
  rw [size_ofScript]
  exact ⟨hpos, by omega⟩

/-- A byte shows a visual: it is a number of the sprite of that name, and zero if there is none. -/
def Shows (a : Atlas) (visual : Option String) (byte : UInt8) : Prop :=
  match visual.bind a.range? with
  | some range => range.Holds byte.toNat
  | none => byte = 0

end Atlas

/-! ## The byte after a turn -/

section Turns

variable {s : Simulation} (held : Held) (geometry : Geometry) {turn : Turn}

namespace Turn

/-- The address of the byte that shows the sprite of a turn. -/
def spriteAddress (turn : Turn) : Nat := turn.slot + SlotField.sprite.offset

/-- What the components of the turn leave. -/
def afterComponents (turn : Turn) (s : Simulation) (held : Held) (geometry : Geometry) :
    World × Report :=
  (turn.components s).entries.foldl
    (s.runComponent turn.type (held.consult turn.type.bindings) geometry turn.slot) turn.start

/-- The number of the frame that the turn chooses. -/
def number (turn : Turn) (s : Simulation) (held : Held) (geometry : Geometry) : Nat :=
  s.spriteNumber (turn.visual s) (turn.components s) (turn.afterComponents s held geometry).1.ticks

theorem memory_finish : (turn.finish s held geometry).1.memory =
    leaves (Edit.setField turn.slot .sprite (turn.number s held geometry))
      (turn.afterComponents s held geometry).1.memory :=
  Simulation.memory_showSprite _ (turn.afterComponents s held geometry)

/-- Showing the sprite leaves the length of the memory as it is. -/
theorem size_finish : (turn.finish s held geometry).1.memory.size =
    (turn.afterComponents s held geometry).1.memory.size := by
  rw [memory_finish]
  exact (Edit.setField_within _ _ _ _).size

/-- The byte after a turn is the number of the frame, or 255 if that is less. -/
theorem byte_finish (hslot : IsSlot turn.slot)
    (hfits : turn.spriteAddress < (turn.finish s held geometry).1.memory.size) :
    ((turn.finish s held geometry).1.memory.byte turn.spriteAddress).toNat =
      min (turn.number s held geometry) 255 := by
  rw [size_finish] at hfits
  have hsaturate : (Number.clamp 0 255 (turn.number s held geometry : Int)).toNat =
      min (turn.number s held geometry) 255 := by
    unfold Number.clamp
    omega
  rw [memory_finish, leaves_of_ok (Edit.setField_eq_ok (f := .sprite) hslot hfits _), spriteAddress,
    Memory.byte_putField (f := .sprite) rfl hfits, hsaturate]
  exact UInt8.toNat_ofNat_of_lt' (Nat.lt_succ_of_le (Nat.min_le_right _ _))

/-- After its turn an entity shows its visual exactly if the first number of the visual fits into a
byte. -/
theorem shows_finish_iff (hatlas : ∃ script, s.atlas = Atlas.ofScript script)
    (hslot : IsSlot turn.slot)
    (hfits : turn.spriteAddress < (turn.finish s held geometry).1.memory.size) :
    s.atlas.Shows (turn.visual s)
        ((turn.finish s held geometry).1.memory.byte turn.spriteAddress) ↔
      ∀ range ∈ (turn.visual s).bind s.atlas.range?, range.first ≤ 255 := by
  have hbyte := byte_finish held geometry hslot hfits
  unfold number Simulation.spriteNumber at hbyte
  unfold Atlas.Shows
  cases hvisual : (turn.visual s).bind s.atlas.range? with
  | none =>
    rw [hvisual] at hbyte
    exact ⟨nofun, fun _ => UInt8.toNat_inj.mp hbyte⟩
  | some range =>
    rw [hvisual] at hbyte
    obtain ⟨script, hscript⟩ := hatlas
    obtain ⟨name, -, hname⟩ := Option.bind_eq_some_iff.mp hvisual
    rw [hscript] at hname
    have hframe := SpriteRange.frameAt_mem (Atlas.range?_bounds hname).1
      (turn.afterComponents s held geometry).1.ticks
      (Simulation.animationSpeed (turn.components s))
    dsimp only at hbyte ⊢
    rw [hbyte, SpriteRange.holds_min_iff hframe]
    exact ⟨fun h _ hmem => Option.mem_some_iff.mp hmem ▸ h, fun h => h range rfl⟩

end Turn

end Turns

/-! ## The length of the memory -/

/-- Two memories are equally long. -/
def SameSize (m m' : Memory) : Prop := m'.size = m.size

instance : IsPreorder Memory SameSize where
  refl _ := rfl
  trans _ _ _ h h' := h'.trans h

namespace Registry

/-- The components of a registry leave the length of the memory as it is. -/
def KeepsSize (r : Registry) : Prop := ∀ id component, r.get? id = some component →
  ∀ slot p env, Keeps (OnMemory SameSize) (component.tick slot p env)

theorem builtins_keepsSize : builtins.KeepsSize := by
  intro id component h slot p env
  refine builtins_keeps h slot p env (List.mem_singleton.mpr rfl) ?_
  refine { data := ?_, shaking := ?_, ending := ?_, spawning := ?_ }
  · exact fun m m' h => h.size
  · exact fun _ m m' h => h.size
  · exact fun _ => (Edit.setField_within slot .active _).mono fun _ _ h => h.size
  · exact fun _ _ _ _ x y => (Edit.spawn_within _ x y _).mono fun _ _ h => h.size

end Registry

namespace Simulation

section KeepsSize

variable {s : Simulation} {held : Held} {geometry : Geometry} (h : s.registry.KeepsSize)

include h

theorem size_runComponent (t : EntityType) (slot : Nat) (wr : World × Report)
    (c : String × Properties) :
    SameSize wr.1.memory (s.runComponent t held geometry slot wr c).1.memory := by
  cases hget : s.registry.get? c.1 with
  | none =>
    unfold runComponent
    rw [hget]
    exact rfl
  | some component =>
    rw [memory_runComponent hget]
    exact h c.1 component hget slot c.2 _ wr.1

theorem size_turn (turn : Turn) :
    SameSize turn.start.1.memory (turn.finish s held geometry).1.memory :=
  (turn.size_finish held geometry).trans
    (foldl_memory_keeps (fun wr c _ => size_runComponent h turn.type turn.slot wr c) turn.start)

/-- All turns of a pass begin with a memory as long as the first one. -/
theorem Takes.size_start {wr wr' : World × Report} {turns : List Turn}
    (hturns : s.Takes held geometry wr turns wr') :
    ∀ turn ∈ turns, SameSize wr.1.memory turn.start.1.memory := by
  induction hturns with
  | nil => exact nofun
  | cons turn _ _ ih =>
    intro other hother
    rcases List.mem_cons.mp hother with rfl | hmore
    · exact rfl
    · exact (ih other hmore).trans (size_turn h turn)

/-- The memory always has the byte that shows the sprite. -/
theorem spriteAddress_lt {w : World} {turn : Turn} (hturn : turn ∈ s.turns held geometry w) :
    turn.spriteAddress < (turn.finish s held geometry).1.memory.size := by
  have hfits := (mem_slotAddresses.mp (slot_mem_of_mem_turns hturn)).2
  rw [← Takes.size_start h (takes_turns w) turn hturn, ← size_turn h turn] at hfits
  exact lt_of_lt_of_le (Nat.add_lt_add_left (by decide) _) hfits

end KeepsSize

/-! ## Whole ticks -/

theorem isSlot_of_mem_turns {s : Simulation} {held : Held} {geometry : Geometry} {w : World}
    {turn : Turn} (h : turn ∈ s.turns held geometry w) : IsSlot turn.slot :=
  (mem_slotAddresses.mp (slot_mem_of_mem_turns h)).1

/--
**An entity shows its own visual exactly if the first number of the visual fits into a byte.** This
holds of every turn of every tick, and the report of a tick counts its turns. The memory has the
byte unless a component of the registry has changed its length.
-/
theorem shows_iff (script : Script) (registry : Registry) (hosts : List KeyBindings) (held : Held)
    (geometry : Geometry) (w : World) :
    let s := prepared script registry hosts
    let turns := s.turns held geometry w
    let after := fun turn : Turn => (turn.finish s held geometry).1.memory
    (s.tick held geometry w).2.ticked = turns.length ∧
      (registry.KeepsSize → ∀ turn ∈ turns, turn.spriteAddress < (after turn).size) ∧
      ∀ turn ∈ turns, turn.spriteAddress < (after turn).size →
        (s.atlas.Shows (turn.visual s) ((after turn).byte turn.spriteAddress) ↔
          ∀ range ∈ (turn.visual s).bind s.atlas.range?, range.first ≤ 255) := by
  intro s turns after
  have hatlas : s.atlas = Atlas.ofScript script := prepared_atlas script registry hosts
  have hregistry : s.registry = registry := prepared_registry script registry hosts
  refine ⟨ticked_tick w, fun hkeeps turn hturn => ?_, fun turn hturn hfits => ?_⟩
  · exact spriteAddress_lt (hregistry.symm ▸ hkeeps) hturn
  · exact turn.shows_finish_iff held geometry ⟨script, hatlas⟩ (isSlot_of_mem_turns hturn) hfits

/-- An entity of a script with at most 255 sprite numbers always shows its own visual. -/
theorem shows_of_size_le (script : Script) (hsize : (Atlas.ofScript script).size ≤ 255)
    {registry : Registry} (hregistry : registry.KeepsSize) (hosts : List KeyBindings) (held : Held)
    (geometry : Geometry) (w : World) :
    let s := prepared script registry hosts
    ∀ turn ∈ s.turns held geometry w, s.atlas.Shows (turn.visual s)
      ((turn.finish s held geometry).1.memory.byte turn.spriteAddress) := by
  intro s turn hturn
  have hatlas : s.atlas = Atlas.ofScript script := prepared_atlas script registry hosts
  have hkeeps : s.registry.KeepsSize := (prepared_registry script registry hosts).symm ▸ hregistry
  refine (turn.shows_finish_iff held geometry ⟨script, hatlas⟩ (isSlot_of_mem_turns hturn)
    (spriteAddress_lt hkeeps hturn)).mpr fun range hrange => ?_
  obtain ⟨name, -, hname⟩ := Option.bind_eq_some_iff.mp hrange
  exact (Atlas.range?_bounds (hatlas ▸ hname)).2.trans hsize

/-- The gallery with a boss in it. -/
def guardedGallery : Script :=
  { Atlas.gallery with entities := .ofList [("Boss", { Entity.empty with visual := some "boss" })] }

theorem shows_iff_boss : Registry.builtins.KeepsSize ∧
    let s := prepared guardedGallery Registry.builtins []
    ∃ turn ∈ s.turns Held.nothing Geometry.empty (s.run [.spawn "Boss" 0 0] (World.start 12 11 0)),
      let after := (turn.finish s Held.nothing Geometry.empty).1.memory
      turn.spriteAddress < after.size ∧ turn.visual s = some "boss" ∧
        s.atlas.Shows (some "boss") (after.byte turn.spriteAddress) := by
  let s := prepared guardedGallery Registry.builtins []
  let turns := s.turns Held.nothing Geometry.empty (s.run [.spawn "Boss" 0 0] (World.start 12 11 0))
  obtain ⟨-, hfits, hshows⟩ := shows_iff guardedGallery Registry.builtins [] Held.nothing
    Geometry.empty (s.run [.spawn "Boss" 0 0] (World.start 12 11 0))
  have hvisual : turns.map (fun turn => turn.visual s) = [some "boss"] := by decide +kernel
  have hrange : s.atlas.range? "boss" = some ⟨5, 1⟩ := by decide +kernel
  obtain ⟨turn, hturn, hboss⟩ : ∃ turn ∈ turns, turn.visual s = some "boss" :=
    List.mem_map.mp (hvisual ▸ List.mem_singleton.mpr rfl)
  replace hfits := hfits Registry.builtins_keepsSize turn hturn
  refine ⟨Registry.builtins_keepsSize, turn, hturn, hfits, hboss, ?_⟩
  rw [← hboss]
  refine (hshows turn hturn hfits).mpr fun range h => ?_
  rw [hboss] at h
  obtain rfl := Option.some.inj (h.symm.trans hrange)
  decide

/-- A lamp whose sprite comes after a strip of as many frames as a sprite may have. -/
def lampSource : List Char :=
  ("Sprites:\n  strip: [\"0\", \"0\", \"255\"]\n  lamp: [\"0\", \"1\"]\n" ++
    "Entity.Lamp:\n  Visual: lamp\n").toList

/-- The script of `lampSource`. -/
def lampScript : Script :=
  { Script.empty with
    sprites := .ofList [("strip", .grid 0 0 255), ("lamp", .grid 0 1 1)]
    entities := .ofList [("Lamp", { Entity.empty with visual := some "lamp" })] }

set_option maxRecDepth 20000 in
theorem parse_lampSource : Script.parse lampSource = .ok lampScript := by
  have hread : Node.read lampSource = .ok (.map
      [("Sprites", .map [("strip", .list [.text "0", .text "0", .text "255"]),
        ("lamp", .list [.text "0", .text "1"])]),
      ("Entity.Lamp", .map [("Visual", .text "lamp")])]) := by cbv
  rw [Script.parse, hread]
  rfl

/-- The lamp has the number 256. It shows 255, which is the last frame of the strip. -/
theorem byte_shows_other_sprite : Script.parse lampSource = .ok lampScript ∧
    let s := prepared lampScript Registry.builtins []
    let w := s.run [.spawn "Lamp" 0 0] (World.start 12 11 0)
    (s.atlas.frame? 255).map SpriteFrame.name = some "strip" ∧
      ∃ turn ∈ s.turns Held.nothing Geometry.empty w,
        let after := (turn.finish s Held.nothing Geometry.empty).1.memory
        turn.visual s = some "lamp" ∧ s.atlas.range? "lamp" = some ⟨256, 1⟩ ∧
          after.byte turn.spriteAddress = 255 ∧
          ¬ s.atlas.Shows (turn.visual s) (after.byte turn.spriteAddress) := by
  let s := prepared lampScript Registry.builtins []
  let turns := s.turns Held.nothing Geometry.empty (s.run [.spawn "Lamp" 0 0] (World.start 12 11 0))
  refine ⟨parse_lampSource, by decide +kernel, ?_⟩
  have hturns : turns.map (fun turn => (turn.visual s,
      (turn.finish s Held.nothing Geometry.empty).1.memory.byte turn.spriteAddress)) =
      [(some "lamp", 255)] := by decide +kernel
  have hrange : s.atlas.range? "lamp" = some ⟨256, 1⟩ := by decide +kernel
  obtain ⟨turn, hturn, heq⟩ : ∃ turn ∈ turns, _ = (some "lamp", 255) :=
    List.mem_map.mp (hturns ▸ List.mem_singleton.mpr rfl)
  obtain ⟨hvisual, hbyte⟩ := Prod.mk.inj heq
  refine ⟨turn, hturn, hvisual, hrange, hbyte, ?_⟩
  rw [hvisual, hbyte, Atlas.Shows, Option.bind_some, hrange]
  decide

end Simulation

end PixelScene
