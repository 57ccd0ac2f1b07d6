import PixelScene.Component.Builtin
import PixelScene.Proofs.FirstWins
import PixelScene.Proofs.Memory.Slot

/-!
# What a component changes

A built-in component writes to the data of its own slot, and `Hitbox` to that of other slots. Three
kinds of writes go beyond that: `ScreenShake` shakes the camera, `Health` and `Lifetime` end their
entity, and `Spawner` puts a new one into a free slot.

* One lemma for each component says where it writes.
* `Component.screenShake_eq`: how far the screen is shaken, by any source of random numbers.
* `Registry.builtins_keeps`: a relation between memories that allows all this is kept by every
  built-in component.

The relation is a parameter: what a component changes is said once, by the kinds of writes that it
makes, and the statements about a tick take the relation that they need. Writes to the pool are told
apart by the bytes of a slot: the active byte and the type, which only ending and spawning touch,
and the data behind them.
-/

namespace PixelScene

open Memory (Within)

/-! ## Worlds and their memories -/

/-- What holds of two worlds when a relation holds between their memories. -/
def OnMemory (R : Memory → Memory → Prop) (w w' : World) : Prop := R w.memory w'.memory

/-- The same of two worlds of one tick, whose counts of ticks are equal. -/
def WithinTick (R : Memory → Memory → Prop) (w w' : World) : Prop :=
  w'.ticks = w.ticks ∧ OnMemory R w w'

section Tick

variable {R : Memory → Memory → Prop} [IsPreorder Memory R] {α : Type}

instance : IsPreorder World (WithinTick R) where
  refl w := ⟨rfl, Std.Refl.refl (r := R) w.memory⟩
  trans w w' w'' h h' :=
    ⟨h'.1.trans h.1, IsTrans.trans (r := R) w.memory w'.memory w''.memory h.2 h'.2⟩

omit [IsPreorder Memory R] in
theorem Tick.leaves_edit (e : Edit α) (w : World) :
    leaves (Tick.edit e) w = { w with memory := leaves e w.memory } := by
  unfold leaves Tick.edit
  cases e w.memory <;> rfl

omit [IsPreorder Memory R] in
theorem keeps_edit {e : Edit α} (h : Keeps R e) : Keeps (WithinTick R) (Tick.edit e) := by
  intro w
  rw [Tick.leaves_edit]
  exact ⟨rfl, h w.memory⟩

theorem keeps_tickRead (f : Memory → Except AccessError α) : Keeps (WithinTick R) (Tick.read f) :=
  keeps_edit (Edit.keeps_read f)

end Tick

namespace Component

/-! ## Looking around -/

section Looking

variable {R : Memory → Memory → Prop} [IsPreorder Memory R]

theorem center_keeps (slot : Nat) : Keeps (WithinTick R) (center slot) :=
  keeps_bind (keeps_tickRead _) fun _ => keeps_pure _

theorem others_keeps (slot : Nat) (p : Properties) (env : Surroundings) :
    Keeps (WithinTick R) (others slot p env) := keeps_get_bind fun _ => keeps_pure _ _

theorem anyPosition_keeps (test : Point → Bool) (slots : List Nat) :
    Keeps (WithinTick R) (anyPosition test slots) := by
  induction slots with
  | nil => exact keeps_pure _
  | cons slot slots ih =>
    exact keeps_bind (center_keeps slot) fun _ => keeps_ite (keeps_pure _) ih

end Looking

/-! ## Components that write to their own slot -/

section Own

variable (slot : Nat) (p : Properties) (env : Surroundings)

theorem gravity_within : Keeps (WithinTick (Within (slotData slot))) (gravity slot p env) :=
  keeps_bind (keeps_tickRead _) fun _ => keeps_edit (Edit.setVelocity_slotData slot _ _)

theorem kinematic_within : Keeps (WithinTick (Within (slotData slot))) (kinematic slot p env) :=
  keeps_bind (keeps_tickRead _) fun _ => keeps_bind (keeps_tickRead _) fun _ =>
    keeps_edit (Edit.setPosition_slotData slot _ _)

theorem friction_within : Keeps (WithinTick (Within (slotData slot))) (friction slot p env) :=
  keeps_bind (keeps_tickRead _) fun _ => keeps_edit (Edit.setVelocity_slotData slot _ _)

theorem bounds_within : Keeps (WithinTick (Within (slotData slot))) (bounds slot p env) := by
  refine keeps_get_bind fun w => ?_
  refine keeps_bind (keeps_tickRead _) (fun _ => ?_) w
  refine keeps_bind (keeps_tickRead _) fun _ => ?_
  exact keeps_bind (keeps_edit (Edit.setPosition_slotData slot _ _)) fun _ =>
    keeps_edit (Edit.setVelocity_slotData slot _ _)

theorem collider_within : Keeps (WithinTick (Within (slotData slot))) (collider slot p env) :=
  keeps_bind (center_keeps slot) fun _ =>
    keeps_ite (keeps_edit (Edit.setVelocity_slotData slot _ _)) (keeps_pure _)

theorem platformController_within :
    Keeps (WithinTick (Within (slotData slot))) (platformController slot p env) := by
  refine keeps_bind (center_keeps slot) fun _ => ?_
  refine keeps_bind (keeps_edit (Edit.setScratch_slotData slot _ _ _ _)) fun _ => ?_
  exact keeps_bind (keeps_tickRead _) fun _ => keeps_edit (Edit.setVelocity_slotData slot _ _)

theorem patrol_within : Keeps (WithinTick (Within (slotData slot))) (patrol slot p env) := by
  refine keeps_bind (keeps_tickRead _) fun _ => keeps_bind (center_keeps slot) fun _ => ?_
  refine keeps_bind (keeps_edit (Edit.setScratch_slotData slot _ _ _ _)) fun _ => ?_
  exact keeps_bind (keeps_tickRead _) fun _ => keeps_edit (Edit.setVelocity_slotData slot _ _)

theorem pathFollower_within :
    Keeps (WithinTick (Within (slotData slot))) (pathFollower slot p env) := by
  refine keeps_ite (keeps_pure _) (keeps_bind (keeps_tickRead _) fun stored => ?_)
  have hprogress : ∀ next, Keeps (WithinTick (Within (slotData slot)))
      (Tick.edit (Edit.setScratch slot env.scratch .int16 0 next)) :=
    fun next => keeps_edit (Edit.setScratch_slotData slot _ _ _ next)
  dsimp only
  split
  · exact keeps_bind (keeps_edit (Edit.setPosition_slotData slot _ _)) fun _ => hprogress _
  · exact hprogress _

theorem playerController_within :
    Keeps (WithinTick (Within (slotData slot))) (playerController slot p env) :=
  keeps_edit (Edit.setVelocity_slotData slot _ _)

theorem chase_within : Keeps (WithinTick (Within (slotData slot))) (chase slot p env) := by
  refine keeps_bind (center_keeps slot) fun _ => keeps_bind (others_keeps slot p env) fun _ => ?_
  refine keeps_bind (keeps_foldlM (fun _ _ => ?_) _ _) fun found => ?_
  · exact keeps_bind (center_keeps _) fun _ => keeps_pure _
  · cases found with
    | none => exact keeps_pure _
    | some found => exact keeps_edit (Edit.setVelocity_slotData slot _ _)

theorem interactable_within :
    Keeps (WithinTick (Within (slotData slot))) (interactable slot p env) := by
  refine keeps_bind (center_keeps slot) fun _ => keeps_ite ?_ ?_
  · refine keeps_bind (others_keeps slot p env) fun _ => keeps_bind (anyPosition_keeps _ _) fun _ => ?_
    exact keeps_edit (Edit.setScratch_slotData slot _ _ _ _)
  · exact keeps_edit (Edit.setScratch_slotData slot _ _ _ _)

theorem areaTrigger_within :
    Keeps (WithinTick (Within (slotData slot))) (areaTrigger slot p env) := by
  refine keeps_bind (center_keeps slot) fun _ => keeps_bind (others_keeps slot p env) fun _ => ?_
  exact keeps_bind (anyPosition_keeps _ _) fun _ =>
    keeps_edit (Edit.setScratch_slotData slot _ _ _ _)

theorem animator_within : Keeps (WithinTick (Within (slotData slot))) (animator slot p env) :=
  keeps_pure _

theorem camera_within : Keeps (WithinTick (Within (slotData slot))) (camera slot p env) :=
  keeps_bind (center_keeps slot) fun _ => keeps_get_bind fun w => ⟨rfl, .refl _ w.memory⟩

end Own

/-! ## Components that write elsewhere -/

section Elsewhere

variable (slot : Nat) (p : Properties) (env : Surroundings)

theorem hit_within (damage : Int) (knockback : Float32) (origin position : Point) (other : Nat) :
    Keeps (WithinTick (Within (slotData other))) (hit damage knockback origin position other) := by
  refine keeps_bind (keeps_tickRead _) fun _ => ?_
  refine keeps_bind (keeps_edit (Edit.setField_slotData (by decide) (by decide) other _)) fun _ => ?_
  refine keeps_ite ?_ (keeps_pure _)
  exact keeps_bind (keeps_tickRead _) fun _ => keeps_edit (Edit.setVelocity_slotData other _ _)

theorem hitbox_within : Keeps (WithinTick (Within poolData)) (hitbox slot p env) := by
  refine keeps_bind (center_keeps slot) fun _ => keeps_bind (others_keeps slot p env) fun _ => ?_
  refine keeps_forM (fun other => ?_) _
  refine keeps_bind (center_keeps other) fun _ => keeps_ite ?_ (keeps_pure _)
  exact (hit_within _ _ _ _ other).mono fun _ _ =>
    .imp_right (Within.mono (slotData_subset_poolData other))

theorem screenShake_within :
    Keeps (WithinTick (Within Edit.shakeCells)) (screenShake slot p env) := by
  refine keeps_get_bind fun w => ?_
  dsimp only
  -- the random numbers move on first, which leaves the memory as it is
  rw [leaves_set_bind, WithinTick, Tick.leaves_edit]
  exact ⟨rfl, Edit.setShake_within _ _ w.memory⟩

/-- Whatever the random numbers are, the screen is shaken by at most the intensity in each
direction. -/
theorem screenShake_eq (w : World) :
    let intensity := Number.wrapInt64 (p.rounded "intensity" 2).natAbs
    ∃ x y random,
      (Number.wrapInt64 (-intensity) ≤ x ∧ x ≤ intensity) ∧
      (Number.wrapInt64 (-intensity) ≤ y ∧ y ≤ intensity) ∧
      screenShake slot p env w = Tick.edit (Edit.setShake x y) { w with random := random } := by
  intro intensity
  have hrange : Number.wrapInt64 (-intensity) ≤ intensity :=
    Number.wrapInt64_neg_natAbs_le (p.rounded_mem "intensity" 2)
  exact ⟨_, _, _, w.random.between_mem hrange, Random.between_mem _ hrange, rfl⟩

variable {R : Memory → Memory → Prop} [IsPreorder Memory R] {slot}

theorem health_keeps (hend : Keeps R (Edit.setActive slot false)) :
    Keeps (WithinTick R) (health slot p env) :=
  keeps_bind (keeps_tickRead _) fun _ => keeps_ite (keeps_edit hend) (keeps_pure _)

theorem lifetime_keeps (hend : Keeps R (Edit.setActive slot false))
    (hdata : ∀ value, Keeps R (Edit.setScratch slot env.scratch .int8 0 value)) :
    Keeps (WithinTick R) (lifetime slot p env) := by
  refine keeps_bind (keeps_tickRead _) fun _ => keeps_ite (keeps_ite ?_ ?_) ?_
  · exact keeps_edit hend
  · exact keeps_edit (hdata _)
  · exact keeps_bind (keeps_edit (hdata _)) fun _ => keeps_ite (keeps_edit hend) (keeps_pure _)

theorem spawner_keeps
    (hspawn : ∀ name id, env.script.typeId? name = some id → ∀ x y,
      Keeps R (Edit.spawn id x y (env.script.freshHealth id)))
    (hdata : ∀ value, Keeps R (Edit.setScratch slot env.scratch .int8 0 value)) :
    Keeps (WithinTick R) (spawner slot p env) := by
  unfold spawner
  split
  · exact keeps_throw _
  · rename_i name _
    split
    · exact keeps_throw _
    · rename_i id hid
      refine keeps_bind (keeps_tickRead _) fun _ => keeps_ite ?_ (keeps_edit (hdata _))
      refine keeps_bind (keeps_tickRead _) fun _ => ?_
      exact keeps_bind (keeps_edit (hspawn name id hid _ _)) fun _ => keeps_edit (hdata _)

end Elsewhere

end Component

/-! ## The built-in components -/

section Builtins

open Component

variable {R : Memory → Memory → Prop} [IsPreorder Memory R]

/-- The relation allows what the components of an entity in a slot may do: write data of slots,
shake the camera, end the entity, and put fresh ones into free slots. -/
structure Allows (R : Memory → Memory → Prop) (script : Script) (slot : Nat) (ids : List String) :
    Prop where
  data : ∀ m m', Within poolData m m' → R m m'
  shaking : "ScreenShake" ∈ ids → ∀ m m', Within Edit.shakeCells m m' → R m m'
  ending : "Health" ∈ ids ∨ "Lifetime" ∈ ids → Keeps R (Edit.setActive slot false)
  spawning : "Spawner" ∈ ids → ∀ name type, script.typeId? name = some type → ∀ x y,
    Keeps R (Edit.spawn type x y (script.freshHealth type))

/-- Every built-in component keeps the count of ticks, and a relation between memories that allows
what it may do. -/
theorem Registry.builtins_keeps_withinTick {id : String} {component : Component}
    (h : Registry.builtins.get? id = some component) (slot : Nat) (p : Properties)
    (env : Surroundings) {ids : List String} (hid : id ∈ ids)
    (hallows : Allows R env.script slot ids) : Keeps (WithinTick R) (component.tick slot p env) := by
  have own : ∀ {x : Tick Unit}, Keeps (WithinTick (Within (slotData slot))) x →
      Keeps (WithinTick R) x :=
    fun hx => hx.mono fun _ _ => .imp_right fun hw =>
      hallows.data _ _ (hw.mono (slotData_subset_poolData slot))
  have hscratch : ∀ value, Keeps R (Edit.setScratch slot env.scratch .int8 0 value) :=
    fun value => (Edit.setScratch_slotData slot _ _ _ value).mono fun _ _ hw =>
      hallows.data _ _ (hw.mono (slotData_subset_poolData slot))
  -- one case for each entry of the registry, in its order
  have hmem := Dictionary.mem_of_get?_ofList h
  simp only [Component.builtins, List.mem_cons, Prod.mk.injEq, List.not_mem_nil, or_false] at hmem
  rcases hmem with ⟨rfl, rfl⟩ | ⟨rfl, rfl⟩ | ⟨rfl, rfl⟩ | ⟨rfl, rfl⟩ | ⟨rfl, rfl⟩ | ⟨rfl, rfl⟩ |
    ⟨rfl, rfl⟩ | ⟨rfl, rfl⟩ | ⟨rfl, rfl⟩ | ⟨rfl, rfl⟩ | ⟨rfl, rfl⟩ | ⟨rfl, rfl⟩ | ⟨rfl, rfl⟩ |
    ⟨rfl, rfl⟩ | ⟨rfl, rfl⟩ | ⟨rfl, rfl⟩ | ⟨rfl, rfl⟩ | ⟨rfl, rfl⟩ | ⟨rfl, rfl⟩
  · exact own (gravity_within slot p env)
  · exact own (kinematic_within slot p env)
  · exact own (collider_within slot p env)
  · exact own (friction_within slot p env)
  · exact own (playerController_within slot p env)
  · exact health_keeps p env (hallows.ending (.inl hid))
  · exact lifetime_keeps p env (hallows.ending (.inr hid)) hscratch
  · exact (hitbox_within slot p env).mono fun _ _ => .imp_right (hallows.data _ _)
  · exact own (platformController_within slot p env)
  · exact (screenShake_within slot p env).mono fun _ _ => .imp_right (hallows.shaking hid _ _)
  · exact own (camera_within slot p env)
  · exact own (interactable_within slot p env)
  · exact own (areaTrigger_within slot p env)
  · exact own (animator_within slot p env)
  · exact own (pathFollower_within slot p env)
  · exact own (patrol_within slot p env)
  · exact own (chase_within slot p env)
  · exact own (bounds_within slot p env)
  · exact spawner_keeps p env (hallows.spawning hid) hscratch

/-- Every built-in component keeps a relation that allows what it may do. -/
theorem Registry.builtins_keeps {id : String} {component : Component}
    (h : Registry.builtins.get? id = some component) (slot : Nat) (p : Properties)
    (env : Surroundings) {ids : List String} (hid : id ∈ ids)
    (hallows : Allows R env.script slot ids) : Keeps (OnMemory R) (component.tick slot p env) :=
  (builtins_keeps_withinTick h slot p env hid hallows).mono fun _ _ => And.right

end Builtins

end PixelScene
