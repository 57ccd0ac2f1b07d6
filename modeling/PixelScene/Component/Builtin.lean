import PixelScene.Component.Life

/-!
# The built-in components

The table of the nineteen components that every script can name, with their scratch bytes and with
what they offer to conditions (`register_builtins`). What each of them does is in
`PixelScene.Component.Motion` and `PixelScene.Component.Life`; here they get their names.

Those that need scratch bytes need one, and `PathFollower` two, so an entity may attach four of the
smaller ones at once.
-/

namespace PixelScene

namespace Component

/-- The built-in components by name. -/
def builtins : List (String × Component) := [
  ("Gravity", ⟨gravity, none, 0⟩),
  ("Kinematic", ⟨kinematic, some kinematicContext, 0⟩),
  ("Collider", ⟨collider, none, 0⟩),
  ("Friction", ⟨friction, none, 0⟩),
  ("PlayerController", ⟨playerController, none, 0⟩),
  ("Health", ⟨health, some healthContext, 0⟩),
  ("Lifetime", ⟨lifetime, some (scratchContext "$lifetime"), 1⟩),
  ("Hitbox", ⟨hitbox, none, 0⟩),
  ("PlatformController", ⟨platformController, some platformContext, 1⟩),
  ("ScreenShake", ⟨screenShake, none, 0⟩),
  ("Camera", ⟨camera, none, 0⟩),
  ("Interactable", ⟨interactable, some (scratchContext "$triggered"), 1⟩),
  ("AreaTrigger", ⟨areaTrigger, some (scratchContext "$triggered"), 1⟩),
  ("Animator", ⟨animator, none, 0⟩),
  ("PathFollower", ⟨pathFollower, some pathContext, 2⟩),
  ("Patrol", ⟨patrol, none, 1⟩),
  ("Chase", ⟨chase, none, 0⟩),
  ("Bounds", ⟨bounds, none, 0⟩),
  ("Spawner", ⟨spawner, none, 1⟩)]

end Component

/-- The registry of the built-in components. -/
def Registry.builtins : Registry := Dictionary.ofList Component.builtins

end PixelScene
