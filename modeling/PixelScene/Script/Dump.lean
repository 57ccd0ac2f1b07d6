import PixelScene.Script.Basic

/-!
# Scripts as JSON

`Script.toJson` writes everything that a script declares, in the order of declaration. What a script
leaves open is left out. The names of fields and their order are those that the engine writes;
sprites and layers are told apart by a field of their own.
-/

namespace PixelScene

/-! ## Parts -/

/-- A field that is left out when it has no value. -/
def Json.optionalField {α : Type} (name : String) (write : α → Json) :
    Option α → List (String × Json)
  | some a => [(name, write a)]
  | none => []

/-- A table as an object. -/
def Table.toJson {α : Type} (write : α → Json) (t : Table α) : Json :=
  .object (t.entries.map fun e => (e.1, write e.2))

/-- A dictionary as an object. -/
def Dictionary.toJson {α : Type} (write : α → Json) (d : Dictionary α) : Json :=
  .object (d.entries.map fun e => (e.1, write e.2))

/-- The components of an entity or of a state as JSON. -/
def componentsJson (components : Table Properties) : Json :=
  components.toJson fun p => .object p.entries

/-- A variable as JSON. -/
def Variable.toJson (v : Variable) : Json :=
  .object [("addr", .integer v.address), ("type", .text v.storage.name)]

/-- A state as JSON. -/
def StateRule.toJson (s : StateRule) : Json :=
  .object ([("condition", .text s.condition)] ++ Json.optionalField "visual" .text s.visual
    ++ [("components", componentsJson s.components)])

/-- An entity as JSON. -/
def Entity.toJson (e : Entity) : Json :=
  .object (Json.optionalField "visual" .text e.visual
    ++ [("inputs", e.inputs.toJson .text), ("components", componentsJson e.components),
      ("states", e.states.toJson StateRule.toJson)])

/-- An event as JSON. -/
def EventRule.toJson (e : EventRule) : Json :=
  .object [("trigger", .text e.trigger), ("actions", .list (e.actions.map .text))]

/-- A sprite as JSON, tagged with its kind. -/
def Sprite.toJson : Sprite → Json
  | grid column row frames =>
    .object [("kind", .text "grid"), ("col", .integer column), ("row", .integer row),
      ("frames", .integer frames)]
  | absolute x y width height offsetX offsetY =>
    .object [("kind", .text "absolute"), ("x", .integer x), ("y", .integer y),
      ("w", .integer width), ("h", .integer height), ("ox", .integer offsetX),
      ("oy", .integer offsetY)]

/-- A background as JSON. -/
def Background.toJson (b : Background) : Json :=
  .object (Json.optionalField "name" .text b.name
    ++ [("source", .text b.source), ("repeat", .bool b.repeats),
      ("parallaxX", .single b.parallaxX), ("parallaxY", .single b.parallaxY)])

/-- A layer as JSON, tagged with its kind. -/
def Layer.toJson : Layer → Json
  | entities => .object [("kind", .text "Entities")]
  | parallax source repeats x y =>
    .object [("kind", .text "Parallax"), ("source", .text source), ("repeat", .bool repeats),
      ("parallaxX", .single x), ("parallaxY", .single y)]
  | terrain source repeats =>
    .object [("kind", .text "Terrain"), ("source", .text source), ("repeat", .bool repeats)]
  | ui source => .object [("kind", .text "UI"), ("source", .text source)]

/-- A placement as JSON. -/
def Placement.toJson (p : Placement) : Json :=
  .object [("entity", .text p.entity), ("x", .integer p.x), ("y", .integer p.y)]

/-! ## Scripts -/

/-- A script as JSON. -/
def Script.toJson (s : Script) : Json :=
  .object (Json.optionalField "source" .text s.source
    ++ [("imports", .list (s.imports.map .text)), ("schema", s.globals.toJson Variable.toJson),
      ("entities", s.entities.toJson Entity.toJson),
      ("events", .list (s.events.map EventRule.toJson)),
      ("sprites", s.sprites.toJson Sprite.toJson)]
    ++ Json.optionalField "spriteGrid" (fun (n : Nat) => .integer n) s.spriteGrid
    ++ [("backgrounds", .list (s.backgrounds.map Background.toJson)),
      ("layers", .list (s.layers.map Layer.toJson)), ("inputs", s.inputs.toJson .text),
      ("instances", .list (s.placements.map Placement.toJson))])

end PixelScene
