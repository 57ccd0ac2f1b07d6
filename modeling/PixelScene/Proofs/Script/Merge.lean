import PixelScene.Proofs.FirstWins
import PixelScene.Script.Basic

/-!
# Merged scripts

`Script.absorb` folds one script into another. Imports nest, and so do the foldings; what comes out
depends only on the scripts that went in and on their order.

* `MergedFrom` ties a script to the list of scripts that it was merged from, and
  `MergedFrom.absorb` puts two such lists one after the other.
* `SameOwn` says what an import never touches.
* `MergedFrom.eq`: the parts determine the merged script, up to what an import never touches.
* `MergedFrom.of_eraseDups`: merging a script a second time shows in the events only.

Five sections of a script are merged (`merge_import`): variables, entities, sprites and bindings,
where the first definition of a name wins, and events, which are put one behind the other. The grid
of the sprites is the first one that is set. Everything else stays with the importer.
-/

namespace PixelScene

namespace Script

/-! ## What imports add to -/

/-- What the parts define together: the first definition of a name wins, names keep the order of
their first occurrence, and events come one part after the other. -/
structure MergedFrom (s : Script) (parts : List Script) : Prop where
  globals : s.globals.FirstWins (parts.map Script.globals)
  entities : s.entities.FirstWins (parts.map Script.entities)
  sprites : s.sprites.FirstWins (parts.map Script.sprites)
  inputs : s.inputs.FirstWins (parts.map Script.inputs)
  spriteGrid : s.spriteGrid = parts.findSome? Script.spriteGrid
  events : s.events = parts.flatMap Script.events

theorem MergedFrom.single (s : Script) : s.MergedFrom [s] where
  globals := .single s.globals
  entities := .single s.entities
  sprites := .single s.sprites
  inputs := .single s.inputs
  spriteGrid := by rw [List.findSome?_singleton]
  events := by rw [List.flatMap_singleton]

/-- **Folding one merged script into another puts their parts one after the other.** -/
theorem MergedFrom.absorb {s t : Script} {ps qs : List Script} (hs : s.MergedFrom ps)
    (ht : t.MergedFrom qs) : (s.absorb t).MergedFrom (ps ++ qs) where
  globals := by
    rw [List.map_append]
    exact hs.globals.union ht.globals
  entities := by
    rw [List.map_append]
    exact hs.entities.union ht.entities
  sprites := by
    rw [List.map_append]
    exact hs.sprites.union ht.sprites
  inputs := by
    rw [List.map_append]
    exact hs.inputs.union ht.inputs
  spriteGrid := by
    rw [List.findSome?_append, ← hs.spriteGrid, ← ht.spriteGrid]
    rfl
  events := by
    rw [List.flatMap_append, ← hs.events, ← ht.events]
    rfl

theorem absorb_empty (s : Script) : s.absorb empty = s := by
  cases s with
  | mk =>
    simp only [absorb, empty, List.append_nil, Option.or_none]
    rfl

/-! ## What imports never touch -/

/-- Two scripts agree on their pictures, their imports and their placements. -/
structure SameOwn (s t : Script) : Prop where
  source : s.source = t.source
  imports : s.imports = t.imports
  backgrounds : s.backgrounds = t.backgrounds
  layers : s.layers = t.layers
  placements : s.placements = t.placements

namespace SameOwn

theorem refl (s : Script) : SameOwn s s := ⟨rfl, rfl, rfl, rfl, rfl⟩

theorem symm {s t : Script} (h : SameOwn s t) : SameOwn t s :=
  ⟨h.source.symm, h.imports.symm, h.backgrounds.symm, h.layers.symm, h.placements.symm⟩

theorem trans {s t u : Script} (h : SameOwn s t) (h' : SameOwn t u) : SameOwn s u :=
  ⟨h.source.trans h'.source, h.imports.trans h'.imports, h.backgrounds.trans h'.backgrounds,
    h.layers.trans h'.layers, h.placements.trans h'.placements⟩

theorem of_absorb {s t u : Script} (h : SameOwn s (t.absorb u)) : SameOwn s t :=
  ⟨h.source, h.imports, h.backgrounds, h.layers, h.placements⟩

end SameOwn

/-- The parts determine what imports add to. -/
theorem MergedFrom.eq {s t : Script} {parts : List Script} (hs : s.MergedFrom parts)
    (ht : t.MergedFrom parts) (hown : SameOwn s t) : s = t := by
  have hglobals := hs.globals.eq ht.globals
  have hentities := hs.entities.eq ht.entities
  have hsprites := hs.sprites.eq ht.sprites
  have hinputs := hs.inputs.eq ht.inputs
  have hgrid := hs.spriteGrid.trans ht.spriteGrid.symm
  have hevents := hs.events.trans ht.events.symm
  obtain ⟨hsource, himports, hbackgrounds, hlayers, hplacements⟩ := hown
  cases s
  cases t
  simp only [mk.injEq]
  exact ⟨hsource, himports, hglobals, hentities, hevents, hsprites, hgrid, hbackgrounds, hlayers,
    hinputs, hplacements⟩

/-- **Merging a script a second time shows in the events only.** -/
theorem MergedFrom.of_eraseDups {ι : Type} [BEq ι] [LawfulBEq ι] {s : Script} {part : ι → Script}
    {l : List ι} (h : s.MergedFrom (l.eraseDups.map part)) :
    { s with events := (l.map part).flatMap Script.events }.MergedFrom (l.map part) where
  globals := by
    have hparts := h.globals
    rw [List.map_map] at hparts ⊢
    exact hparts.of_eraseDups
  entities := by
    have hparts := h.entities
    rw [List.map_map] at hparts ⊢
    exact hparts.of_eraseDups
  sprites := by
    have hparts := h.sprites
    rw [List.map_map] at hparts ⊢
    exact hparts.of_eraseDups
  inputs := by
    have hparts := h.inputs
    rw [List.map_map] at hparts ⊢
    exact hparts.of_eraseDups
  spriteGrid := by
    rw [List.findSome?_map, ← findSome?_eraseDups, ← List.findSome?_map]
    exact h.spriteGrid
  events := rfl

end Script

end PixelScene
