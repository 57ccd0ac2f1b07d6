import PixelScene.Text.CaseTable

/-!
# Lower case

Text is put into lower case by the full mapping of the Unicode standard: each character has its own
lower-case form, the capital I with a dot becomes two characters, and a capital sigma at the end of
a word becomes a final sigma.

* `lowerCase_nil`, `lowerChar_ascii`: the small cases that pin the mapping down on ASCII.

What surrounds a sigma is looked at in the text as it was written (`nextIsCased`); the form of every
other character depends on the character alone.
-/

namespace PixelScene.Text

/-- The simple lower-case form of a character. -/
def lowerSimple (c : Char) : Char :=
  match lowerRuns.find? (·.contains c.toNat) with
  | some r => Char.ofNat (c.toNat + r.shift).toNat
  | none => c

/-- The lower-case form of a character outside ASCII, which may be two characters. -/
def lowerWide (c : Char) : List Char :=
  if c.toNat = 0x130 then ['i', Char.ofNat 0x307] else [lowerSimple c]

/-- The lower-case form of a character apart from its neighbours. -/
def lowerChar (c : Char) : List Char := if c.toNat < 128 then [c.toLower] else lowerWide c

/-- The capital sigma. -/
def capitalSigma : Char := Char.ofNat 0x3A3

/-- The sigma inside a word. -/
def smallSigma : Char := Char.ofNat 0x3C3

/-- The sigma at the end of a word. -/
def finalSigma : Char := Char.ofNat 0x3C2

/-- Whether the nearest character that is not skipped is a letter with case. -/
def nextIsCased (cs : List Char) : Bool :=
  match cs.dropWhile fun c => inRanges ignorableRanges c.toNat with
  | c :: _ => inRanges casedRanges c.toNat
  | [] => false

/-- The lower-case form of a text whose characters before it, last first, are `before`. -/
def lowerFrom (before : List Char) : List Char → List Char
  | [] => []
  | c :: cs =>
    let form :=
      if c = capitalSigma then
        [if nextIsCased before && !nextIsCased cs then finalSigma else smallSigma]
      else lowerChar c
    form ++ lowerFrom (c :: before) cs

/-- The text in lower case. -/
def lowerCase (cs : List Char) : List Char := lowerFrom [] cs

@[simp] theorem lowerCase_nil : lowerCase [] = [] := rfl

/-- An ASCII character has one lower-case form, the one that core gives it. -/
theorem lowerChar_ascii {c : Char} (h : c.toNat < 128) : lowerChar c = [c.toLower] := by
  simp [lowerChar, h]

end PixelScene.Text
