import PixelScene.Number.Decimal
import PixelScene.Settings

/-!
# Options of the player

The player takes the path of a script and options of two words each, in any order (`CliOverrides`).
An option that is given twice has its last value.

* `Options.parse` reads the words after the program name.
* `Options.parse_nil`: no words give no options.
* `OptionsFault` is what can be wrong with the words, with the wording and the cause that the player
  reports.

A word that begins with two dashes is an option wherever it stands, so no script has such a name;
the word after an option is its value, whatever it looks like. Numbers are bounded by 32 or by 64
bits.
-/

namespace PixelScene

/-- The options of a run. -/
structure Options where
  script : Option String
  config : Option String
  assets : Option String
  save : Option String
  replacements : Replacements
deriving DecidableEq, Repr

/-- Why the words of a command line are no options. -/
inductive OptionsFault where
  | secondScript (word : String)
  | missingValue (flag : String)
  | badNumber (what value : String) (cause : Number.WordFault)
  | unknownFlag (flag : String)
deriving DecidableEq, Repr

namespace OptionsFault

/-- The wording of a fault. -/
def message : OptionsFault → String
  | secondScript word => s!"Unexpected argument '{word}'. Only one script path may be given."
  | missingValue flag => s!"Expected a value after '{flag}'"
  | badNumber what value _ => s!"Invalid {what} '{value}'"
  | unknownFlag flag =>
    s!"Unknown flag '{flag}'. Supported flags: --config, --assets, --save, --width, --height, "
      ++ "--frames, --seed."

/-- The wording of a fault with its cause. -/
def fullMessage : OptionsFault → String
  | badNumber what value cause => s!"Invalid {what} '{value}': {cause.message}"
  | fault => fault.message

end OptionsFault

namespace Options

/-- No options. -/
def none : Options := ⟨.none, .none, .none, .none, ⟨.none, .none, .none, .none⟩⟩

instance : Inhabited Options := ⟨none⟩

/-- The number that a setting is replaced by. -/
def number (what : String) (high : Nat) (value : String) : Except OptionsFault Nat :=
  (Number.word high value.toList).mapError (.badNumber what value)

/-- Options with one more flag and its value. -/
def set (o : Options) (flag value : String) : Except OptionsFault Options := do
  match flag with
  | "--config" => return { o with config := some value }
  | "--assets" => return { o with assets := some value }
  | "--save" => return { o with save := some value }
  | "--width" =>
    let n ← number "width" Json.word32 value
    return { o with replacements := { o.replacements with width := some n } }
  | "--height" =>
    let n ← number "height" Json.word32 value
    return { o with replacements := { o.replacements with height := some n } }
  | "--frames" =>
    let n ← number "frames" Json.word32 value
    return { o with replacements := { o.replacements with frames := some n } }
  | "--seed" =>
    let n ← number "seed" Json.word64 value
    return { o with replacements := { o.replacements with seed := some n } }
  | _ => throw (.unknownFlag flag)

/-- Whether a word is a flag. -/
def isFlag (word : String) : Bool := "--".toList.isPrefixOf word.toList

/-- Options with some more words. -/
def extend (o : Options) : List String → Except OptionsFault Options
  | [] => .ok o
  | word :: more =>
    if isFlag word then
      match more with
      | [] => .error (.missingValue word)
      | value :: rest => do extend (← o.set word value) rest
    else if o.script.isSome then .error (.secondScript word)
    else extend { o with script := some word } more

/-- The options of a command line, whose first word is the name of the program. -/
def parse (words : List String) : Except OptionsFault Options := extend none (words.drop 1)

@[simp] theorem parse_nil : parse [] = .ok none := rfl

end Options

end PixelScene
