import Mathlib.Data.List.Forall2
import PixelScene.Program.Options
import PixelScene.Proofs.Number.Digits
import PixelScene.Proofs.Outcome

/-!
# Command lines

The words of a command line are arguments one after the other: the path of a script, and flags with
a word each. A word behind a flag is never anything else than its value, however it looks.

* `Flag`, `Argument`: what a command line is made of.
* `Spells arguments o`: the arguments, in whatever order, set the options `o` and no others.
* `Options.extend_eq_ok_iff`: words are read as the arguments that they are.
* `Options.parse_eq_ok_iff_spells`: the command lines that give some options are those that spell
  them.

The statement is an equivalence over all lists of words: what is accepted, with which options, and
so also what is refused. Which of several refusals is reported is not part of it. Numbers are those
that `Number.word` reads, so a plus sign and zeros in front are allowed, and a blank is refused.
-/

namespace PixelScene

/-! ## Flags -/

/-- The flags of the player. -/
inductive Flag where
  | config
  | assets
  | save
  | width
  | height
  | frames
  | seed
deriving DecidableEq, Repr

/-- A part of a command line: the path of a script, or a flag and the word behind it. -/
inductive Argument where
  | script (path : String)
  | option (flag : Flag) (value : String)
deriving DecidableEq, Repr

namespace Flag

/-- How a flag is written. -/
def word : Flag → String
  | config => "--config"
  | assets => "--assets"
  | save => "--save"
  | width => "--width"
  | height => "--height"
  | frames => "--frames"
  | seed => "--seed"

/-- What a flag sets: a path or a number. -/
abbrev Value : Flag → Type
  | config | assets | save => String
  | width | height | frames | seed => Nat

/-- Any word is a path; a number is written as one of its numerals, and has at most 32 bits, or 64
if it is a seed. -/
def Denotes : (flag : Flag) → String → flag.Value → Prop
  | config, word, path | assets, word, path | save, word, path => word = path
  | width, word, n | height, word, n | frames, word, n =>
    Number.IsNumeral word.toList n ∧ n < 2 ^ 32
  | seed, word, n => Number.IsNumeral word.toList n ∧ n < 2 ^ 64

/-- All words behind a flag denote something, and the last of them replaces what was set before. -/
def Sets (flag : Flag) (before : Option flag.Value) (words : List String)
    (after : Option flag.Value) : Prop :=
  ∃ values, List.Forall₂ flag.Denotes words values ∧ values.getLast?.or before = after

section Sets

variable {flag : Flag} {before after : Option flag.Value}

theorem sets_nil_iff : flag.Sets before [] after ↔ before = after := by
  simp [Sets]

theorem sets_cons_iff {word : String} {words : List String} :
    flag.Sets before (word :: words) after ↔
      ∃ x, flag.Denotes word x ∧ flag.Sets (some x) words after := by
  simp only [Sets, List.forall₂_cons_left_iff]
  constructor
  · rintro ⟨_, ⟨x, values, hx, hvalues, rfl⟩, hlast⟩
    rw [List.getLast?_cons, Option.some_or, ← Option.or_some] at hlast
    exact ⟨x, hx, values, hvalues, hlast⟩
  · rintro ⟨x, hx, values, hvalues, hlast⟩
    rw [Option.or_some] at hlast
    exact ⟨x :: values, ⟨x, values, hx, hvalues, rfl⟩, by rwa [List.getLast?_cons]⟩

end Sets

theorem isFlag_word (flag : Flag) : Options.isFlag flag.word = true := by
  cases flag <;> rfl

end Flag

namespace Argument

/-- The words of an argument. -/
def words : Argument → List String
  | script path => [path]
  | option flag value => [flag.word, value]

/-- The path of a script. -/
def path? : Argument → Option String
  | script path => some path
  | option _ _ => none

/-- The word behind a flag. -/
def value? (flag : Flag) : Argument → Option String
  | script _ => none
  | option other value => if other = flag then some value else none

end Argument

namespace Options

/-- What a flag has set. -/
def get (o : Options) : (flag : Flag) → Option flag.Value
  | .config => o.config
  | .assets => o.assets
  | .save => o.save
  | .width => o.replacements.width
  | .height => o.replacements.height
  | .frames => o.replacements.frames
  | .seed => o.replacements.seed

/-- Options with what a flag sets. -/
def put (o : Options) : (flag : Flag) → flag.Value → Options
  | .config, path => { o with config := some path }
  | .assets, path => { o with assets := some path }
  | .save, path => { o with save := some path }
  | .width, n => { o with replacements := { o.replacements with width := some n } }
  | .height, n => { o with replacements := { o.replacements with height := some n } }
  | .frames, n => { o with replacements := { o.replacements with frames := some n } }
  | .seed, n => { o with replacements := { o.replacements with seed := some n } }

section Fields

variable {o o' : Options} {flag other : Flag} {x : flag.Value}

@[simp] theorem get_none : none.get flag = .none := by cases flag <;> rfl

@[simp] theorem get_put_self : (o.put flag x).get flag = some x := by cases flag <;> rfl

theorem get_put_of_ne (h : other ≠ flag) : (o.put flag x).get other = o.get other := by
  cases flag <;> cases other
  case config.config | assets.assets | save.save | width.width | height.height | frames.frames
    | seed.seed => exact absurd rfl h
  all_goals rfl

@[simp] theorem script_put : (o.put flag x).script = o.script := by cases flag <;> rfl

@[simp] theorem get_withScript (path : Option String) :
    ({ o with script := path } : Options).get flag = o.get flag := by cases flag <;> rfl

/-- Options are a script and what each flag has set. -/
theorem eq_of_get (hscript : o.script = o'.script) (hget : ∀ flag, o.get flag = o'.get flag) :
    o = o' := by
  obtain ⟨_, _, _, _, ⟨_, _, _, _⟩⟩ := o
  obtain ⟨_, _, _, _, ⟨_, _, _, _⟩⟩ := o'
  obtain rfl := hscript
  obtain rfl := hget .config
  obtain rfl := hget .assets
  obtain rfl := hget .save
  obtain rfl := hget .width
  obtain rfl := hget .height
  obtain rfl := hget .frames
  obtain rfl := hget .seed
  rfl

end Fields

/-! ## One flag -/

theorem number_eq_ok_iff {what value : String} {bits n : Nat} :
    number what (Number.twoTo bits - 1) value = .ok n ↔
      Number.IsNumeral value.toList n ∧ n < 2 ^ bits := by
  have hbits : n ≤ Number.twoTo bits - 1 ↔ n < 2 ^ bits :=
    (Nat.lt_iff_le_pred (Nat.two_pow_pos bits)).symm
  rw [number, mapError_eq_ok_iff, Number.word_eq_ok_iff, hbits]

/-- A flag sets what the word behind it denotes, and refuses a word that denotes nothing. -/
theorem set_word_eq_ok_iff {o o' : Options} {flag : Flag} {value : String} :
    o.set flag.word value = .ok o' ↔ ∃ x, flag.Denotes value x ∧ o.put flag x = o' := by
  have path (f : String → Options) :
      (pure (f value) : Except OptionsFault Options) = .ok o' ↔ ∃ x, value = x ∧ f x = o' := by
    rw [pure_eq_ok_iff, exists_eq_left']
  have natural (f : Nat → Options) (what : String) (bits : Nat) :
      (number what (Number.twoTo bits - 1) value >>= fun n => pure (f n)) = .ok o' ↔
        ∃ n, (Number.IsNumeral value.toList n ∧ n < 2 ^ bits) ∧ f n = o' := by
    simp only [bind_eq_ok_iff, number_eq_ok_iff, pure_eq_ok_iff]
  cases flag with
  | config => exact path (o.put .config)
  | assets => exact path (o.put .assets)
  | save => exact path (o.put .save)
  | width => exact natural (o.put .width) "width" 32
  | height => exact natural (o.put .height) "height" 32
  | frames => exact natural (o.put .frames) "frames" 32
  | seed => exact natural (o.put .seed) "seed" 64

/-- There are no other flags. -/
theorem exists_flag_of_set {o o' : Options} {word value : String}
    (h : o.set word value = .ok o') : ∃ flag : Flag, flag.word = word := by
  unfold set at h
  split at h
  · exact ⟨.config, rfl⟩
  · exact ⟨.assets, rfl⟩
  · exact ⟨.save, rfl⟩
  · exact ⟨.width, rfl⟩
  · exact ⟨.height, rfl⟩
  · exact ⟨.frames, rfl⟩
  · exact ⟨.seed, rfl⟩
  · cases h

/-! ## All arguments -/

/-- Some arguments turn options into others. The path of a script does not look like a flag, and
there is none if a script is set already. -/
structure Extends (o : Options) (arguments : List Argument) (o' : Options) : Prop where
  script : o.script.toList ++ arguments.filterMap Argument.path? = o'.script.toList
  plain : ∀ path ∈ arguments.filterMap Argument.path?, isFlag path = false
  flags : ∀ flag : Flag,
    flag.Sets (o.get flag) (arguments.filterMap (Argument.value? flag)) (o'.get flag)

section Extends

variable {o o' : Options} {arguments : List Argument}

theorem extends_nil_iff : o.Extends [] o' ↔ o = o' := by
  constructor
  · rintro ⟨hscript, -, hflags⟩
    refine eq_of_get ?_ fun flag => Flag.sets_nil_iff.mp (hflags flag)
    have hhead := congrArg List.head? hscript
    rwa [List.filterMap_nil, List.append_nil, Option.head?_toList, Option.head?_toList] at hhead
  · rintro rfl
    exact ⟨List.append_nil _, nofun, fun flag => Flag.sets_nil_iff.mpr rfl⟩

theorem extends_script_iff {path : String} :
    o.Extends (.script path :: arguments) o' ↔
      o.script = .none ∧ isFlag path = false ∧
        ({ o with script := some path } : Options).Extends arguments o' := by
  -- options have one path at most, so nothing stands in front of this one
  have hfirst (l : List String) : o.script.toList ++ path :: l = o'.script.toList ↔
      o.script = .none ∧ (some path).toList ++ l = o'.script.toList := by
    cases o.script <;> cases o'.script <;> simp
  constructor
  · rintro ⟨hscript, hplain, hflags⟩
    obtain ⟨hnone, hscript⟩ := (hfirst _).mp hscript
    obtain ⟨hpath, hplain⟩ := List.forall_mem_cons.mp hplain
    refine ⟨hnone, hpath, hscript, hplain, fun flag => ?_⟩
    rw [get_withScript]
    exact hflags flag
  · rintro ⟨hnone, hpath, hscript, hplain, hflags⟩
    refine ⟨(hfirst _).mpr ⟨hnone, hscript⟩, List.forall_mem_cons.mpr ⟨hpath, hplain⟩,
      fun flag => ?_⟩
    have hflag := hflags flag
    rwa [get_withScript] at hflag

theorem extends_option_iff {flag : Flag} {value : String} :
    o.Extends (.option flag value :: arguments) o' ↔
      ∃ x, flag.Denotes value x ∧ (o.put flag x).Extends arguments o' := by
  have hself : (Argument.option flag value :: arguments).filterMap (Argument.value? flag) =
      value :: arguments.filterMap (Argument.value? flag) :=
    List.filterMap_cons_some (if_pos rfl)
  have hother {other : Flag} (h : other ≠ flag) :
      (Argument.option flag value :: arguments).filterMap (Argument.value? other) =
        arguments.filterMap (Argument.value? other) :=
    List.filterMap_cons_none (if_neg h.symm)
  constructor
  · rintro ⟨hscript, hplain, hflags⟩
    have hflag := hflags flag
    rw [hself, Flag.sets_cons_iff] at hflag
    obtain ⟨x, hx, hsets⟩ := hflag
    refine ⟨x, hx, by rwa [script_put], hplain, fun other => ?_⟩
    obtain rfl | h := eq_or_ne other flag
    · rwa [get_put_self]
    · rw [get_put_of_ne h, ← hother h]
      exact hflags other
  · rintro ⟨x, hx, hscript, hplain, hflags⟩
    refine ⟨by rwa [script_put] at hscript, hplain, fun other => ?_⟩
    have hsets := hflags other
    obtain rfl | h := eq_or_ne other flag
    · rw [get_put_self] at hsets
      rw [hself]
      exact Flag.sets_cons_iff.mpr ⟨x, hx, hsets⟩
    · rwa [get_put_of_ne h, ← hother h] at hsets

end Extends

/-! ## Reading -/

section Reading

variable {o o' : Options}

theorem extend_script {path : String} {words : List String} (hpath : isFlag path = false)
    (hnone : o.script = .none) :
    o.extend (path :: words) = extend { o with script := some path } words := by
  rw [extend.eq_def]
  dsimp only
  rw [hpath, hnone]
  rfl

theorem extend_option {flag : Flag} {value : String} {words : List String} :
    o.extend (flag.word :: value :: words) =
      o.set flag.word value >>= fun o => o.extend words := by
  simp only [extend, flag.isFlag_word, if_true]

/-- Words are read as arguments from left to right. -/
theorem extend_eq_ok_iff {words : List String} :
    o.extend words = .ok o' ↔
      ∃ arguments : List Argument, arguments.flatMap Argument.words = words ∧
        o.Extends arguments o' := by
  constructor
  · intro h
    -- the arguments are those that the reader takes off the words, one in each round
    fun_induction extend o words with
    | case1 o =>
      obtain rfl := Except.ok.inj h
      exact ⟨[], rfl, extends_nil_iff.mpr rfl⟩
    | case2 | case4 => cases h
    | case3 o word _ value rest ih =>
      obtain ⟨o₁, hset, hrest⟩ := bind_eq_ok_iff.mp h
      obtain ⟨flag, rfl⟩ := exists_flag_of_set hset
      obtain ⟨x, hx, rfl⟩ := set_word_eq_ok_iff.mp hset
      obtain ⟨arguments, rfl, hextends⟩ := ih _ hrest
      exact ⟨.option flag value :: arguments, rfl, extends_option_iff.mpr ⟨x, hx, hextends⟩⟩
    | case5 o word rest hflag hscript ih =>
      obtain ⟨arguments, rfl, hextends⟩ := ih h
      exact ⟨.script word :: arguments, rfl, extends_script_iff.mpr
        ⟨Option.not_isSome_iff_eq_none.mp hscript, Bool.not_eq_true _ ▸ hflag, hextends⟩⟩
  · rintro ⟨arguments, rfl, h⟩
    induction arguments generalizing o with
    | nil => exact congrArg Except.ok (extends_nil_iff.mp h)
    | cons argument arguments ih =>
      rw [List.flatMap_cons]
      cases argument with
      | script path =>
        obtain ⟨hnone, hpath, hrest⟩ := extends_script_iff.mp h
        exact (extend_script hpath hnone).trans (ih hrest)
      | option flag value =>
        obtain ⟨x, hx, hrest⟩ := extends_option_iff.mp h
        have hset : o.set flag.word value = .ok (o.put flag x) :=
          set_word_eq_ok_iff.mpr ⟨x, hx, rfl⟩
        exact extend_option.trans (bind_eq_ok_iff.mpr ⟨_, hset, ih hrest⟩)

end Reading

/-! ## Command lines -/

/-- Arguments that set some options and no others, in any order: the path of the script stands there
once, if there is one, and does not look like a flag. Each flag stands there as often as one likes,
always with a word that denotes something, and the last of these words denotes what is set. -/
structure Spells (arguments : List Argument) (o : Options) : Prop where
  script : arguments.filterMap Argument.path? = o.script.toList
  plain : ∀ path ∈ o.script, ¬ "--".toList <+: path.toList
  flags : ∀ flag : Flag, ∃ values,
    List.Forall₂ flag.Denotes (arguments.filterMap (Argument.value? flag)) values ∧
      values.getLast? = o.get flag

theorem spells_iff_extends {arguments : List Argument} {o : Options} :
    Spells arguments o ↔ none.Extends arguments o := by
  have hplain (path : String) : isFlag path = false ↔ ¬ "--".toList <+: path.toList := by
    rw [isFlag, ← Bool.not_eq_true, List.isPrefixOf_iff_prefix]
  constructor
  · rintro ⟨hscript, hpath, hflags⟩
    refine ⟨hscript, fun path h => ?_, fun flag => ?_⟩
    · rw [hscript, Option.mem_toList] at h
      exact (hplain path).mpr (hpath path h)
    · simpa only [Flag.Sets, get_none, Option.or_none] using hflags flag
  · rintro ⟨hscript, hpath, hflags⟩
    change arguments.filterMap Argument.path? = o.script.toList at hscript
    refine ⟨hscript, fun path h => (hplain path).mp (hpath path ?_), fun flag => ?_⟩
    · rw [hscript]
      exact Option.mem_toList.mpr h
    · simpa only [Flag.Sets, get_none, Option.or_none] using hflags flag

/--
**A command line gives some options exactly if its arguments spell them**, the first word being the
name of the program. So it makes no difference in which order the arguments stand, nor what was given
to a flag before its last word, and a word behind a flag is taken for nothing but its value.
-/
theorem parse_eq_ok_iff_spells (program : String) (words : List String) (o : Options) :
    parse (program :: words) = .ok o ↔
      ∃ arguments : List Argument, arguments.flatMap Argument.words = words ∧
        Spells arguments o := by
  simp only [spells_iff_extends]
  exact extend_eq_ok_iff

/-- A path may look like a flag, and the last width counts. -/
example :
    parse ["player", "--save", "--seed", "--width", "7", "a.msc", "--assets", "b", "--width",
        "+08"] =
      .ok ⟨some "a.msc", .none, some "b", some "--seed", ⟨some 8, .none, .none, .none⟩⟩ := by
  decide +kernel

end Options

end PixelScene
