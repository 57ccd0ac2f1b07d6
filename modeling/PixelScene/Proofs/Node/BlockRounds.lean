import PixelScene.Proofs.Node.Block
import PixelScene.Proofs.Node.FlowRounds

/-!
# Blocks, read in rounds

The readers of `Node/Block.lean` as loops over the lines that are left and blocks that nest, which
stop unfinished when the rounds run out. The reader of values on one line is a parameter of them.

* `progresses_mapPass`, `progresses_listPass`: a pass of either loop that another one follows has
  taken its line, whatever the block in it takes.
* `further_of_block`: a block takes at least the line that it starts on.
* `block_ends`: a block ends in as many rounds as there are lines, and one more.
* `block_agrees`: what it comes to is what the reader returns.

The engine has one loop over the entries of a mapping and one over the items of a list, and calls
them for each other's values; a mapping that begins behind a dash goes on in the first of them with
an entry in hand. What is proved of a pass is proved for any reader of the blocks in it, so that the
induction over the nesting comes last and only once.
-/

namespace PixelScene.Node.InRounds

/-! ## The source in rounds -/

section Passes

variable (inline : List Char → Nat → Run ReadError Node) (block : Reading LogicalLine ReadError Node)

/-- The block on the lines deeper than `parent`, and nothing when there is none. -/
def nested (parent : Nat) : Reading LogicalLine ReadError Node
  | [] => pure (.null, [])
  | line :: more =>
    if parent < line.indent then block (line :: more) else pure (.null, line :: more)

/-- The value after a key in the given column: on its line, or on the deeper lines that follow. -/
def keyed (column number : Nat) (value : List Char) : Reading LogicalLine ReadError Node := fun ls =>
  if value.isEmpty then nested block column ls
  else do
    let node ← inline value number
    pure (node, ls)

/-- One pass over the entries of a block. -/
def mapPass (indent : Nat) (entries : List (String × Node)) :
    Reading LogicalLine ReadError (Pass (List (String × Node)) (List (String × Node)))
  | [] => pure (.done entries, [])
  | line :: more =>
    if line.indent ≠ indent then do
      Run.of (checkDedent indent (line :: more))
      pure (.done entries, line :: more)
    else if isItem line.text then throw ⟨line.number, .itemInMapping⟩
    else
      match splitKey? line.text with
      | none => throw ⟨line.number, .notAnEntry (String.ofList line.text)⟩
      | some (key, value) => do
        let (node, rest) ← keyed inline block indent line.number value more
        pure (.again (entries ++ [(String.ofList key, node)]), rest)

/-- The entries of a block, after those that stand before them. -/
def mapLoop (rounds indent : Nat) :
    List (String × Node) → Reading LogicalLine ReadError (List (String × Node)) :=
  loop (mapPass inline block indent) rounds

variable (map : Nat → List (String × Node) → Reading LogicalLine ReadError (List (String × Node)))

/-- The mapping that starts with an entry on the line of its dash and goes on over deeper lines. -/
def itemMap (indent : Nat) (first : String × Node) : Reading LogicalLine ReadError Node
  | [] => pure (.map [first], [])
  | line :: more =>
    if indent < line.indent then do
      let (entries, rest) ← map line.indent [first] (line :: more)
      pure (.map entries, rest)
    else pure (.map [first], line :: more)

/-- The value of an item whose dash stands at `indent` on line `number`. -/
def item (indent number : Nat) (text : List Char) : Reading LogicalLine ReadError Node := fun ls =>
  match itemForm (itemText text).1 with
  | .nothing => nested block indent ls
  | .value => do
    let node ← inline (itemText text).1 number
    pure (node, ls)
  | .entry key value => do
    let (node, rest) ← keyed inline block (indent + (itemText text).2) number value ls
    itemMap map indent (String.ofList key, node) rest

/-- One pass over the items of a block. -/
def listPass (indent : Nat) (items : List Node) :
    Reading LogicalLine ReadError (Pass (List Node) (List Node))
  | [] => pure (.done items, [])
  | line :: more =>
    if line.indent ≠ indent then do
      Run.of (checkDedent indent (line :: more))
      pure (.done items, line :: more)
    else if !isItem line.text then throw ⟨line.number, .entryInList⟩
    else do
      let (node, rest) ← item inline block map indent line.number line.text more
      pure (.again (items ++ [node]), rest)

/-- The items of a block. -/
def listLoop (rounds indent : Nat) : List Node → Reading LogicalLine ReadError (List Node) :=
  loop (listPass inline block (mapLoop inline block rounds) indent) rounds

end Passes

section Blocks

variable (inline : List Char → Nat → Run ReadError Node)

/-- The block that starts on the first line, with the rounds that the blocks inside it have. -/
def block : (rounds : Nat) → Reading LogicalLine ReadError Node
  | 0, _ => Run.unfinished
  | _ + 1, [] => pure (.null, [])
  | rounds + 1, line :: more =>
    if isItem line.text then do
      let (items, rest) ← listLoop inline (block rounds) (rounds + 1) line.indent [] (line :: more)
      pure (.list items, rest)
    else do
      let (entries, rest) ← mapLoop inline (block rounds) (rounds + 1) line.indent [] (line :: more)
      pure (.map entries, rest)

/-- The node of a whole script: no line may be left behind it. -/
def atEnd : Node × List LogicalLine → Run ReadError Node
  | (node, []) => pure node
  | (_, line :: _) => throw ⟨line.number, .dedentBelowTop⟩

/-- The tree of the logical lines of a script. -/
def ofLines (rounds : Nat) (ls : List LogicalLine) : Run ReadError Node :=
  if ls.isEmpty then pure (.map []) else block inline rounds ls >>= atEnd

end Blocks

/-- The tree of a script. -/
def read (rounds : Nat) (source : List Char) : Run ReadError Node :=
  ofLines (inline rounds) rounds (logicalLines source)

/-! ## Moving on -/

section Moving

variable {inline : List Char → Nat → Run ReadError Node} {block : Reading LogicalLine ReadError Node}
  {map : Nat → List (String × Node) → Reading LogicalLine ReadError (List (String × Node))}
  {indent : Nat} {ls rest : List LogicalLine}
  (hblock : Takes block) (hmap : ∀ indent entries, Takes (map indent entries))

include hblock

theorem takes_nested (parent : Nat) : Takes (nested block parent) := by
  intro ls node rest h
  cases ls with
  | nil =>
    cases Run.returns_pure_iff.mp h
    exact List.suffix_rfl
  | cons line more =>
    rw [nested] at h
    split at h
    · exact hblock _ node rest h
    · cases Run.returns_pure_iff.mp h
      exact List.suffix_rfl

theorem takes_keyed (column number : Nat) (value : List Char) :
    Takes (keyed inline block column number value) := by
  intro ls node rest h
  unfold keyed at h
  split at h
  · exact takes_nested hblock column ls node rest h
  · obtain ⟨node', -, h⟩ := Run.returns_bind_iff.mp h
    cases Run.returns_pure_iff.mp h
    exact List.suffix_rfl

/-! ### Mappings -/

/-- A pass over the entries takes a line, unless the block ends before one of another
indentation. -/
theorem mapPass_returns {entries : List (String × Node)}
    {r : Pass (List (String × Node)) (List (String × Node))}
    (h : (mapPass inline block indent entries ls).Returns (r, rest)) :
    Further ls rest ∨ rest = ls ∧ r = .done entries ∧ ∀ line ∈ ls.head?, line.indent ≠ indent := by
  cases ls with
  | nil =>
    cases Run.returns_pure_iff.mp h
    exact .inr ⟨rfl, rfl, nofun⟩
  | cons line more =>
    rw [mapPass] at h
    split at h
    case isTrue hne =>
      obtain ⟨_, -, h⟩ := Run.returns_bind_iff.mp h
      cases Run.returns_pure_iff.mp h
      exact .inr ⟨rfl, rfl, fun l hl => Option.some.inj hl ▸ hne⟩
    case isFalse =>
      split at h
      · exact absurd h Run.not_returns_throw
      · split at h
        · exact absurd h Run.not_returns_throw
        · obtain ⟨⟨node, left⟩, hvalue, h⟩ := Run.returns_bind_iff.mp h
          cases Run.returns_pure_iff.mp h
          exact .inl ((further_cons line more).trans_suffix (takes_keyed hblock _ _ _ _ _ _ hvalue))

theorem takes_mapPass (entries : List (String × Node)) :
    Takes (mapPass inline block indent entries) := by
  intro ls r rest h
  rcases mapPass_returns hblock h with hfurther | ⟨rfl, -⟩
  · exact hfurther.suffix
  · exact List.suffix_rfl

theorem progresses_mapPass : Progresses (mapPass inline block indent) := by
  intro entries ls entries' rest h
  rcases mapPass_returns hblock h with hfurther | ⟨-, hdone, -⟩
  · exact hfurther
  · exact absurd hdone nofun

theorem takes_mapLoop (rounds indent : Nat) (entries : List (String × Node)) :
    Takes (mapLoop inline block rounds indent entries) :=
  takes_loop (takes_mapPass hblock) rounds entries

/-! ### Lists -/

include hmap

omit hblock in
theorem takes_itemMap (first : String × Node) : Takes (itemMap map indent first) := by
  intro ls node rest h
  cases ls with
  | nil =>
    cases Run.returns_pure_iff.mp h
    exact List.suffix_rfl
  | cons line more =>
    rw [itemMap] at h
    split at h
    · obtain ⟨⟨entries, left⟩, hloop, h⟩ := Run.returns_bind_iff.mp h
      cases Run.returns_pure_iff.mp h
      exact hmap _ _ _ _ _ hloop
    · cases Run.returns_pure_iff.mp h
      exact List.suffix_rfl

theorem takes_item (number : Nat) (text : List Char) :
    Takes (item inline block map indent number text) := by
  intro ls node rest h
  unfold item at h
  split at h
  · exact takes_nested hblock indent ls node rest h
  · obtain ⟨node', -, h⟩ := Run.returns_bind_iff.mp h
    cases Run.returns_pure_iff.mp h
    exact List.suffix_rfl
  · obtain ⟨⟨node', left⟩, hvalue, h⟩ := Run.returns_bind_iff.mp h
    exact (takes_itemMap hmap _ _ _ _ h).trans (takes_keyed hblock _ _ _ _ _ _ hvalue)

/-- A pass over the items takes a line, unless the block ends before one of another indentation. -/
theorem listPass_returns {items : List Node} {r : Pass (List Node) (List Node)}
    (h : (listPass inline block map indent items ls).Returns (r, rest)) :
    Further ls rest ∨ rest = ls ∧ r = .done items ∧ ∀ line ∈ ls.head?, line.indent ≠ indent := by
  cases ls with
  | nil =>
    cases Run.returns_pure_iff.mp h
    exact .inr ⟨rfl, rfl, nofun⟩
  | cons line more =>
    rw [listPass] at h
    split at h
    case isTrue hne =>
      obtain ⟨_, -, h⟩ := Run.returns_bind_iff.mp h
      cases Run.returns_pure_iff.mp h
      exact .inr ⟨rfl, rfl, fun l hl => Option.some.inj hl ▸ hne⟩
    case isFalse =>
      split at h
      · exact absurd h Run.not_returns_throw
      · obtain ⟨⟨node, left⟩, hitem, h⟩ := Run.returns_bind_iff.mp h
        cases Run.returns_pure_iff.mp h
        exact .inl ((further_cons line more).trans_suffix (takes_item hblock hmap _ _ _ _ _ hitem))

theorem takes_listPass (items : List Node) : Takes (listPass inline block map indent items) := by
  intro ls r rest h
  rcases listPass_returns hblock hmap h with hfurther | ⟨rfl, -⟩
  · exact hfurther.suffix
  · exact List.suffix_rfl

theorem progresses_listPass : Progresses (listPass inline block map indent) := by
  intro items ls items' rest h
  rcases listPass_returns hblock hmap h with hfurther | ⟨-, hdone, -⟩
  · exact hfurther
  · exact absurd hdone nofun

end Moving

/-! ### Blocks -/

section TakingLines

variable {inline : List Char → Nat → Run ReadError Node} {line : LogicalLine}
  {more rest : List LogicalLine}

/-- A block takes a front of the lines, and the first of them at least. -/
theorem block_returns (rounds : Nat) {ls : List LogicalLine} {node : Node}
    (h : (block inline rounds ls).Returns (node, rest)) : Further ls rest ∨ ls = [] ∧ rest = [] := by
  induction rounds generalizing ls node rest with
  | zero => exact absurd h.symm (Run.of_ne_unfinished _)
  | succ rounds ih =>
    have hblock : Takes (block inline rounds) := by
      intro ls node rest h
      rcases ih h with hfurther | ⟨rfl, rfl⟩
      · exact hfurther.suffix
      · exact List.suffix_rfl
    have hmap : ∀ indent entries,
        Takes (mapLoop inline (block inline rounds) (rounds + 1) indent entries) :=
      takes_mapLoop hblock (rounds + 1)
    cases ls with
    | nil =>
      cases Run.returns_pure_iff.mp h
      exact .inr ⟨rfl, rfl⟩
    | cons line more =>
      -- the line has the indentation of its block, so the first pass does not end the loop there
      rw [block] at h
      split at h
      · obtain ⟨⟨items, left⟩, hloop, h⟩ := Run.returns_bind_iff.mp h
        cases Run.returns_pure_iff.mp h
        refine .inl (further_of_loop (takes_listPass hblock hmap) (fun r left hpass => ?_) hloop)
        exact (listPass_returns hblock hmap hpass).resolve_right fun hend => hend.2.2 line rfl rfl
      · obtain ⟨⟨entries, left⟩, hloop, h⟩ := Run.returns_bind_iff.mp h
        cases Run.returns_pure_iff.mp h
        refine .inl (further_of_loop (takes_mapPass hblock) (fun r left hpass => ?_) hloop)
        exact (mapPass_returns hblock hpass).resolve_right fun hend => hend.2.2 line rfl rfl

/-- **A block takes at least the line that it starts on.** -/
theorem further_of_block {rounds : Nat} {node : Node}
    (h : (block inline rounds (line :: more)).Returns (node, rest)) : Further (line :: more) rest :=
  (block_returns rounds h).resolve_right fun hnil => List.cons_ne_nil line more hnil.1

theorem takes_block (rounds : Nat) : Takes (block inline rounds) := by
  intro ls node rest h
  rcases block_returns rounds h with hfurther | ⟨rfl, rfl⟩
  · exact hfurther.suffix
  · exact List.suffix_rfl

end TakingLines

/-! ## Ending -/

/-- The text after the colon of a key is a part of the line. -/
theorem cutColon?_suffix {quote : Option Char} {depth : Int} {cs before after : List Char}
    (h : cutColon? quote depth cs = some (before, after)) : after <:+ cs := by
  fun_induction cutColon? quote depth cs generalizing before after with
  | case1 => cases h
  | case2 depth c cs hcolon =>
    cases h
    exact List.suffix_cons c cs
  | case3 depth c cs _ ih =>
    obtain ⟨r, hr, heq⟩ := Option.map_eq_some_iff.mp h
    cases heq
    exact (ih hr).trans (List.suffix_cons c cs)
  | case4 => cases h
  | case5 q depth c cs ih =>
    obtain ⟨r, hr, heq⟩ := Option.map_eq_some_iff.mp h
    cases heq
    exact (ih hr).trans ((List.suffix_cons c cs).trans (List.suffix_cons '\\' _))
  | case6 q depth c cs _ _ ih =>
    obtain ⟨r, hr, heq⟩ := Option.map_eq_some_iff.mp h
    cases heq
    exact (ih hr).trans (List.suffix_cons c cs)

theorem splitKey?_length {cs key value : List Char} (h : splitKey? cs = some (key, value)) :
    value.length ≤ cs.length := by
  unfold splitKey? at h
  split at h
  · cases h
  · rename_i before after hcut
    simp only at h
    split at h
    · cases h
    · cases h
      exact (Text.length_trim_le after).trans (cutColon?_suffix hcut).length_le

theorem itemText_length (cs : List Char) : (itemText cs).1.length ≤ cs.length :=
  (trimStart_suffix _).length_le.trans (List.drop_suffix 1 cs).length_le

theorem itemForm_entry {cs key value : List Char} (h : itemForm cs = .entry key value) :
    splitKey? cs = some (key, value) := by
  unfold itemForm at h
  split at h
  · cases h
  · split at h
    · cases h
    · split at h
      · rename_i key' value' hsplit
        cases h
        exact hsplit
      · cases h

/-- The values that may stand on the lines end. -/
def ValuesEnd (inline : List Char → Nat → Run ReadError Node) (ls : List LogicalLine) : Prop :=
  ∀ line ∈ ls, ∀ text number, text.length ≤ line.text.length → (inline text number).Ends

section Ending

variable {inline : List Char → Nat → Run ReadError Node} {block : Reading LogicalLine ReadError Node}
  {map : Nat → List (String × Node) → Reading LogicalLine ReadError (List (String × Node))}
  {ls : List LogicalLine}

theorem ValuesEnd.suffix {rest : List LogicalLine} (h : ValuesEnd inline ls) (hrest : rest <:+ ls) :
    ValuesEnd inline rest :=
  fun line hline => h line (hrest.mem hline)

theorem nested_ends (hblock : (block ls).Ends) (parent : Nat) : (nested block parent ls).Ends := by
  cases ls with
  | nil => exact Run.ends_pure _
  | cons line more =>
    rw [nested]
    split
    · exact hblock
    · exact Run.ends_pure _

theorem keyed_ends {number : Nat} {value : List Char} (hinline : (inline value number).Ends)
    (hblock : (block ls).Ends) (column : Nat) : (keyed inline block column number value ls).Ends := by
  unfold keyed
  split
  · exact nested_ends hblock column
  · exact hinline.bind fun _ _ => Run.ends_pure _

theorem mapPass_ends (hinline : ValuesEnd inline ls)
    (hblock : ∀ rest, Further ls rest → (block rest).Ends) (indent : Nat)
    (entries : List (String × Node)) : (mapPass inline block indent entries ls).Ends := by
  cases ls with
  | nil => exact Run.ends_pure _
  | cons line more =>
    rw [mapPass]
    split
    · exact (Run.ends_of _).bind fun _ _ => Run.ends_pure _
    · split
      · exact Run.ends_throw _
      · split
        · exact Run.ends_throw _
        · rename_i key value hsplit
          have hvalue := hinline line List.mem_cons_self value line.number (splitKey?_length hsplit)
          refine (keyed_ends hvalue (hblock more (further_cons line more)) indent).bind fun _ _ => ?_
          exact Run.ends_pure _

theorem mapLoop_ends (hinline : ValuesEnd inline ls) (htakes : Takes block)
    (hblock : ∀ rest, Further ls rest → (block rest).Ends) {rounds : Nat} (hrounds : ls.length < rounds)
    (indent : Nat) (entries : List (String × Node)) :
    (mapLoop inline block rounds indent entries ls).Ends := by
  refine loop_ends (progresses_mapPass htakes) (fun entries rest hrest => ?_) hrounds
  exact mapPass_ends (hinline.suffix hrest) (fun left hleft => hblock left (hleft.of_suffix hrest))
    indent entries

theorem itemMap_ends (hmap : ∀ indent entries, (map indent entries ls).Ends) (indent : Nat)
    (first : String × Node) : (itemMap map indent first ls).Ends := by
  cases ls with
  | nil => exact Run.ends_pure _
  | cons line more =>
    rw [itemMap]
    split
    · exact (hmap _ _).bind fun _ _ => Run.ends_pure _
    · exact Run.ends_pure _

theorem item_ends {text : List Char} {number : Nat}
    (hinline : ∀ value : List Char, value.length ≤ text.length → (inline value number).Ends)
    (htakes : Takes block) (hblock : (block ls).Ends)
    (hmap : ∀ indent entries rest, rest <:+ ls → (map indent entries rest).Ends) (indent : Nat) :
    (item inline block map indent number text ls).Ends := by
  unfold item
  split
  · exact nested_ends hblock indent
  · exact (hinline _ (itemText_length text)).bind fun _ _ => Run.ends_pure _
  · rename_i key value hform
    have hvalue := hinline value
      ((splitKey?_length (itemForm_entry hform)).trans (itemText_length text))
    refine (keyed_ends hvalue hblock _).bind fun r hread => ?_
    obtain ⟨node, rest⟩ := r
    have hrest : rest <:+ ls := takes_keyed htakes _ _ _ _ _ _ hread
    exact itemMap_ends (fun indent entries => hmap indent entries rest hrest) indent _

theorem listPass_ends (hinline : ValuesEnd inline ls) (htakes : Takes block)
    (hblock : ∀ rest, Further ls rest → (block rest).Ends)
    (hmap : ∀ indent entries rest, rest <:+ ls → (map indent entries rest).Ends) (indent : Nat)
    (items : List Node) : (listPass inline block map indent items ls).Ends := by
  cases ls with
  | nil => exact Run.ends_pure _
  | cons line more =>
    rw [listPass]
    split
    · exact (Run.ends_of _).bind fun _ _ => Run.ends_pure _
    · split
      · exact Run.ends_throw _
      · refine Run.Ends.bind ?_ fun _ _ => Run.ends_pure _
        refine item_ends (fun value => hinline line List.mem_cons_self value line.number) htakes
          (hblock more (further_cons line more)) (fun indent entries rest hrest => ?_) indent
        exact hmap indent entries rest (hrest.trans (List.suffix_cons line more))

theorem listLoop_ends (hinline : ValuesEnd inline ls) (htakes : Takes block)
    (hblock : ∀ rest, Further ls rest → (block rest).Ends) {rounds : Nat} (hrounds : ls.length < rounds)
    (indent : Nat) (items : List Node) : (listLoop inline block rounds indent items ls).Ends := by
  have hmap : ∀ indent entries rest, rest <:+ ls → (mapLoop inline block rounds indent entries rest).Ends :=
    fun indent entries rest hrest => mapLoop_ends (hinline.suffix hrest) htakes
      (fun left hleft => hblock left (hleft.of_suffix hrest))
      (Nat.lt_of_le_of_lt hrest.length_le hrounds) indent entries
  refine loop_ends (progresses_listPass htakes (takes_mapLoop htakes rounds))
    (fun items rest hrest => ?_) hrounds
  exact listPass_ends (hinline.suffix hrest) htakes
    (fun left hleft => hblock left (hleft.of_suffix hrest))
    (fun indent entries left hleft => hmap indent entries left (hleft.trans hrest)) indent items

end Ending

/-- **A block ends**: it needs no more rounds than there are lines, and one. -/
theorem block_ends {inline : List Char → Nat → Run ReadError Node} {rounds : Nat}
    {ls : List LogicalLine} (hinline : ValuesEnd inline ls) (h : ls.length < rounds) :
    (block inline rounds ls).Ends := by
  induction rounds generalizing ls with
  | zero => exact absurd h (Nat.not_lt_zero _)
  | succ rounds ih =>
    cases ls with
    | nil => exact Run.ends_pure _
    | cons line more =>
      -- a block inside starts further on, which makes up for the round that it has less
      have hblock : ∀ rest, Further (line :: more) rest → (block inline rounds rest).Ends :=
        fun rest hrest => ih (hinline.suffix hrest.suffix)
          (Nat.lt_of_lt_of_le hrest.2 (Nat.le_of_lt_succ h))
      rw [block]
      split
      · exact (listLoop_ends hinline (takes_block rounds) hblock h _ _).bind fun _ _ => Run.ends_pure _
      · exact (mapLoop_ends hinline (takes_block rounds) hblock h _ _).bind fun _ _ => Run.ends_pure _

/-! ## Agreeing with the readers -/

/-- The reader of values on one line as a run. -/
def wholeInline (text : List Char) (number : Nat) : Run ReadError Node :=
  Run.of (parseInline text number)

/-- The reader of blocks as a run. -/
def wholeBlock : Reading LogicalLine ReadError Node := fun ls => ofReader (readBlock ls)

/-- The entries that the reader adds to those before. -/
def wholeMap (indent : Nat) (entries : List (String × Node)) :
    Reading LogicalLine ReadError (List (String × Node)) := fun ls =>
  ofReader (readMap indent ls) >>= addTo entries

/-- The items that the reader adds to those before. -/
def wholeList (indent : Nat) (items : List Node) : Reading LogicalLine ReadError (List Node) :=
  fun ls => ofReader (readList indent ls) >>= addTo items

theorem ofReader_readNested (parent : Nat) (ls : List LogicalLine) :
    ofReader (readNested parent ls) = nested wholeBlock parent ls := by
  cases ls with
  | nil =>
    rw [readNested]
    rfl
  | cons line more =>
    rw [readNested, nested]
    split
    · rfl
    · rfl

/-- The entries that the reader adds are those that the passes of the loop add. -/
theorem solves_wholeMap (indent : Nat) :
    Solves (mapPass wholeInline wholeBlock indent) (wholeMap indent) := by
  intro entries ls
  cases ls with
  | nil =>
    rw [wholeMap, readMap]
    exact addTo_none entries []
  | cons line more =>
    rw [wholeMap, readMap, mapPass]
    split
    case isTrue =>
      rw [bind_assoc]
      refine ofReader_step_then fun _ => ?_
      exact addTo_none entries (line :: more)
    case isFalse =>
      split
      case isTrue => rfl
      case isFalse =>
        cases hsplit : splitKey? line.text with
        | none => rfl
        | some entry =>
          obtain ⟨key, value⟩ := entry
          simp only [bind_assoc]
          unfold keyed
          split
          case isTrue =>
            rw [← ofReader_readNested]
            refine ofReader_bind_then fun r _ => ?_
            obtain ⟨node, rest⟩ := r
            exact ofReader_cons fun _ _ => ⟨_, rfl⟩
          case isFalse =>
            rw [bind_assoc]
            refine ofReader_step_then fun node => ?_
            exact ofReader_cons fun _ _ => ⟨_, rfl⟩

theorem ofReader_readItemMap (indent : Nat) (first : String × Node) (ls : List LogicalLine) :
    ofReader (readItemMap indent first ls) = itemMap wholeMap indent first ls := by
  cases ls with
  | nil =>
    rw [readItemMap]
    rfl
  | cons line more =>
    rw [readItemMap, itemMap]
    split
    · rw [wholeMap, bind_assoc]
      exact ofReader_bind fun _ _ => rfl
    · rfl

theorem ofReader_readItem (indent number : Nat) (text : List Char) (ls : List LogicalLine) :
    ofReader (readItem indent number text ls) =
      item wholeInline wholeBlock wholeMap indent number text ls := by
  rw [readItem]
  unfold item
  cases itemForm (itemText text).1 with
  | nothing => exact ofReader_readNested indent ls
  | value => exact ofReader_step fun _ => rfl
  | entry key value =>
    simp only [keyed, ← ofReader_readItemMap]
    split
    · rw [← ofReader_readNested]
      refine ofReader_bind fun ⟨node, rest⟩ _ => ?_
      exact (ofReader_bind fun _ _ => rfl).trans (bind_pure _)
    · rw [bind_assoc]
      exact ofReader_step fun node => rfl

/-- The items that the reader adds are those that the passes of the loop add. -/
theorem solves_wholeList (indent : Nat) :
    Solves (listPass wholeInline wholeBlock wholeMap indent) (wholeList indent) := by
  intro items ls
  cases ls with
  | nil =>
    rw [wholeList, readList]
    exact addTo_none items []
  | cons line more =>
    rw [wholeList, readList, listPass]
    split
    case isTrue =>
      rw [bind_assoc]
      refine ofReader_step_then fun _ => ?_
      exact addTo_none items (line :: more)
    case isFalse =>
      split
      case isTrue => rfl
      case isFalse =>
        rw [bind_assoc, ← ofReader_readItem]
        refine ofReader_bind_then fun r _ => ?_
        obtain ⟨item, rest⟩ := r
        exact ofReader_cons fun _ _ => ⟨_, rfl⟩

/-- The reader of blocks goes on from the first line as the rounds do. -/
theorem wholeBlock_cons (line : LogicalLine) (more : List LogicalLine) :
    wholeBlock (line :: more) =
      if isItem line.text then (do
        let (items, rest) ← wholeList line.indent [] (line :: more)
        pure (.list items, rest))
      else (do
        let (entries, rest) ← wholeMap line.indent [] (line :: more)
        pure (.map entries, rest)) := by
  rw [wholeBlock, readBlock, wholeList, wholeMap, addTo_nil, addTo_nil, bind_pure, bind_pure]
  split
  · exact ofReader_bind fun _ _ => rfl
  · exact ofReader_bind fun _ _ => rfl

section Agreeing

variable {inline : List Char → Nat → Run ReadError Node} {block : Reading LogicalLine ReadError Node}
  {map : Nat → List (String × Node) → Reading LogicalLine ReadError (List (String × Node))}
  (hinline : ∀ text number, (inline text number).Agrees (wholeInline text number))
  (hblock : ∀ ls, (block ls).Agrees (wholeBlock ls))
  (hmap : ∀ indent entries ls, (map indent entries ls).Agrees (wholeMap indent entries ls))

include hblock

theorem nested_agrees (parent : Nat) (ls : List LogicalLine) :
    (nested block parent ls).Agrees (nested wholeBlock parent ls) := by
  cases ls with
  | nil => exact .refl _
  | cons line more =>
    rw [nested, nested]
    split
    · exact hblock _
    · exact .refl _

include hinline

theorem keyed_agrees (column number : Nat) (value : List Char) (ls : List LogicalLine) :
    (keyed inline block column number value ls).Agrees
      (keyed wholeInline wholeBlock column number value ls) := by
  unfold keyed
  split
  · exact nested_agrees hblock column ls
  · exact (hinline value number).bind fun _ => .refl _

theorem mapPass_agrees (indent : Nat) (entries : List (String × Node)) (ls : List LogicalLine) :
    (mapPass inline block indent entries ls).Agrees
      (mapPass wholeInline wholeBlock indent entries ls) := by
  cases ls with
  | nil => exact .refl _
  | cons line more =>
    rw [mapPass, mapPass]
    split
    · exact .refl _
    · split
      · exact .refl _
      · split
        · exact .refl _
        · exact (keyed_agrees hinline hblock _ _ _ _).bind fun _ => .refl _

include hmap

theorem item_agrees (indent number : Nat) (text : List Char) (ls : List LogicalLine) :
    (item inline block map indent number text ls).Agrees
      (item wholeInline wholeBlock wholeMap indent number text ls) := by
  unfold item
  split
  · exact nested_agrees hblock indent ls
  · exact (hinline _ number).bind fun _ => .refl _
  · refine (keyed_agrees hinline hblock _ _ _ _).bind fun r => ?_
    obtain ⟨node, rest⟩ := r
    cases rest with
    | nil => exact .refl _
    | cons line more =>
      simp only [itemMap]
      split
      · exact (hmap _ _ _).bind fun _ => .refl _
      · exact .refl _

theorem listPass_agrees (indent : Nat) (items : List Node) (ls : List LogicalLine) :
    (listPass inline block map indent items ls).Agrees
      (listPass wholeInline wholeBlock wholeMap indent items ls) := by
  cases ls with
  | nil => exact .refl _
  | cons line more =>
    rw [listPass, listPass]
    split
    · exact .refl _
    · split
      · exact .refl _
      · exact (item_agrees hinline hblock hmap _ _ _ _).bind fun _ => .refl _

end Agreeing

/-- **A block comes to what the reader returns**, if the rounds suffice for it. -/
theorem block_agrees {inline : List Char → Nat → Run ReadError Node}
    (hinline : ∀ text number, (inline text number).Agrees (wholeInline text number))
    (rounds : Nat) (ls : List LogicalLine) : (block inline rounds ls).Agrees (wholeBlock ls) := by
  induction rounds generalizing ls with
  | zero => exact .inl rfl
  | succ rounds ih =>
    have hmap : ∀ indent entries ls, (mapLoop inline (block inline rounds) (rounds + 1) indent
        entries ls).Agrees (wholeMap indent entries ls) :=
      fun indent => loop_agrees (mapPass_agrees hinline ih indent) (solves_wholeMap indent) (rounds + 1)
    cases ls with
    | nil =>
      rw [wholeBlock, readBlock]
      exact .refl _
    | cons line more =>
      rw [wholeBlock_cons, block]
      split
      · refine Run.Agrees.bind ?_ fun _ => .refl _
        exact loop_agrees (listPass_agrees hinline ih hmap line.indent) (solves_wholeList line.indent)
          (rounds + 1) [] (line :: more)
      · exact (hmap line.indent [] (line :: more)).bind fun _ => .refl _

end PixelScene.Node.InRounds
