import Worksheet.Command

/-! What the arguments of a command can be. Whatever order they come in, a path among them is not empty,
so a command that edits a stored sheet always has a file to store it in. -/

namespace Worksheet.Command

namespace Arguments

variable {takes : Signature} {args next : Arguments}

/-- The first of the plain arguments is not an empty text. -/
def Filled (args : Arguments) : Prop := args.plain.head? ≠ some ""

theorem Filled.addPlain (filled : args.Filled) (path : takes.path = true) {text : String}
    (added : args.addPlain takes text = .ok next) : next.Filled := by
  unfold Arguments.addPlain at added
  split at added
  next => cases added
  next allowed =>
    cases added
    cases plain : args.plain with
    | nil => simpa [Filled, plain, path] using fun blank => allowed (Or.inr ⟨path, plain, blank⟩)
    | cons first rest => simpa [Filled, plain] using filled

theorem exists_of_bind_ok {α β ε : Type} {first : Except ε α} {later : α → Except ε β} {result : β}
    (read : (first >>= later) = .ok result) : ∃ between, first = .ok between ∧ later between = .ok result := by
  cases first with
  | error e => cases read
  | ok between => exact ⟨between, rfl, read⟩

theorem Filled.foldlM (filled : args.Filled) (path : takes.path = true) {texts : List String}
    (added : texts.foldlM (Arguments.addPlain takes) args = .ok next) : next.Filled := by
  induction texts generalizing args with
  | nil =>
    cases added
    exact filled
  | cons text texts ih =>
    rw [List.foldlM_cons] at added
    obtain ⟨between, first, later⟩ := exists_of_bind_ok added
    exact ih (filled.addPlain path first) later

theorem Filled.addCompact (filled : args.Filled) (added : args.addCompact = .ok next) : next.Filled := by
  unfold Arguments.addCompact at added
  split at added
  next => cases added
  next =>
    cases added
    exact filled

theorem Filled.addValue (filled : args.Filled) {text : List Char} (added : args.addValue text = .ok next) : next.Filled := by
  unfold Arguments.addValue at added
  split at added
  next =>
    cases added
    exact filled
  next => cases added

theorem Filled.readAfter (filled : args.Filled) (path : takes.path = true) {texts : List String}
    (read : Arguments.readAfter takes args texts = .ok next) : next.Filled := by
  fun_induction Arguments.readAfter takes args texts
  case case1 =>
    cases read
    exact filled
  case case2 ih =>
    obtain ⟨_, added, later⟩ := exists_of_bind_ok read
    exact ih _ (filled.addPlain path added) later
  case case3 => exact filled.foldlM path read
  case case5 ih =>
    obtain ⟨_, added, later⟩ := exists_of_bind_ok read
    exact ih _ (filled.addCompact added) later
  case case6 ih | case8 ih =>
    obtain ⟨_, added, later⟩ := exists_of_bind_ok read
    exact ih _ (filled.addValue added) later
  all_goals cases read

theorem filled_of_read (path : takes.path = true) {texts : List String}
    (accepted : Arguments.read takes texts = .ok next) : next.Filled := by
  obtain ⟨args, read, same⟩ := exists_of_bind_ok accepted
  have none : Arguments.none.Filled := nofun
  split at same
  next =>
    cases same
    exact none.readAfter path read
  next => cases same

end Arguments

theorem read?_cases {topic : Topic} {takes : Signature} {make : Arguments → Option Command} {texts : List String}
    {command : Command} (read : read? topic takes make texts = some command) :
    command = help topic ∨ ∃ args, Arguments.read takes texts = .ok args ∧ make args = some command := by
  unfold read? at read
  split at read
  next args accepted => exact Or.inr ⟨args, accepted, read⟩
  next => exact Or.inl (Option.some.inj read).symm
  next => cases read

theorem option?_cases {word : String} {command : Command} (read : option? word = some command) :
    command = help .program ∨ command = version := by
  unfold option? at read
  split at read
  next => exact Or.inl (Option.some.inj read).symm
  next => exact Or.inr (Option.some.inj read).symm
  next =>
    split at read
    next => exact Or.inl (Option.some.inj read).symm
    next =>
      split at read
      next => exact Or.inr (Option.some.inj read).symm
      next => cases read

/-- Only a file with a name can be edited. -/
theorem path_ne_of_parse? {words : List String} {path cell entry : String} {compact : Bool}
    (accepted : parse? words = some (.edit path cell entry compact)) : path ≠ "" := by
  unfold parse? at accepted
  split at accepted
  next => cases accepted
  next word rest =>
    split at accepted
    next =>
      rcases read?_cases accepted with same | ⟨args, _, made⟩
      · cases same
      · unfold list? at made
        split at made <;> cases made
    next =>
      rcases read?_cases accepted with same | ⟨args, read, made⟩
      · cases same
      · have filled := Arguments.filled_of_read rfl read
        unfold edit? at made
        split at made
        next plain =>
          cases made
          rw [Arguments.Filled, plain] at filled
          exact fun blank => filled (congrArg some blank)
        next => cases made
    next =>
      rcases read?_cases accepted with same | ⟨args, _, made⟩
      · cases same
      · unfold evaluate? at made
        split at made <;> cases made
    next =>
      split at accepted
      next => cases accepted
      next name =>
        obtain ⟨_, _, same⟩ := Option.map_eq_some_iff.mp accepted
        cases same
      next => cases accepted
    next => rcases option?_cases accepted with same | same <;> cases same
    next => rcases option?_cases accepted with same | same <;> cases same

end Worksheet.Command
