import Worksheet.Proofs.EditRefusal
import Worksheet.Proofs.FormulaText

/-! Whatever has been stored in a cell is read back from its edit text as it is: text without change,
numbers bit for bit, and formulas with the same tokens. -/

namespace Worksheet

namespace Number

private theorem isBlank_of_mem_write {x : Float} (finite : isFinite x = true) {c : Char} (member : c ∈ write x) :
    Text.isBlank c = false := by
  obtain ⟨n, plain, text, _⟩ := exists_numeral (ofFloat_lt_of_isFinite finite)
  unfold write at member
  simp only [Nat.not_lt.mpr (ofFloat_lt_of_isFinite finite).le, if_false, ← text] at member
  split at member
  · rcases List.mem_cons.mp member with rfl | member
    · rfl
    · exact plain.regular.not_isBlank c member
  · exact plain.regular.not_isBlank c member

end Number

theorem Text.trim_of_forall {text : List Char} (dense : ∀ c ∈ text, isBlank c = false) : trim text = text := by
  have kept {cs : List Char} (dense : ∀ c ∈ cs, isBlank c = false) : cs.dropWhile isBlank = cs := by
    cases cs with
    | nil => rfl
    | cons c cs => simp [dense c List.mem_cons_self]
  rw [trim, kept dense, kept fun c member => dense c (List.mem_reverse.mp member), List.reverse_reverse]

namespace Contents

/-- An equals sign at the front keeps a text from being a number. -/
theorem number?_sign (text : List Char) : number? ('=' :: text) = none := by
  have trimmed : ∃ rest, Text.trim ('=' :: text) = '=' :: rest := by
    have front : ('=' :: text).dropWhile Text.isBlank = '=' :: text := rfl
    rw [Text.trim, front, List.reverse_cons, List.dropWhile_append]
    split
    · exact ⟨[], rfl⟩
    · exact ⟨_, List.reverse_append⟩
  obtain ⟨rest, trimmed⟩ := trimmed
  have unread : Number.read? ('=' :: rest) = none := by
    change Number.readUnsigned? false ('=' :: rest) = none
    have word {letter : Char} {letters : List Char} (apart : '=' ≠ letter) :
        String.ofList (('=' :: rest).map Char.toLower) ≠ String.ofList (letter :: letters) := by
      intro same
      rw [String.ofList_inj] at same
      exact apart (List.cons.inj same).1
    unfold Number.readUnsigned?
    simp only
    rw [if_neg, if_neg]
    · rfl
    · exact word (by decide)
    · rintro (same | same)
      · exact word (by decide) same
      · exact word (by decide) same
  rw [number?, trimmed, unread]
  rfl

theorem parse_number {x : Float} (finite : Number.isFinite x = true) : parse (Number.toText x) = .ok (number x) := by
  have filled : Number.toText x ≠ "" := by
    intro empty
    have written : Number.write x = [] := by simpa [Number.toText] using congrArg String.toList empty
    have read := Number.read?_write finite
    rw [written] at read
    cases read
  have found : number? (Number.toText x).toList = some x := by
    rw [Number.toText, String.toList_ofList, number?, Text.trim_of_forall fun _ => Number.isBlank_of_mem_write finite,
      Number.read?_write finite]
    simp [finite]
  rw [parse, if_neg filled, found]

theorem signed_ofList (text : List Char) : Signed (.ofList ('=' :: text)) text :=
  ⟨by rw [String.toList_ofList, number?_sign], String.toList_ofList⟩

theorem parse_formula (f : Formula) : parse (formula f).editText = .ok (formula f) := by
  rw [editText, (signed_ofList f.canonical).parse, f.parse_canonical]
  rfl

theorem parse_cases {entry : String} {contents : Contents} (read : parse entry = .ok contents) :
    contents = empty ∨ (∃ x, Number.isFinite x = true ∧ contents = number x) ∨ (∃ f, contents = formula f) ∨
      contents = text entry := by
  unfold parse at read
  split at read
  next =>
    cases read
    exact Or.inl rfl
  next =>
    split at read
    next x found =>
      cases read
      exact Or.inr (Or.inl ⟨x, (Option.filter_eq_some_iff.mp found).2, rfl⟩)
    next =>
      split at read
      next text _ =>
        cases parsed : Formula.parse text with
        | error e =>
          rw [parsed] at read
          cases read
        | ok f =>
          rw [parsed] at read
          cases read
          exact Or.inr (Or.inr (Or.inl ⟨f, rfl⟩))
      next =>
        cases read
        exact Or.inr (Or.inr (Or.inr rfl))

/-- What is read from an entry is read again from its own edit text. -/
theorem parse_of_parse {entry : String} {contents : Contents} (read : parse entry = .ok contents) :
    parse contents.editText = .ok contents := by
  rcases parse_cases read with rfl | ⟨x, finite, rfl⟩ | ⟨f, rfl⟩ | rfl
  · rfl
  · exact parse_number finite
  · exact parse_formula f
  · exact read

private theorem isFinite_of_beq {x y : Float} (finite : Number.isFinite y = true) (same : (y == x) = true) :
    Number.isFinite x = true := by
  obtain ⟨_, _, rfl | ⟨_, rfl⟩ | ⟨_, rfl⟩⟩ := Float.beq_iff_ne_nan_and_eq.mp same
  · exact finite
  · decide +kernel
  · decide +kernel

theorem parse_of_normalized {given contents : Contents} (normal : given.normalized? = some contents) :
    parse contents.editText = .ok contents := by
  unfold normalized? at normal
  extract_lets plain at normal
  clear_value plain
  split at normal
  next reread read =>
    split at normal
    next same =>
      cases normal
      cases contents with
      | empty => rfl
      | number x =>
        cases reread with
        | number y =>
          have finite : Number.isFinite y = true := by
            rcases parse_cases read with other | ⟨_, finite, equal⟩ | ⟨_, other⟩ | other
            · cases other
            · rwa [number.inj equal]
            · cases other
            · cases other
          exact parse_number (isFinite_of_beq finite same)
        | empty | text | formula => cases same
      | text s =>
        cases reread with
        | text t =>
          obtain rfl : t = s := by simpa [Contents.same] using same
          exact read
        | empty | number | formula => cases same
      | formula f => exact parse_formula f
    next => cases normal
  next => cases normal

theorem parse_editText {contents : Contents} (admitted : contents.Admitted) : parse contents.editText = .ok contents := by
  rcases admitted with ⟨entry, read⟩ | ⟨given, normal⟩
  · exact parse_of_parse read
  · exact parse_of_normalized normal

end Contents
end Worksheet
