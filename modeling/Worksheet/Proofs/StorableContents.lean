import Worksheet.Proofs.ContentsText
import Worksheet.Proofs.WalkAnswers

/-! Contents may be given to a cell without being typed. They are taken where some entry is read as them,
and then all is as if their edit text had been entered; what would be taken for something else when
it is read again is refused. -/

namespace Worksheet

namespace Contents

def plain : Contents → Contents
  | text "" => empty
  | other => other

theorem editText_plain (given : Contents) : given.plain.editText = given.editText := by
  unfold plain
  split
  next => rfl
  next => rfl

theorem normalized?_eq (given : Contents) : given.normalized? =
    match parse given.plain.editText with
    | .ok reread => if reread.same given.plain then some given.plain else none
    | .error _ => none := rfl

theorem plain_of_parse {entry : String} {contents : Contents} (read : parse entry = .ok contents) :
    contents.plain = contents := by
  unfold plain
  split
  next =>
    rcases parse_cases read with other | ⟨_, _, other⟩ | ⟨_, other⟩ | same
    · cases other
    · cases other
    · cases other
    -- The empty text would have to be its own entry, but that is read as no contents.
    · cases same
      cases read
  next => rfl

theorem isFinite_of_parse {entry : String} {x : Float} (read : parse entry = .ok (number x)) :
    Number.isFinite x = true := by
  rcases parse_cases read with other | ⟨_, finite, same⟩ | ⟨_, other⟩ | other
  · cases other
  · rwa [number.inj same]
  · cases other
  · cases other

/-- The one number that is not the same as itself is never read from an entry. -/
theorem same_self_of_parse {entry : String} {contents : Contents} (read : parse entry = .ok contents) :
    contents.same contents = true := by
  cases contents with
  | empty => rfl
  | number x =>
    have finite := isFinite_of_parse read
    have known : x ≠ Float.nan := by
      rintro rfl
      exact absurd finite (by decide +kernel)
    exact Float.beq_iff_ne_nan_and_eq.mpr ⟨known, known, Or.inl rfl⟩
  | text written => simp [same]
  | formula f => simp [same, Formula.same]

theorem normalized?_eq_some_iff {given contents : Contents} :
    given.normalized? = some contents ↔ contents = given.plain ∧ ∃ entry, parse entry = .ok contents := by
  constructor
  · intro normal
    refine ⟨?_, _, parse_of_normalized normal⟩
    rw [normalized?_eq] at normal
    split at normal
    next =>
      split at normal
      next => exact (Option.some.inj normal).symm
      next => cases normal
    next => cases normal
  · rintro ⟨rfl, entry, read⟩
    simp only [normalized?_eq, parse_of_parse read, same_self_of_parse read, if_true]

theorem normalized?_of_parse {entry : String} {contents : Contents} (read : parse entry = .ok contents) :
    contents.normalized? = some contents :=
  normalized?_eq_some_iff.mpr ⟨(plain_of_parse read).symm, entry, read⟩

/-- Contents that have no entry. Their edit text, if they had one, would be read as something else: as a
number, as a formula, or as text where a number was meant. -/
inductive Unstorable : Contents → Prop where
  | number {x : Float} (infinite : Number.isFinite x = false) : Unstorable (number x)
  | numeral {written : String} {x : Float} (read : number? written.toList = some x) : Unstorable (text written)
  | signed {written : String} {rest : List Char} (sign : written.toList = '=' :: rest) : Unstorable (text written)

theorem parse_eq_text_iff {entry written : String} : parse entry = .ok (text written) ↔
    entry = written ∧ entry ≠ "" ∧ number? entry.toList = none ∧ ∀ rest, entry.toList ≠ '=' :: rest := by
  unfold parse
  split
  next blank => simp [blank]
  next filled =>
    split
    next x numeral => simp [numeral]
    next unread =>
      split
      next rest sign => cases Formula.parse rest <;> simp [Except.map, sign]
      next unsigned => simpa [filled, unread] using fun _ => unsigned

theorem exists_parse_iff {given : Contents} : (∃ entry, parse entry = .ok given.plain) ↔ ¬ given.Unstorable := by
  cases given with
  | empty => exact ⟨nofun, fun _ => ⟨"", rfl⟩⟩
  | number x =>
    constructor
    · rintro ⟨entry, read⟩ ⟨infinite⟩
      rw [isFinite_of_parse read] at infinite
      cases infinite
    · intro storable
      refine ⟨_, parse_number ?_⟩
      exact Bool.of_not_eq_false fun infinite => storable (.number infinite)
  | text written =>
    by_cases blank : written = ""
    · subst blank
      have unread : number? "".toList = none := by decide +kernel
      constructor
      · rintro _ (_ | read | sign)
        · rw [unread] at read
          cases read
        · cases sign
      · exact fun _ => ⟨"", rfl⟩
    · have shown : (text written).plain = text written := by simp [plain, blank]
      simp only [shown, parse_eq_text_iff]
      constructor
      · rintro ⟨entry, rfl, _, unread, unsigned⟩ (_ | read | sign)
        · rw [unread] at read
          cases read
        · exact unsigned _ sign
      · intro storable
        refine ⟨written, rfl, blank, ?_, fun rest sign => storable (.signed sign)⟩
        exact Option.eq_none_iff_forall_ne_some.mpr fun x read => storable (.numeral read)
  | formula f => exact ⟨nofun, fun _ => ⟨_, parse_formula f⟩⟩

theorem normalized?_eq_none_iff {given : Contents} : given.normalized? = none ↔ given.Unstorable := by
  rw [Option.eq_none_iff_forall_ne_some]
  constructor
  · intro refused
    apply Classical.byContradiction
    intro storable
    exact refused _ (normalized?_eq_some_iff.mpr ⟨rfl, exists_parse_iff.mpr storable⟩)
  · intro unstorable contents normal
    obtain ⟨rfl, typed⟩ := normalized?_eq_some_iff.mp normal
    exact exists_parse_iff.mp typed unstorable

/-- Whatever is read from an entry is read from its own edit text too. Contents that are given have a form
to be stored in exactly if some entry is read as them, which leaves out numbers that are not finite and
texts that are read as numbers or formulas, and in that form they stay as they are. -/
theorem normal_iff_typed :
    (∀ entry contents, parse entry = .ok contents → parse contents.editText = .ok contents) ∧
    (∀ given contents : Contents, given.normalized? = some contents ↔
      contents = given.plain ∧ ∃ entry, parse entry = .ok contents) ∧
    (∀ given : Contents, given.normalized? = none ↔ given.Unstorable) ∧
    ∀ given : Contents, given.normalized?.bind normalized? = given.normalized? := by
  refine ⟨fun _ _ => parse_of_parse, fun _ _ => normalized?_eq_some_iff, fun _ => normalized?_eq_none_iff, ?_⟩
  intro given
  cases normal : given.normalized? with
  | none => rfl
  | some contents =>
    obtain ⟨_, entry, read⟩ := normalized?_eq_some_iff.mp normal
    exact normalized?_of_parse read

theorem normal_of_padded : parse "\t-2.50e1 " = .ok (number (-25)) ∧ parse (number (-25)).editText = .ok (number (-25)) ∧
    (text "\t-2.50e1 ").normalized? = none ∧ (text "-2.50e").normalized? = some (text "-2.50e") := by
  have read : parse "\t-2.50e1 " = .ok (number (-25)) := by decide +kernel
  have numeral : number? "\t-2.50e1 ".toList = some (-25) := by decide +kernel
  have typed : parse "-2.50e" = .ok (text "-2.50e") := by decide +kernel
  obtain ⟨reread, normal, refused, _⟩ := normal_iff_typed
  exact ⟨read, reread _ _ read, (refused _).mpr (.numeral numeral), (normal _ _).mpr ⟨(plain_of_parse typed).symm, _, typed⟩⟩

end Contents

namespace Sheet

variable (sheet : Sheet) {address : Address} {given contents : Contents}

theorem enter_of_parse {name entry : String} (named : Address.parse name = .ok address)
    (read : Contents.parse entry = .ok contents) : sheet.enter name entry = sheet.store address contents := by
  simp only [enter, named, read]

theorem put_of_normalized (address : Address) (normal : given.normalized? = some contents) :
    sheet.put address given = sheet.store address contents := by
  simp only [put, normal]

theorem put_of_unstorable (address : Address) (unstorable : given.Unstorable) :
    sheet.put address given = (.error (.unstorable given.editText), sheet) := by
  simp only [put, Contents.normalized?_eq_none_iff.mpr unstorable]

theorem eq_circular_of_store {e : SheetError} (refused : (sheet.store address contents).1 = .error e) :
    e = .circular address := by
  rw [answer_store] at refused
  cases ordered : (sheet.rewire address contents.reads).graph.updateOrder? address with
  | none =>
    rw [ordered] at refused
    exact (Except.error.inj refused).symm
  | some order =>
    rw [ordered] at refused
    cases refused

theorem store_ne_unstorable (address : Address) (contents : Contents) (editText : String) :
    (sheet.store address contents).1 ≠ .error (.unstorable editText) := by
  intro refused
  cases sheet.eq_circular_of_store refused

/-- Giving what an entry is read as is entering it, and it is never refused for its form. Contents that are
given are refused for their form and change nothing, or all is as if their edit text had been entered. -/
theorem put_agrees_enter {name : String} (named : Address.Names name address) :
    (∀ entry contents, Contents.parse entry = .ok contents → sheet.put address contents = sheet.enter name entry ∧
      ∀ editText, (sheet.put address contents).1 ≠ .error (.unstorable editText)) ∧
    ∀ given : Contents,
      given.Unstorable ∧ sheet.put address given = (.error (.unstorable given.editText), sheet) ∨
      ¬ given.Unstorable ∧ sheet.put address given = sheet.enter name given.editText := by
  have named := Address.parse_eq_ok_iff.mpr named
  constructor
  · intro entry contents read
    rw [sheet.put_of_normalized address (Contents.normalized?_of_parse read)]
    exact ⟨(sheet.enter_of_parse named read).symm, sheet.store_ne_unstorable address contents⟩
  · intro given
    by_cases unstorable : given.Unstorable
    · exact Or.inl ⟨unstorable, sheet.put_of_unstorable address unstorable⟩
    · obtain ⟨entry, read⟩ := Contents.exists_parse_iff.mpr unstorable
      have normal := Contents.normalized?_eq_some_iff.mpr ⟨rfl, entry, read⟩
      have again := Contents.parse_of_parse read
      rw [Contents.editText_plain] at again
      refine Or.inr ⟨unstorable, ?_⟩
      rw [sheet.put_of_normalized address normal, sheet.enter_of_parse named again]

private def shown : Session := (Session.start {}).run [.enter "A1" "=C1*2", .enter "C1" "3"]

/-- The same seven is taken as a number and as an entry, but not as a text. -/
theorem put_agrees_enter_of_seven : ∃ address : Address, Address.Names "c1" address ∧
    shown.sheet.put address (.number 7) = shown.sheet.enter "c1" " 7.0" ∧
    shown.sheet.put address (.text " 7.0") = (.error (.unstorable " 7.0"), shown.sheet) ∧
    shown.sheet.put address (.text "7.0.") = shown.sheet.enter "c1" "7.0." := by
  have found : (Address.parse? "c1").isSome = true := by decide +kernel
  obtain ⟨address, parsed⟩ := Option.isSome_iff_exists.mp found
  have named := Address.parse?_eq_some_iff.mp parsed
  have number : Contents.parse " 7.0" = .ok (.number 7) := by decide +kernel
  have text : Contents.parse "7.0." = .ok (.text "7.0.") := by decide +kernel
  have numeral : Contents.number? " 7.0".toList = some 7 := by decide +kernel
  obtain ⟨typed, given⟩ := put_agrees_enter shown.sheet named
  refine ⟨address, named, (typed _ _ number).1, ?_, (typed _ _ text).1⟩
  rcases given (.text " 7.0") with ⟨_, refused⟩ | ⟨storable, _⟩
  · exact refused
  · exact absurd (.numeral numeral) storable

end Sheet
end Worksheet
