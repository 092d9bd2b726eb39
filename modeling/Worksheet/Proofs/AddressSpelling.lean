import Mathlib.Data.List.TakeWhile
import Worksheet.Address

/-! Reading an address succeeds exactly on letters followed by digits, and gives the address that is
spelled by them in upper case. -/

namespace Worksheet

namespace Text

variable {c : Char}

/-! Letters and digits by their codes -/

theorem isUpper_iff : c.isUpper = true ↔ 65 ≤ c.toNat ∧ c.toNat ≤ 90 := by
  delta Char.isUpper
  rw [decide_eq_true_eq]
  exact Iff.rfl

theorem isDigit_iff : c.isDigit = true ↔ 48 ≤ c.toNat ∧ c.toNat ≤ 57 := by
  delta Char.isDigit
  rw [Bool.and_eq_true, decide_eq_true_eq, decide_eq_true_eq]
  exact Iff.rfl

theorem isAlpha_iff : c.isAlpha = true ↔ 65 ≤ c.toNat ∧ c.toNat ≤ 90 ∨ 97 ≤ c.toNat ∧ c.toNat ≤ 122 := by
  delta Char.isAlpha Char.isLower
  rw [Bool.or_eq_true, isUpper_iff, Bool.and_eq_true, decide_eq_true_eq, decide_eq_true_eq]
  exact Iff.rfl

theorem toUpper_eq_self (other : ¬ (97 ≤ c.toNat ∧ c.toNat ≤ 122)) : c.toUpper = c := by
  unfold Char.toUpper
  exact dif_neg other

theorem toLower_eq_self (other : ¬ (65 ≤ c.toNat ∧ c.toNat ≤ 90)) : c.toLower = c := by
  unfold Char.toLower
  exact dif_neg other

theorem toLower_of_isDigit (digit : c.isDigit = true) : c.toLower = c := by
  rw [isDigit_iff] at digit
  apply toLower_eq_self
  omega

/-- A run ends where the text behind it does not go on with it. -/
theorem run_append {p : Char → Bool} {run rest : List Char} (all : ∀ c ∈ run, p c = true)
    (stops : ∀ c ∈ rest.head?, p c = false) : (run ++ rest).takeWhile p = run ∧ (run ++ rest).dropWhile p = rest := by
  rw [List.takeWhile_append_of_pos all, List.dropWhile_append_of_pos all]
  cases rest with
  | nil => simp
  | cons c rest => simp [stops c rfl]

theorem stops_dropWhile (p : Char → Bool) (cs : List Char) : ∀ c ∈ (cs.dropWhile p).head?, p c = false := by
  intro c first
  have kept := List.head?_dropWhile_not p cs
  rw [first] at kept
  simpa using kept

end Text

namespace Address

/-- Letters in either case and then digits, at least one of each. -/
structure Spelled (name : String) (column row : List Char) : Prop where
  whole : name.toList = column ++ row
  lettered : column ≠ []
  numbered : row ≠ []
  letters : ∀ c ∈ column, c.isAlpha = true
  digits : ∀ c ∈ row, c.isDigit = true

/-- The name is one for this address, perhaps not in upper case. -/
def Names (name : String) (address : Address) : Prop :=
  ∃ column row, Spelled name column row ∧ address.text.toList = column.map Char.toUpper ++ row

theorem not_isAlpha_of_isDigit {c : Char} (digit : c.isDigit = true) : c.isAlpha = false := by
  rw [Text.isDigit_iff] at digit
  rw [Bool.eq_false_iff, ne_eq, Text.isAlpha_iff]
  omega

/-- The letters end where the digits begin, so a spelling is scanned in one way only, before any text
that does not go on with a digit. -/
theorem Spelled.scan?_append {name : String} {column row rest : List Char} (spelled : Spelled name column row)
    (stops : ∀ c ∈ rest.head?, c.isDigit = false) :
    ∃ address, Address.scan? (name.toList ++ rest) = some (name.toList, address, rest) ∧
      address.text.toList = column.map Char.toUpper ++ row := by
  obtain ⟨digit, digits, rfl⟩ := List.exists_cons_of_ne_nil spelled.numbered
  have stop : ∀ c ∈ (digit :: digits ++ rest).head?, c.isAlpha = false := by
    intro c first
    cases first
    exact not_isAlpha_of_isDigit (spelled.digits digit List.mem_cons_self)
  obtain ⟨letters, after⟩ := Text.run_append spelled.letters stop
  obtain ⟨row, left⟩ := Text.run_append spelled.digits stops
  have full : column ≠ [] ∧ digit :: digits ≠ [] := ⟨spelled.lettered, spelled.numbered⟩
  simp only [Address.scan?, spelled.whole, List.append_assoc, letters, after, row, left, dif_pos full]
  exact ⟨_, rfl, String.toList_ofList⟩

theorem Spelled.scan? {name : String} {column row : List Char} (spelled : Spelled name column row) :
    ∃ address, Address.scan? name.toList = some (column ++ row, address, []) ∧
      address.text.toList = column.map Char.toUpper ++ row := by
  have stops : ∀ c ∈ ([] : List Char).head?, c.isDigit = false := nofun
  simpa [spelled.whole] using spelled.scan?_append stops

theorem names_of_scan? {cs spelling rest : List Char} {address : Address} (found : scan? cs = some (spelling, address, rest)) :
    Names (.ofList spelling) address := by
  simp only [scan?] at found
  split at found
  next full =>
    simp only [Option.some.injEq, Prod.mk.injEq] at found
    obtain ⟨rfl, rfl, _⟩ := found
    refine ⟨_, _, ⟨String.toList_ofList, full.1, full.2, ?_, ?_⟩, String.toList_ofList⟩
    · exact List.all_eq_true.mp List.all_takeWhile
    · exact List.all_eq_true.mp List.all_takeWhile
  next => cases found

theorem names_of_parse? {name : String} {address : Address} (read : parse? name = some address) :
    Names name address := by
  unfold parse? at read
  split at read
  next spelling found whole =>
    cases read
    have same := (spelling_of_scan? whole).1
    rw [List.append_nil] at same
    simpa [same] using names_of_scan? whole
  next => cases read

theorem Spelled.head {name : String} {column row : List Char} (spelled : Spelled name column row) :
    ∃ first rest, name.toList = first :: rest ∧ first.isAlpha = true := by
  obtain ⟨first, more, whole⟩ := List.exists_cons_of_ne_nil spelled.lettered
  exact ⟨first, more ++ row, by rw [spelled.whole, whole, List.cons_append], spelled.letters first (by simp [whole])⟩

theorem scan?_of_not_isAlpha {c : Char} (other : c.isAlpha = false) (rest : List Char) : Address.scan? (c :: rest) = none := by
  simp [Address.scan?, other]

/-- Digits that follow would have belonged to it, so an address is scanned that is at least as long. -/
theorem Names.scan?_append {name : String} {address : Address} (named : Names name address) (rest : List Char) :
    ∃ longer found after, Address.scan? (name.toList ++ rest) = some (longer, found, after) ∧
      name.toList.length ≤ longer.length := by
  obtain ⟨column, row, spelled, _⟩ := named
  have digits : ∀ c ∈ row ++ rest.takeWhile Char.isDigit, c.isDigit = true :=
    List.forall_mem_append.mpr ⟨spelled.digits, fun _ => List.mem_takeWhile_imp⟩
  have longer : Spelled (.ofList (name.toList ++ rest.takeWhile Char.isDigit)) column (row ++ rest.takeWhile Char.isDigit) :=
    ⟨by simp [spelled.whole], spelled.lettered, List.append_ne_nil_of_left_ne_nil spelled.numbered _, spelled.letters, digits⟩
  obtain ⟨found, scanned, _⟩ := longer.scan?_append (Text.stops_dropWhile Char.isDigit rest)
  rw [String.toList_ofList, List.append_assoc, List.takeWhile_append_dropWhile] at scanned
  exact ⟨_, found, _, scanned, by simp⟩

theorem parse?_eq_some_iff {name : String} {address : Address} : parse? name = some address ↔ Names name address := by
  constructor
  · exact names_of_parse?
  · rintro ⟨column, row, spelled, text⟩
    obtain ⟨found, scanned, same⟩ := spelled.scan?
    have equal : found = address := by
      rw [Address.mk.injEq, ← String.toList_inj, same, text]
    rw [parse?, scanned, equal]

theorem parse_eq_ok_iff {name : String} {address : Address} : parse name = .ok address ↔ Names name address := by
  rw [← parse?_eq_some_iff, parse]
  split
  next found read => rw [read, Except.ok.injEq, Option.some.injEq]
  next read => simp [read]

theorem parse_eq_error_iff {name : String} {e : AddressError} :
    parse name = .error e ↔ (∀ column row, ¬ Spelled name column row) ∧ e = ⟨name⟩ := by
  rw [parse]
  split
  next address read =>
    obtain ⟨column, row, spelled, _⟩ := names_of_parse? read
    exact ⟨nofun, fun ⟨unspelled, _⟩ => absurd spelled (unspelled column row)⟩
  next missing =>
    have unspelled (column row : List Char) : ¬ Spelled name column row := by
      intro spelled
      obtain ⟨address, scanned, _⟩ := spelled.scan?
      rw [parse?, scanned] at missing
      cases missing
    rw [Except.error.injEq, eq_comm]
    exact ⟨fun same => ⟨unspelled, same⟩, fun both => both.2⟩

private theorem isAlpha_of_isUpper {c : Char} (upper : c.isUpper = true) : c.isAlpha = true :=
  Text.isAlpha_iff.mpr (Or.inl (Text.isUpper_iff.mp upper))

private theorem toUpper_of_isUpper {c : Char} (upper : c.isUpper = true) : c.toUpper = c := by
  rw [Text.isUpper_iff] at upper
  apply Text.toUpper_eq_self
  omega

private theorem toUpper_of_isDigit {c : Char} (digit : c.isDigit = true) : c.toUpper = c := by
  rw [Text.isDigit_iff] at digit
  apply Text.toUpper_eq_self
  omega

theorem toList_text_of_names {name : String} {address : Address} (named : Names name address) :
    address.text.toList = name.toList.map Char.toUpper := by
  obtain ⟨column, row, spelled, text⟩ := named
  have digits : row.map Char.toUpper = row :=
    (List.map_congr_left fun c member => toUpper_of_isDigit (spelled.digits c member)).trans row.map_id
  rw [text, spelled.whole, List.map_append, digits]

theorem eq_of_text {address other : Address} (same : address.text = other.text) : address = other := by
  rw [Address.mk.injEq, same]

theorem Names.unique {name : String} {address other : Address} (named : Names name address) (named' : Names name other) :
    address = other :=
  eq_of_text (String.toList_inj.mp ((toList_text_of_names named).trans (toList_text_of_names named').symm))

theorem Names.scan? {name : String} {address : Address} (named : Names name address) :
    Address.scan? name.toList = some (name.toList, address, []) := by
  obtain ⟨column, row, spelled, text⟩ := named
  obtain ⟨found, scanned, same⟩ := spelled.scan?
  rw [scanned, ← spelled.whole, eq_of_text (String.toList_inj.mp (same.trans text.symm))]

theorem spelled_text (address : Address) :
    ∃ column row, Spelled address.text column row ∧ column.map Char.toUpper = column := by
  obtain ⟨column, row, whole, lettered, numbered, letters, digits⟩ := address.spelled
  refine ⟨column, row, ⟨whole, lettered, numbered, fun c member => isAlpha_of_isUpper (letters c member), digits⟩, ?_⟩
  exact (List.map_congr_left fun c member => toUpper_of_isUpper (letters c member)).trans column.map_id

theorem scan?_text (address : Address) {rest : List Char} (stops : ∀ c ∈ rest.head?, c.isDigit = false) :
    scan? (address.text.toList ++ rest) = some (address.text.toList, address, rest) := by
  obtain ⟨column, row, spelled, upper⟩ := address.spelled_text
  obtain ⟨found, scanned, text⟩ := spelled.scan?_append stops
  rw [upper, ← spelled.whole, String.toList_inj] at text
  rw [scanned, eq_of_text text]

theorem parse_text (address : Address) : parse address.text = .ok address := by
  obtain ⟨column, row, spelled, upper⟩ := address.spelled_text
  exact parse_eq_ok_iff.mpr ⟨column, row, spelled, by rw [upper, spelled.whole]⟩

end Address
end Worksheet
