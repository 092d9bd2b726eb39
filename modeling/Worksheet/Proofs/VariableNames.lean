import Worksheet.Proofs.EditRefusal
import Worksheet.Proofs.LetterCase
import Worksheet.Proofs.NumberEntries

/-! The names of cells are the variables of formulas. A name has to be a whole text, while a variable may have
others around it; but a name is scanned as one variable, and what is scanned as a variable is read as
a name. So formulas mention just the cells that can be set, and there is no name in stray text. -/

namespace Worksheet

namespace Address

variable {name other : String} {address : Address}

theorem Names.not_isBlank (named : Names name address) : ∀ c ∈ name.toList, Text.isBlank c = false := by
  intro c member
  apply Bool.of_not_eq_true
  intro white
  have fits : (Piece.cell name.toList address).Fits := by rwa [Piece.Fits, String.ofList_toList]
  obtain ⟨_, other⟩ := fits.of_mem_blank member white
  cases other

theorem exists_parse_iff : (∃ address, parse name = .ok address ∧ parse other = .ok address) ↔
    (∃ address, parse name = .ok address) ∧ (∃ address, parse other = .ok address) ∧
      other.toList.map Char.toLower = name.toList.map Char.toLower := by
  simp only [parse_eq_ok_iff, Text.map_toLower_eq_iff]
  constructor
  · rintro ⟨address, named, named'⟩
    exact ⟨⟨address, named⟩, ⟨address, named'⟩,
      (toList_text_of_names named').symm.trans (toList_text_of_names named)⟩
  · rintro ⟨⟨address, named⟩, ⟨address', named'⟩, same⟩
    rw [← toList_text_of_names named, ← toList_text_of_names named', String.toList_inj] at same
    exact ⟨address, named, eq_of_text same ▸ named'⟩

end Address

namespace Token

variable {cs : List Char} {name : String} {address : Address}

theorem scan_eq_cell_iff : scan cs = .ok [.cell address] ↔ Address.Names (.ofList (Text.trim cs)) address := by
  constructor
  · intro scanned
    obtain ⟨piece, present, alone, spells, _⟩ := piece_of_scan scanned
    cases spells with
    | @cell spelling =>
      obtain named | ⟨_, other⟩ := (Piece.cut_ofText cs).fits _ present
      · have solid := named.not_isBlank
        rw [String.toList_ofList] at solid
        rw [Piece.trim_of_dense alone solid]
        exact named
      · cases other
  · intro named
    have found := Piece.scan?_of_address named.scan?
    rw [String.toList_ofList] at found
    rw [← scan_trim, scan, Piece.ofText_of_scan? found, Piece.ofText_nil]
    rfl

theorem parse_eq_ok_iff_scan : Address.parse name = .ok address ↔
    Text.trim name.toList = name.toList ∧ scan name.toList = .ok [.cell address] := by
  rw [scan_eq_cell_iff, Address.parse_eq_ok_iff]
  constructor
  · intro named
    have whole := Text.trim_of_forall named.not_isBlank
    rw [whole, String.ofList_toList]
    exact ⟨rfl, named⟩
  · rintro ⟨whole, named⟩
    rwa [whole, String.ofList_toList] at named

end Token

namespace Piece

variable {cs : List Char} {address : Address}

theorem parse_of_mem_ofText {spelling : List Char} (member : cell spelling address ∈ ofText cs) :
    Address.parse (.ofList spelling) = .ok address := by
  obtain named | ⟨_, other⟩ := (cut_ofText cs).fits _ member
  · exact Address.parse_eq_ok_iff.mpr named
  · cases other

/-- A name inside stray text would have been matched where it begins. -/
theorem parse_ne_of_mem_stray {run front word back : List Char} (member : stray run ∈ ofText cs)
    (parts : run = front ++ (word ++ back)) : Address.parse (.ofList word) ≠ .ok address := by
  intro read
  have named := Address.parse_eq_ok_iff.mp read
  have filled : word ≠ [] := by
    rintro rfl
    obtain ⟨_, _, spelled, _⟩ := named
    obtain ⟨_, _, empty, _⟩ := spelled.head
    simp at empty
  have cut := cut_ofText cs
  obtain ⟨before, after, pieces⟩ := List.append_of_mem member
  rw [pieces] at cut
  obtain ⟨unmatched, _⟩ := cut.stands
  apply unmatched front (word ++ back) parts (List.append_ne_nil_of_left_ne_nil filled back)
  exact ⟨cell word address, back ++ after.flatMap text, named, (List.append_assoc ..).symm⟩

end Piece

theorem Sheet.enter_unsigned {sheet : Sheet} (reached : Reachable sheet) (address : Address) {entry : String}
    (unsigned : ∀ text, ¬ Contents.Signed entry text) : ∃ order, (sheet.enter address.text entry).1 = .ok order := by
  cases answer : (sheet.enter address.text entry).1 with
  | ok order => exact ⟨order, rfl⟩
  | error e =>
    rw [enter_error_iff reached.valid] at answer
    cases answer with
    | address unspelled =>
      obtain ⟨column, row, spelled, _⟩ := address.spelled_text
      exact absurd spelled (unspelled column row)
    | formula _ signed | circular _ signed => exact absurd signed (unsigned _)

namespace Formula

variable {name : String} {address : Address}

theorem exists_of_parse (named : Address.parse name = .ok address) :
    ∃ f, parse name.toList = .ok f ∧ ∀ input, input ∈ f.inputs ↔ input = address := by
  have scanned := (Token.parse_eq_ok_iff_scan.mp named).2
  refine ⟨⟨[.cell address], ⟨_, scanned⟩, rfl⟩, parse_eq_ok_iff.mpr scanned, fun input => ?_⟩
  rw [mem_inputs]
  simp [Token.cell?]

theorem exists_of_enter {sheet : Sheet} {entry : String} {order : List Address}
    (accepted : (sheet.enter name entry).1 = .ok order) :
    ∃ f address, Address.parse name = .ok address ∧ parse name.toList = .ok f ∧ ∀ input, input ∈ f.inputs ↔ input = address := by
  rcases sheet.enter_cases name entry with ⟨_, _, same⟩ | ⟨_, _, _, _, same⟩ | ⟨address, _, named, _, _⟩
  · rw [same] at accepted
    cases accepted
  · rw [same] at accepted
    cases accepted
  · obtain ⟨f, read, mentions⟩ := exists_of_parse named
    exact ⟨f, address, named, read, mentions⟩

/-- A text is a name exactly if it is scanned as one variable with no white space around it. The text that an
address is kept in is a name for it, and names are told apart up to case. Wherever a variable is matched, its
text is read as a name, and no name is left in stray text. So what a formula mentions can be set,
and what can be set is mentioned by some formula. -/
theorem names_are_variables (text : String) :
    (∀ address, Address.parse text = .ok address ↔
      Text.trim text.toList = text.toList ∧ Token.scan text.toList = .ok [.cell address]) ∧
    (∀ address, Address.parse text = .ok address → Address.parse address.text = .ok address) ∧
    (∀ other, (∃ address, Address.parse text = .ok address ∧ Address.parse other = .ok address) ↔
      (∃ address, Address.parse text = .ok address) ∧ (∃ address, Address.parse other = .ok address) ∧
        other.toList.map Char.toLower = text.toList.map Char.toLower) ∧
    (∀ spelling address, .cell spelling address ∈ Piece.ofText text.toList → Address.parse (.ofList spelling) = .ok address) ∧
    (∀ front word back address, .stray (front ++ (word ++ back)) ∈ Piece.ofText text.toList →
      Address.parse (.ofList word) ≠ .ok address) ∧
    (∀ f, parse text.toList = .ok f → ∀ input ∈ f.inputs, ∀ sheet, Reachable sheet →
      ∀ entry, (∀ formula, ¬ Contents.Signed entry formula) → ∃ order, (sheet.enter input.text entry).1 = .ok order) ∧
    ∀ (sheet : Sheet) entry order, (sheet.enter text entry).1 = .ok order → ∃ f address,
      Address.parse text = .ok address ∧ parse text.toList = .ok f ∧ ∀ input, input ∈ f.inputs ↔ input = address := by
  refine ⟨fun _ => Token.parse_eq_ok_iff_scan, fun address _ => address.parse_text, fun _ => Address.exists_parse_iff,
    fun _ _ => Piece.parse_of_mem_ofText, ?_, ?_, ?_⟩
  · intro front word back address member
    exact Piece.parse_ne_of_mem_stray member rfl
  · intro f _ input _ sheet reached entry unsigned
    exact Sheet.enter_unsigned reached input unsigned
  · intro sheet entry order accepted
    exact exists_of_enter accepted

theorem names_are_variables_of_mixed : ∃ address, Address.parse "aB10" = .ok address ∧
    Token.scan "aB10".toList = .ok [.cell address] ∧ Address.parse address.text = .ok address ∧
    (∃ same, Address.parse "aB10" = .ok same ∧ Address.parse "Ab10" = .ok same) ∧
    Token.scan "aB10 ".toList = .ok [.cell address] ∧ Address.parse "aB10 " ≠ .ok address ∧
    ∃ order, ((Sheet.new {}).enter address.text "5").1 = .ok order := by
  obtain ⟨names, kept, either, _, _, settable, mentionable⟩ := names_are_variables "aB10"
  have taken : ((Sheet.new {}).enter "aB10" "=B1").1.isOk = true := by decide +kernel
  have found : (Address.parse? "Ab10").isSome = true := by decide +kernel
  obtain ⟨other, parsed⟩ := Option.isSome_iff_exists.mp found
  have respelled := Address.parse_eq_ok_iff.mpr (Address.parse?_eq_some_iff.mp parsed)
  have unsigned (text : List Char) : ¬ Contents.Signed "5" text := fun signed => by simpa using signed.sign
  cases accepted : ((Sheet.new {}).enter "aB10" "=B1").1 with
  | error e =>
    rw [accepted] at taken
    cases taken
  | ok order =>
    obtain ⟨f, address, named, read, mentions⟩ := mentionable _ _ _ accepted
    have scanned := ((names address).mp named).2
    have spaced : Token.scan "aB10 ".toList = .ok [.cell address] := by
      rw [← Token.scan_trim]
      exact scanned
    have padded : Text.trim "aB10 ".toList ≠ "aB10 ".toList := by decide +kernel
    refine ⟨address, named, scanned, kept address named, ?_, spaced, ?_, ?_⟩
    · exact (either "Ab10").mpr ⟨⟨address, named⟩, ⟨other, respelled⟩, by decide⟩
    · exact fun named' => padded (((names_are_variables "aB10 ").1 address).mp named').1
    · exact settable f read address ((mentions address).mpr rfl) (.new {}) (.new {}) "5" unsigned

end Formula
end Worksheet
