import Worksheet.Proofs.DocumentReplay
import Worksheet.Proofs.StorableContents

/-! The same thing can be wrong with an entry that is typed and with one that is stored. Which of the two it
was can be told from the error alone: on the way from a document every error of an edit is put into that
of its record, and an edit hands on nothing that belongs to a file. -/

namespace Worksheet

/-- An answer which is an error of this kind, if it is one. -/
def FailsAs {α : Type} (kind : SheetError → Prop) : Except SheetError α → Prop
  | .ok _ => True
  | .error e => kind e

namespace FailsAs

variable {α β ε : Type} {kind : SheetError → Prop}

theorem bind {first : Except SheetError α} {later : α → Except SheetError β} (fails : FailsAs kind first)
    (rest : ∀ result, FailsAs kind (later result)) : FailsAs kind (first >>= later) := by
  cases first with
  | error e => exact fails
  | ok result => exact rest result

theorem mapError {wrap : ε → SheetError} (wrapped : ∀ fault, kind (wrap fault)) (result : Except ε α) :
    FailsAs kind (result.mapError wrap) := by
  cases result with
  | error fault => exact wrapped fault
  | ok => trivial

end FailsAs

namespace SheetError

def Edit (e : SheetError) : Prop := e.isStorage = false

inductive OfRecord : SheetError → Prop where
  | address (fault : AddressError) : OfRecord (.address fault)
  | duplicate (cell : Address) : OfRecord (.duplicate cell)
  | formula (fault : FormulaError) : OfRecord (.formula fault)
  | circular (cell : Address) : OfRecord (.circular cell)

/-- An error that is told as one of stored sheets, and never holds another one of them. -/
structure Storage (e : SheetError) : Prop where
  told : e.isStorage = true
  cause : ∀ key cause, e = .record key cause → cause.OfRecord ∧ cause.Edit

variable {e : SheetError}

theorem OfRecord.edit (refused : e.OfRecord) : e.Edit := by
  cases refused
  all_goals rfl

theorem OfRecord.storage (refused : e.OfRecord) (key : String) : (record key e).Storage where
  told := rfl
  cause := by
    rintro _ _ ⟨⟩
    exact ⟨refused, refused.edit⟩

theorem storage_noPath : noPath.Storage := ⟨rfl, nofun⟩

theorem storage_unreadable (path : String) (fault : FileFault) : (unreadable path fault).Storage := ⟨rfl, nofun⟩

theorem storage_unwritable (path : String) (fault : FileFault) : (unwritable path fault).Storage := ⟨rfl, nofun⟩

theorem storage_document (fault : Json.Fault) : (document fault).Storage := ⟨rfl, nofun⟩

end SheetError

open SheetError

namespace Document

variable {front : List (String × String)} {key entry : String} {e : SheetError}

theorem Spoils.ofRecord (spoils : Spoils front key entry e) : e.OfRecord := by
  cases spoils with
  | address => exact .address _
  | duplicate => exact .duplicate _
  | formula => exact .formula _
  | circular => exact .circular _

theorem toSheet_fails (document : Document) (options : Options) : FailsAs Storage (document.toSheet options) := by
  rcases document.toSheet_cases options with ⟨_, same, _⟩ | ⟨_, key, _, _, _, _, _, spoils, same⟩
  · rw [same]
    trivial
  · rw [same]
    exact spoils.ofRecord.storage key

end Document

namespace Sheet

theorem ofJson_fails (text : String) (options : Options) : FailsAs Storage (ofJson text options) :=
  (FailsAs.mapError storage_document (Document.parse text)).bind fun document => document.toSheet_fails options

theorem decode_fails (path : String) (found : Except FileFault ByteArray) : FailsAs Storage (decode path found) := by
  unfold decode
  split
  next fault => exact storage_unreadable path fault
  next bytes =>
    split
    · trivial
    · exact storage_unreadable path .notUtf8

variable {σ : Type} (files : Files (StateM σ)) (disk : σ)

theorem read_fails (path : String) (options : Options) : FailsAs Storage ((read files path options).run disk).1 := by
  unfold read
  split
  · exact storage_noPath
  · exact (decode_fails path _).bind fun text => ofJson_fails text options

theorem save_fails (path : String) (sheet : Sheet) : FailsAs Storage ((sheet.save files path).run disk).1 := by
  unfold save
  split
  · exact storage_noPath
  · change FailsAs Storage (sheet.written path ((files.write path sheet.toJson.toUTF8).run disk).1)
    cases ((files.write path sheet.toJson.toUTF8).run disk).1 with
    | error fault => exact storage_unwritable path fault
    | ok => trivial

variable (sheet : Sheet)

theorem store_fails (address : Address) (contents : Contents) : FailsAs Edit (sheet.store address contents).1 := by
  cases answer : (sheet.store address contents).1 with
  | ok => trivial
  | error e =>
    cases sheet.eq_circular_of_store answer
    exact (OfRecord.circular address).edit

theorem enter_fails (name entry : String) : FailsAs Edit (sheet.enter name entry).1 := by
  rcases sheet.enter_cases name entry with ⟨fault, _, same⟩ | ⟨_, fault, _, _, same⟩ | ⟨address, contents, _, _, same⟩
  · rw [same]
    exact (OfRecord.address fault).edit
  · rw [same]
    exact (OfRecord.formula fault).edit
  · rw [same]
    exact sheet.store_fails address contents

theorem put_fails (address : Address) (given : Contents) : FailsAs Edit (sheet.put address given).1 := by
  rcases sheet.put_cases address given with ⟨_, same⟩ | ⟨contents, _, same⟩
  · rw [same]
    rfl
  · rw [same]
    exact sheet.store_fails address contents

theorem lookup_fails {α : Type} (name : String) (answer : Address → α) :
    FailsAs Edit (do return answer (← (Address.parse name).mapError .address)) :=
  (FailsAs.mapError (fun fault => (OfRecord.address fault).edit) (Address.parse name)).bind fun _ => trivial

/-- Whatever is read from or written to wherever it may be fails as a matter of stored sheets, and whatever is
asked of a sheet, or changed in it, does not. -/
theorem failures_told_apart (document : Document) (path text : String) (options : Options) (name entry : String)
    (address : Address) (given : Contents) :
    (FailsAs Storage ((Document.parse text).mapError .document) ∧ FailsAs Storage (document.toSheet options) ∧
      FailsAs Storage (ofJson text options) ∧ FailsAs Storage (sheet.loadJson text) ∧
      FailsAs Storage ((read files path options).run disk).1 ∧ FailsAs Storage ((sheet.load files path).run disk).1 ∧
      FailsAs Storage ((sheet.save files path).run disk).1) ∧
    FailsAs Edit (sheet.enter name entry).1 ∧ FailsAs Edit (sheet.put address given).1 ∧
    FailsAs Edit (sheet.contents name) ∧ FailsAs Edit (sheet.value name) ∧ FailsAs Edit (sheet.dependents name) := by
  constructor
  · exact ⟨.mapError storage_document _, document.toSheet_fails options, ofJson_fails text options,
      ofJson_fails text sheet.options, read_fails files disk path options, read_fails files disk path sheet.options,
      save_fails files disk path sheet⟩
  · exact ⟨sheet.enter_fails name entry, sheet.put_fails address given, lookup_fails name _, lookup_fails name _,
      lookup_fails name _⟩

private def half : Session := (Session.start {}).run [.enter "A1" "=B1"]

private def circle : String :=
  "\x7b\"Cells\": \x7b\"A1\": \x7b\"StringForm\": \"=B1\"\x7d, \"b1\": \x7b\"StringForm\": \"=A1\"\x7d\x7d\x7d"

private def loaded? : Except SheetError Sheet → Option (String × Address)
  | .error (.record key (.circular cell)) => some (key, cell)
  | _ => none

private def typed? : Except SheetError (List Address) → Option Address
  | .error (.circular cell) => some cell
  | _ => none

private theorem of_loaded? {result : Except SheetError Sheet} {key : String} {cell : Address}
    (told : loaded? result = some (key, cell)) : result = .error (.record key (.circular cell)) := by
  unfold loaded? at told
  split at told
  next =>
    cases told
    rfl
  next => cases told

private theorem of_typed? {result : Except SheetError (List Address)} {cell : Address}
    (told : typed? result = some cell) : result = .error (.circular cell) := by
  unfold typed? at told
  split at told
  next =>
    cases told
    rfl
  next => cases told

/-- The same circle is met when the formula is typed and when it is loaded. -/
theorem failures_told_apart_of_circle : ∃ cell : Address,
    half.sheet.loadJson circle = .error (.record "b1" (.circular cell)) ∧ (SheetError.record "b1" (.circular cell)).Storage ∧
    (half.sheet.enter "b1" "=A1").1 = .error (.circular cell) ∧ (SheetError.circular cell).Edit := by
  have found : (Address.parse? "b1").isSome = true := by decide +kernel
  have shown : loaded? (half.sheet.loadJson circle) = (Address.parse? "b1").map ("b1", ·) ∧
      typed? (half.sheet.enter "b1" "=A1").1 = Address.parse? "b1" := by decide +kernel
  obtain ⟨cell, parsed⟩ := Option.isSome_iff_exists.mp found
  rw [parsed] at shown
  have failed := of_loaded? shown.1
  have refused := of_typed? shown.2
  obtain ⟨⟨_, _, _, storage, _⟩, edit, _⟩ :=
    failures_told_apart Folder.access .empty half.sheet ⟨∅⟩ "" circle {} "b1" "=A1" cell .empty
  rw [failed] at storage
  rw [refused] at edit
  exact ⟨cell, failed, storage, refused, edit⟩

end Sheet
end Worksheet
