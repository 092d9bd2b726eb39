import Worksheet.Proofs.CommandArguments
import Worksheet.Proofs.FormulaCase
import Worksheet.Proofs.NumberEntries

/-! A formula that is evaluated on its own comes to what it comes to in a cell. The values that it is given
are entered in a new sheet, one by one; of two for one cell the later one counts in either case, and
with nothing but numbers in the sheet no formula can close a circle that does not mention its own cell. -/

namespace Worksheet
open Relation

namespace Command

/-- The cell that an argument gives a value to, as it is spelled there. -/
def assignedName (text : String) : String := .ofList (Text.trim (text.toList.takeWhile (· ≠ '=')))

def assignedText (text : String) : String := .ofList (text.toList.dropWhile (· ≠ '=')).tail

def Assign (texts : List String) (values : List (Address × Float)) : Prop :=
  List.Forall₂ (fun text entry => Arguments.assignment? text.toList = some entry) texts values

def unsigned (formula : String) : List Char :=
  match formula.toList with
  | '=' :: rest => rest
  | cs => cs

theorem parse_of_assignment? {text : String} {address : Address} {x : Float}
    (taken : Arguments.assignment? text.toList = some (address, x)) (finite : Number.isFinite x = true) :
    Address.Names (assignedName text) address ∧ Contents.parse (assignedText text) = .ok (.number x) := by
  unfold Arguments.assignment? at taken
  unfold assignedText
  split at taken
  next => cases taken
  next value behind =>
    obtain ⟨found, named, rest⟩ := Option.bind_eq_some_iff.mp taken
    obtain ⟨y, read, same⟩ := Option.bind_eq_some_iff.mp rest
    obtain ⟨rfl, rfl⟩ := Prod.mk.inj (Option.some.inj same)
    refine ⟨Address.parse?_eq_some_iff.mp named, Contents.parse_eq_number_iff.mpr ?_⟩
    rw [behind, List.tail_cons, String.toList_ofList, Contents.number?, read, Option.filter_some, if_pos finite]

end Command

namespace Sheet
open Command

variable {sheet : Sheet} {address : Address} {values : List (Address × Float)}

/-- Enters arguments as edits, up to the first that is refused. -/
def fill (sheet : Sheet) : List String → Except SheetError Sheet
  | [] => .ok sheet
  | text :: texts =>
    match sheet.enter (assignedName text) (assignedText text) with
    | (.error e, _) => .error e
    | (.ok _, next) => next.fill texts

/-- The sheet holds these numbers, and nothing else. -/
structure Tabled (table : Std.TreeMap Address Float) (sheet : Sheet) : Prop where
  valid : sheet.Valid
  stored : ∀ address, stored? sheet.cells address = table[address]?.map Contents.number

variable {table : Std.TreeMap Address Float}

theorem Valid.valueAt_eq (valid : Valid sheet) (address : Address) :
    sheet.valueAt address = ((stored? sheet.cells address).map (·.valued (numberAt? sheet.cells))).getD .empty := by
  unfold valueAt stored?
  cases found : sheet.cells[address]? with
  | none => rfl
  | some cell => exact valid.current address cell found

theorem Valid.numberAt?_eq (valid : Valid sheet) {value? : Option Float}
    (stored : stored? sheet.cells address = value?.map Contents.number) : numberAt? sheet.cells address = value? := by
  have shown : numberAt? sheet.cells address = (sheet.valueAt address).number? := by
    unfold numberAt? valueAt
    cases sheet.cells[address]? with
    | none => rfl
    | some cell => rfl
  rw [shown, valid.valueAt_eq, stored]
  cases value? with
  | none => rfl
  | some x => rfl

theorem Tabled.new (options : Options) : Tabled ∅ (.new options) := ⟨.new options, by simp [stored?, Sheet.new]⟩

theorem Tabled.store (tabled : Tabled table sheet) {contents : Contents} (apart : address ∉ contents.reads) :
    ∃ order next, sheet.store address contents = (.ok order, next) ∧ next.Valid ∧ ∀ other, stored? next.cells other =
      if other = address then (if contents = .empty then none else some contents) else stored? sheet.cells other := by
  have valid := tabled.valid.store address contents
  rcases store_cases tabled.valid address contents with ⟨order, same, _⟩ | ⟨f, rfl, ⟨input, mentioned, reaches⟩, _⟩
  · rw [same] at valid
    exact ⟨order, _, same, valid, fun other => stored?_settle _ address other contents order⟩
  · -- No cell reads another, so only its own cell can be reached.
    rcases reaches.cases_head with rfl | ⟨reader, ⟨g, held, _⟩, _⟩
    · exact absurd (Contents.mem_reads.mpr ⟨f, rfl, mentioned⟩) apart
    · rw [tabled.stored] at held
      obtain ⟨_, _, number⟩ := Option.map_eq_some_iff.mp held
      cases number

theorem Tabled.enter (tabled : Tabled table sheet) {text : String} {x : Float}
    (taken : Arguments.assignment? text.toList = some (address, x)) (finite : Number.isFinite x = true) :
    ∃ order next, sheet.enter (assignedName text) (assignedText text) = (.ok order, next) ∧
      Tabled (table.insert address x) next := by
  obtain ⟨named, read⟩ := parse_of_assignment? taken finite
  have unread : address ∉ (Contents.number x).reads := List.not_mem_nil
  obtain ⟨order, next, same, valid, stored⟩ := tabled.store unread
  refine ⟨order, next, ?_, valid, fun other => ?_⟩
  · simp only [Sheet.enter, Address.parse_eq_ok_iff.mpr named, read, same]
  · rw [stored, tabled.stored, Std.TreeMap.getElem?_insert]
    by_cases same : other = address
    · simp [same]
    · simp [same, Ne.symm same]

theorem Tabled.fill (tabled : Tabled table sheet) {texts : List String} (assign : Assign texts values)
    (finite : ∀ entry ∈ values, Number.isFinite entry.2 = true) :
    ∃ filled, sheet.fill texts = .ok filled ∧
      Tabled (values.foldl (fun table entry => table.insert entry.1 entry.2) table) filled := by
  induction assign generalizing table sheet with
  | nil => exact ⟨sheet, rfl, tabled⟩
  | cons taken _ ih =>
    obtain ⟨order, next, same, tabled⟩ := tabled.enter taken (finite _ List.mem_cons_self)
    obtain ⟨filled, rest, tabled⟩ := ih tabled fun entry member => finite entry (List.mem_cons_of_mem _ member)
    exact ⟨filled, by simp only [Sheet.fill, same, rest], tabled⟩

/-- A formula is evaluated with the numbers of the sheet, of which its own cell is none. -/
theorem Tabled.enter_signed (tabled : Tabled table sheet) {name : String} (named : Address.Names name address)
    {text : List Char} {f : Formula} (read : Formula.parse text = .ok f) (apart : address ∉ f.inputs) :
    ∃ order next, sheet.enter name (.ofList ('=' :: text)) = (.ok order, next) ∧
      next.valueAt address = .ofResult (f.evaluate (table[·]?)) := by
  have unread : address ∉ (Contents.formula f).reads := by
    rw [Contents.mem_reads]
    rintro ⟨_, ⟨⟩, mentioned⟩
    exact apart mentioned
  obtain ⟨order, next, same, valid, stored⟩ := tabled.store unread
  refine ⟨order, next, by rw [Sheet.enter_signed _ named, read]; exact same, ?_⟩
  rw [valid.valueAt_eq, stored, if_pos rfl, if_neg nofun]
  apply congrArg Value.ofResult
  apply Formula.evaluate_congr
  intro input mentioned
  have other : input ≠ address := by
    rintro rfl
    exact apart mentioned
  apply valid.numberAt?_eq
  rw [stored, if_neg other, tabled.stored]

theorem Tabled.valueAt_eq (tabled : Tabled table sheet) (address : Address) :
    sheet.valueAt address = (table[address]?.map Value.number).getD .empty := by
  rw [tabled.valid.valueAt_eq, tabled.stored]
  cases table[address]? with
  | none => rfl
  | some x => rfl

end Sheet

namespace EvaluationError

end EvaluationError

namespace Command.Report

def refusal (formula : String) (fault : FormulaError) : Report :=
  .failure "" ("Invalid formula '" ++ formula ++ "'") [fault.message]

def undefined (f : Formula) (e : EvaluationError) : Report :=
  .failure "" ("Failed to evaluate '" ++ .ofList f.canonical ++ "': " ++ e.message) []

def printed (x : Float) : Report := ⟨0, Number.toText x ++ "\n", ""⟩

def ofResult (f : Formula) : Except EvaluationError Float → Report
  | .error e => undefined f e
  | .ok x => printed x

end Command.Report

namespace Command

variable {texts : List String} {values : List (Address × Float)}

variable {formula : String} {cell : Address} {filled next : Sheet} {order : List Address}

private def given (text : String) (valid : (Arguments.assignment? text.toList).isSome = true := by decide +kernel) :
    Address × Float := (Arguments.assignment? text.toList).get valid

end Command
end Worksheet
