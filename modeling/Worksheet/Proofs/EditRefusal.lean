import Worksheet.Proofs.AddressSpelling
import Worksheet.Proofs.SheetConsistency

/-! A request that is refused cannot be seen afterwards, and entering a text is refused for three
reasons only, each told from the text and from the formulas of the other cells. -/

namespace Worksheet
open Relation

namespace Contents

/-- An entry that is taken for a formula, with the text of it. -/
structure Signed (entry : String) (text : List Char) : Prop where
  unread : number? entry.toList = none
  sign : entry.toList = '=' :: text

theorem Signed.parse {entry : String} {text : List Char} (signed : Signed entry text) :
    Contents.parse entry = (Formula.parse text).map formula := by
  have filled : entry ≠ "" := by
    rintro rfl
    simpa using signed.sign
  rw [Contents.parse, if_neg filled, signed.unread]
  simp only [signed.sign]

theorem parse_of_unsigned {entry : String} (unsigned : ∀ text, ¬ Signed entry text) :
    ∃ contents, parse entry = .ok contents ∧ contents.formula? = none := by
  unfold parse
  split
  next => exact ⟨.empty, rfl, rfl⟩
  next =>
    split
    next value _ => exact ⟨.number value, rfl, rfl⟩
    next unread =>
      split
      next text sign => exact absurd ⟨unread, sign⟩ (unsigned text)
      next => exact ⟨.text entry, rfl, rfl⟩

theorem parse_eq_map_iff {entry : String} (result : Except FormulaError Formula) :
    parse entry = result.map formula ↔ ∃ text, Signed entry text ∧ Formula.parse text = result := by
  constructor
  · intro same
    by_cases signed : ∃ text, Signed entry text
    · obtain ⟨text, signed⟩ := signed
      refine ⟨text, signed, ?_⟩
      rw [signed.parse] at same
      generalize Formula.parse text = read at same ⊢
      cases read with
      | error e =>
        cases result with
        | error => exact congrArg Except.error (Except.error.inj same)
        | ok => cases same
      | ok f =>
        cases result with
        | error => cases same
        | ok => exact congrArg Except.ok (formula.inj (Except.ok.inj same))
    · obtain ⟨contents, read, plain⟩ := parse_of_unsigned (not_exists.mp signed)
      rw [read] at same
      cases result with
      | error => cases same
      | ok => rw [Except.ok.inj same] at plain; cases plain
  · rintro ⟨text, signed, rfl⟩
    exact signed.parse

theorem parse_eq_error_iff {entry : String} {e : FormulaError} :
    parse entry = .error e ↔ ∃ text, Signed entry text ∧ Formula.parse text = .error e :=
  parse_eq_map_iff (.error e)

theorem parse_eq_formula_iff {entry : String} {f : Formula} :
    parse entry = .ok (.formula f) ↔ ∃ text, Signed entry text ∧ Formula.parse text = .ok f :=
  parse_eq_map_iff (.ok f)

end Contents

namespace Sheet

variable {sheet : Sheet}

theorem store_error_iff (valid : Valid sheet) (address : Address) (contents : Contents) (e : SheetError) :
    (sheet.store address contents).1 = .error e ↔ e = .circular address ∧
      ∃ f, contents = .formula f ∧ ∃ input ∈ f.inputs, ReflTransGen (Reads sheet.cells) address input := by
  rcases store_cases valid address contents with ⟨order, same, _, apart⟩ | ⟨f, rfl, circle, same⟩
  · rw [same]
    constructor
    · intro refused
      cases refused
    · rintro ⟨_, f, rfl, input, mentioned, reaches⟩
      exact absurd reaches (apart input (Contents.mem_reads.mpr ⟨f, rfl, mentioned⟩))
  · rw [same]
    constructor
    · intro refused
      cases refused
      exact ⟨rfl, f, rfl, circle⟩
    · rintro ⟨rfl, _⟩
      rfl

theorem store_refused_same (valid : Valid sheet) {address : Address} {contents : Contents} {e : SheetError}
    (refused : (sheet.store address contents).1 = .error e) : Same (sheet.store address contents).2 sheet := by
  rcases store_cases valid address contents with ⟨order, same, _⟩ | ⟨f, _, _, same⟩
  · rw [same] at refused
    cases refused
  · rw [same]
    exact valid.restore address f.inputs.toList

theorem enter_refused_same (valid : Valid sheet) {name entry : String} {e : SheetError}
    (refused : (sheet.enter name entry).1 = .error e) : Same (sheet.enter name entry).2 sheet := by
  rcases sheet.enter_cases name entry with ⟨_, _, same⟩ | ⟨_, _, _, _, same⟩ | ⟨address, contents, _, _, same⟩
  · rw [same]
    exact valid.same
  · rw [same]
    exact valid.same
  · rw [same] at refused ⊢
    exact store_refused_same valid refused

theorem put_refused_same (valid : Valid sheet) {address : Address} {given : Contents} {e : SheetError}
    (refused : (sheet.put address given).1 = .error e) : Same (sheet.put address given).2 sheet := by
  rcases sheet.put_cases address given with ⟨_, same⟩ | ⟨contents, _, same⟩
  · rw [same]
    exact valid.same
  · rw [same] at refused ⊢
    exact store_refused_same valid refused

theorem Outcome.refused_same (valid : Valid sheet) {edited : Edited} (outcome : Outcome sheet edited) {e : SheetError}
    (refused : edited.1 = .error e) : Same edited.2 sheet := by
  cases outcome with
  | entered name entry => exact enter_refused_same valid refused
  | put address given => exact put_refused_same valid refused
  | loaded | saved => cases refused
  | refused => exact valid.same

/-- Whatever is refused, and for whatever reason, nothing that can be asked of the sheet has another
answer afterwards, whether the graph had been rewired in between or not. -/
theorem perform_refused_same (reached : Reachable sheet) {σ : Type} (files : Files (StateM σ)) (disk : σ)
    (request : Request) {e : SheetError} (refused : ((request.perform files sheet).run disk).1.1 = .error e) :
    Same ((request.perform files sheet).run disk).1.2 sheet :=
  (perform_outcome files disk sheet request).refused_same reached.valid refused

private def joined : Session := (Session.start {}).run [.enter "A1" "=B1+C1", .enter "C1" "=D1+E1"]

private theorem joined_reachable : Reachable joined.sheet := Session.run_reachable (.new {}) _

/-- The refused formula shares an input with the one before it and mentions its own cell. -/
theorem overlapping_refused_same : ∃ e, Reachable joined.sheet ∧
    ((Request.perform Folder.access joined.sheet (.enter "C1" "=D1+A1+C1")).run .empty).1.1 = .error e ∧
    Same ((Request.perform Folder.access joined.sheet (.enter "C1" "=D1+A1+C1")).run .empty).1.2 joined.sheet := by
  have failed : ((Request.perform Folder.access joined.sheet (.enter "C1" "=D1+A1+C1")).run .empty).1.1.isOk = false := by
    decide +kernel
  cases refused : ((Request.perform Folder.access joined.sheet (.enter "C1" "=D1+A1+C1")).run .empty).1.1 with
  | ok order => simp [refused, Except.isOk, Except.toBool] at failed
  | error e => exact ⟨e, joined_reachable, rfl, perform_refused_same joined_reachable _ _ _ refused⟩

/-- Why a text cannot be entered in a cell. For a formula that is right, what counts is what the
stored formulas read, and not what their cells show. -/
inductive Refusal (cells : Std.TreeMap Address Cell) (name entry : String) : SheetError → Prop where
  | address (unspelled : ∀ column row, ¬ Address.Spelled name column row) : Refusal cells name entry (.address ⟨name⟩)
  | formula {address text e} (named : Address.Names name address) (signed : Contents.Signed entry text)
      (wrong : Formula.parse text = .error e) : Refusal cells name entry (.formula e)
  | circular {address text f input} (named : Address.Names name address) (signed : Contents.Signed entry text)
      (right : Formula.parse text = .ok f) (mentioned : input ∈ f.inputs)
      (circle : input = address ∨ TransGen (Reads cells) address input) : Refusal cells name entry (.circular address)

theorem Refusal.congr {before after : Std.TreeMap Address Cell} {name entry : String} {e : SheetError}
    (agree : ∀ address, Address.Names name address →
      ∀ input reader, reader ≠ address → Reads before input reader → Reads after input reader)
    (refusal : Refusal before name entry e) : Refusal after name entry e := by
  cases refusal with
  | address unspelled => exact .address unspelled
  | formula named signed wrong => exact .formula named signed wrong
  | circular named signed right mentioned circle =>
    rw [← reflTransGen_iff_eq_or_transGen] at circle
    have circle := Graph.reaches_congr (agree _ named) circle
    rw [reflTransGen_iff_eq_or_transGen] at circle
    exact .circular named signed right mentioned circle

theorem enter_error_iff (valid : Valid sheet) (name entry : String) (e : SheetError) :
    (sheet.enter name entry).1 = .error e ↔ Refusal sheet.cells name entry e := by
  constructor
  · intro refused
    rcases sheet.enter_cases name entry with ⟨_, unnamed, same⟩ | ⟨address, _, named, wrong, same⟩ |
      ⟨address, contents, named, read, same⟩
    · rw [same] at refused
      obtain ⟨unspelled, rfl⟩ := Address.parse_eq_error_iff.mp unnamed
      cases refused
      exact .address unspelled
    · rw [same] at refused
      obtain ⟨text, signed, wrong⟩ := Contents.parse_eq_error_iff.mp wrong
      cases refused
      exact .formula (Address.parse_eq_ok_iff.mp named) signed wrong
    · rw [same, store_error_iff valid] at refused
      obtain ⟨rfl, f, rfl, input, mentioned, circle⟩ := refused
      obtain ⟨text, signed, right⟩ := Contents.parse_eq_formula_iff.mp read
      exact .circular (Address.parse_eq_ok_iff.mp named) signed right mentioned
        (reflTransGen_iff_eq_or_transGen.mp circle)
  · intro refusal
    cases refusal with
    | address unspelled =>
      have unnamed := Address.parse_eq_error_iff.mpr ⟨unspelled, rfl⟩
      simp only [enter, unnamed]
    | formula named signed wrong =>
      have named := Address.parse_eq_ok_iff.mpr named
      have wrong := Contents.parse_eq_error_iff.mpr ⟨_, signed, wrong⟩
      simp only [enter, named, wrong]
    | circular named signed right mentioned circle =>
      have named := Address.parse_eq_ok_iff.mpr named
      have read := Contents.parse_eq_formula_iff.mpr ⟨_, signed, right⟩
      simp only [enter, named, read]
      exact (store_error_iff valid _ _ _).mpr ⟨rfl, _, rfl, _, mentioned, reflTransGen_iff_eq_or_transGen.mpr circle⟩

/-- Entering is refused exactly for the reasons there are. Under a good name, what is no formula is
always stored, and it makes no difference which contents the new ones replace. -/
theorem enter_refused_iff (reached : Reachable sheet) (name entry : String) :
    (∀ e, (sheet.enter name entry).1 = .error e ↔ Refusal sheet.cells name entry e) ∧
    (∀ address, Address.Names name address → (∀ text, ¬ Contents.Signed entry text) →
      ∃ order, (sheet.enter name entry).1 = .ok order) ∧
    (∀ other, Reachable other →
      (∀ address, Address.Names name address → ∀ cell, cell ≠ address → other.contentsAt cell = sheet.contentsAt cell) →
      ∀ e, (other.enter name entry).1 = .error e ↔ (sheet.enter name entry).1 = .error e) := by
  refine ⟨enter_error_iff reached.valid name entry, ?_, ?_⟩
  · intro address named unsigned
    cases answer : (sheet.enter name entry).1 with
    | ok order => exact ⟨order, rfl⟩
    | error e =>
      rw [enter_error_iff reached.valid] at answer
      cases answer with
      | address unspelled =>
        obtain ⟨column, row, spelled, _⟩ := named
        exact absurd spelled (unspelled column row)
      | formula _ signed => exact absurd signed (unsigned _)
      | circular _ signed => exact absurd signed (unsigned _)
  · intro other reached' same e
    have reads (address) (named : Address.Names name address) (input reader : Address) (different : reader ≠ address) :
        Reads other.cells input reader ↔ Reads sheet.cells input reader := by
      rw [reads_iff_contentsAt, reads_iff_contentsAt, same address named reader different]
    rw [enter_error_iff reached'.valid, enter_error_iff reached.valid]
    constructor
    · exact Refusal.congr fun address named input reader different => (reads address named input reader different).mp
    · exact Refusal.congr fun address named input reader different => (reads address named input reader different).mpr

private def chained : Session := (Session.start {}).run [.enter "A1" "=B1+D1", .enter "B1" "=C1+1", .enter "C1" "=E1"]

private theorem chained_reachable : Reachable chained.sheet := Session.run_reachable (.new {}) _

/-- The same cell takes a formula that leads nowhere and none that leads back to it. -/
theorem chain_refused : Reachable chained.sheet ∧ (∃ e, Refusal chained.sheet.cells "c1" "=D1+A1" e) ∧
    ∀ e, ¬ Refusal chained.sheet.cells "c1" "=D1+F1" e := by
  refine ⟨chained_reachable, ?_, ?_⟩
  · have failed : (chained.sheet.enter "c1" "=D1+A1").1.isOk = false := by decide +kernel
    cases refused : (chained.sheet.enter "c1" "=D1+A1").1 with
    | ok order => simp [refused, Except.isOk, Except.toBool] at failed
    | error e => exact ⟨e, ((enter_refused_iff chained_reachable _ _).1 e).mp refused⟩
  · have taken : (chained.sheet.enter "c1" "=D1+F1").1.isOk = true := by decide +kernel
    intro e refusal
    rw [((enter_refused_iff chained_reachable _ _).1 e).mpr refusal] at taken
    cases taken

end Sheet
end Worksheet
