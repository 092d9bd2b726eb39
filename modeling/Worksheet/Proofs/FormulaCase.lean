import Worksheet.Proofs.ContentsText
import Worksheet.Proofs.LetterCase
import Worksheet.Proofs.TokenPieces

/-! Formulas in upper and lower case. A text in lower case has the same tokens, but for the case of what is
no token, so it is read as the same formula or refused for the same fault. -/

namespace Worksheet

/-- The case of letters is left in the text of a token only where that is kept to be quoted. -/
def Token.folded : Token → Token
  | stray text => stray (text.map Char.toLower)
  | other => other

def FormulaError.folded : FormulaError → FormulaError
  | stray text => stray (text.map Char.toLower)
  | tooLarge literal => tooLarge (literal.map Char.toLower)
  | start found => start found.folded
  | finish found => finish found.folded
  | operandExpected after found => operandExpected after.folded found.folded
  | operatorExpected after found => operatorExpected after.folded found.folded
  | other => other

/-! The tokens of a text in lower case -/

theorem Piece.token_folded {piece : Piece} (spelled : piece.Fits ∨ ∃ run, piece = .stray run) :
    piece.folded.token = (piece.token.map (Option.map Token.folded)).mapError FormulaError.folded := by
  cases piece with
  | opening | closing | operator | cell | blank | stray => rfl
  | literal numeral =>
    obtain fits | ⟨run, impossible⟩ := spelled
    · simp only [folded, token, Numeral.Regular.decimal_folded fits, Numeral.text_folded]
      split
      next => rfl
      next => rfl
    · cases impossible

namespace Token

theorem ofPieces_folded {pieces : List Piece} (spelled : ∀ piece ∈ pieces, piece.Fits ∨ ∃ run, piece = .stray run) :
    ofPieces (pieces.map Piece.folded) = ((ofPieces pieces).map (List.map folded)).mapError FormulaError.folded := by
  induction pieces with
  | nil => rfl
  | cons piece pieces ih =>
    rw [List.forall_mem_cons] at spelled
    rw [List.map_cons, ofPieces, ofPieces, Piece.token_folded spelled.1, ih spelled.2]
    cases piece.token with
    | error e => rfl
    | ok token? =>
      cases ofPieces pieces with
      | error e => rfl
      | ok tokens =>
        cases token? with
        | none => rfl
        | some token => rfl

theorem scan_lower (text : List Char) :
    scan (text.map Char.toLower) = ((scan text).map (List.map folded)).mapError FormulaError.folded := by
  rw [scan, Piece.ofText_lower, ofPieces_folded (Piece.cut_ofText text).fits]
  rfl

theorem begins_folded (token : Token) : token.folded.begins = token.begins := by cases token <;> rfl

theorem ends_folded (token : Token) : token.folded.ends = token.ends := by cases token <;> rfl

end Token

namespace Formula

/-! The faults of tokens in lower case -/

theorem strayText?_folded (token : Token) : strayText? token.folded = (strayText? token).map (List.map Char.toLower) := by
  cases token <;> rfl

theorem neighbourFault?_folded (current next : Token) :
    neighbourFault? current.folded next.folded = (neighbourFault? current next).map FormulaError.folded := by
  cases current <;> cases next <;> rfl

theorem neighboursFault?_folded (tokens : List Token) :
    neighboursFault? (tokens.map Token.folded) = (neighboursFault? tokens).map FormulaError.folded := by
  induction tokens with
  | nil => rfl
  | cons current tokens ih =>
    cases tokens with
    | nil => rfl
    | cons next tokens =>
      rw [List.map_cons, List.map_cons, neighboursFault?, neighboursFault?, neighbourFault?_folded, Option.map_or, ← ih]
      rfl

theorem parenthesesFault?_folded (position openings closings : Nat) (tokens : List Token) :
    parenthesesFault? position openings closings (tokens.map Token.folded) =
      (parenthesesFault? position openings closings tokens).map FormulaError.folded := by
  induction tokens generalizing position openings closings with
  | nil =>
    simp only [List.map_nil, parenthesesFault?]
    split
    next => rfl
    next => rfl
  | cons token tokens ih =>
    cases token with
    | closing =>
      simp only [List.map_cons, Token.folded, parenthesesFault?]
      split
      next => rfl
      next => exact ih ..
    | opening | operator | number | cell | stray => exact ih ..

theorem fault?_folded (tokens : List Token) :
    fault? (tokens.map Token.folded) = (fault? tokens).map FormulaError.folded := by
  have strays : strayText? ∘ Token.folded = Option.map (List.map Char.toLower) ∘ strayText? :=
    funext strayText?_folded
  unfold fault?
  rw [List.head?_map, List.getLast?_map, List.findSome?_map, strays, ← List.map_findSome?, neighboursFault?_folded,
    parenthesesFault?_folded]
  cases tokens.head? with
  | none => rfl
  | some first =>
    cases tokens.getLast? with
    | none => rfl
    | some last =>
      cases tokens.findSome? strayText? with
      | some text => rfl
      | none =>
        simp only [Option.map_some, Option.map_none, Token.begins_folded, Token.ends_folded, ← Option.map_or]
        split
        next => rfl
        split
        next => rfl
        next => rfl

theorem map_folded_of_plain {tokens : List Token} (plain : ∀ token ∈ tokens, strayText? token = none) :
    tokens.map Token.folded = tokens := by
  have same (token : Token) (member : token ∈ tokens) : token.folded = token := by
    cases token with
    | stray text => cases plain _ member
    | opening | closing | operator | number | cell => rfl
  exact (List.map_congr_left same).trans tokens.map_id

theorem parse_lower (text : List Char) : parse (text.map Char.toLower) = (parse text).mapError FormulaError.folded := by
  cases read : parse text with
  | ok f =>
    apply parse_eq_ok_iff.mpr
    rw [Token.scan_lower, parse_eq_ok_iff.mp read]
    exact congrArg Except.ok (map_folded_of_plain f.faultless.plain)
  | error e =>
    apply parse_eq_error_iff.mpr
    rw [Token.scan_lower]
    rcases parse_eq_error_iff.mp read with failed | ⟨tokens, scanned, fault⟩
    · rw [failed]
      exact Or.inl rfl
    · rw [scanned]
      exact Or.inr ⟨_, rfl, by rw [fault?_folded, fault]; rfl⟩

end Formula

theorem Sheet.enter_signed (sheet : Sheet) {name : String} {address : Address} (named : Address.Names name address)
    (text : List Char) : sheet.enter name (.ofList ('=' :: text)) =
      match Formula.parse text with
      | .error e => (.error (.formula e), sheet)
      | .ok f => sheet.store address (.formula f) := by
  rw [enter, Address.parse_eq_ok_iff.mpr named, (Contents.signed_ofList text).parse]
  cases Formula.parse text with
  | error e => rfl
  | ok f => rfl

namespace Formula

/-- Two spellings are compared through the one in lower case that they have in common. -/
theorem parse_either_case {text other : List Char} (same : other.map Char.toLower = text.map Char.toLower) :
    (∃ f, parse text = .ok f ∧ parse other = .ok f) ∨
      ∃ e e', parse text = .error e ∧ parse other = .error e' ∧ e'.folded = e.folded := by
  have lower : (parse other).mapError FormulaError.folded = (parse text).mapError FormulaError.folded := by
    rw [← parse_lower, ← parse_lower, same]
  cases read : parse text with
  | ok f =>
    cases again : parse other with
    | ok g =>
      rw [read, again] at lower
      exact Or.inl ⟨f, rfl, lower⟩
    | error e' =>
      rw [read, again] at lower
      cases lower
  | error e =>
    cases again : parse other with
    | ok g =>
      rw [read, again] at lower
      cases lower
    | error e' =>
      rw [read, again] at lower
      exact Or.inr ⟨e, e', rfl, rfl, Except.error.inj lower⟩

/-- Texts that are the same but for the case of their letters are read as the same formula, or refused for
the same fault with quotations that are the same but for their case. Entered under any two names
of a cell, they are both accepted with the same answer or both refused, and leave the same sheet. -/
theorem same_in_either_case {text other : List Char} (same : other.map Char.toLower = text.map Char.toLower) :
    (∀ f, parse other = .ok f ↔ parse text = .ok f) ∧
    (∀ e, parse text = .error e → ∃ e', parse other = .error e' ∧ e'.folded = e.folded) ∧
    ∀ (sheet : Sheet) (name respelled : String) address, Address.Names name address → Address.Names respelled address →
      (sheet.enter respelled (.ofList ('=' :: other))).2 = (sheet.enter name (.ofList ('=' :: text))).2 ∧
      ∀ order, (sheet.enter respelled (.ofList ('=' :: other))).1 = .ok order ↔
        (sheet.enter name (.ofList ('=' :: text))).1 = .ok order := by
  rcases parse_either_case same with ⟨f, read, again⟩ | ⟨e, e', read, again, quoted⟩
  · rw [read, again]
    refine ⟨fun _ => Iff.rfl, nofun, ?_⟩
    intro sheet name respelled address named named'
    rw [sheet.enter_signed named, sheet.enter_signed named', read, again]
    exact ⟨rfl, fun _ => Iff.rfl⟩
  · rw [read, again]
    refine ⟨fun _ => ⟨nofun, nofun⟩, ?_, ?_⟩
    · intro failed told
      obtain rfl := Except.error.inj told
      exact ⟨e', rfl, quoted⟩
    · intro sheet name respelled address named named'
      rw [sheet.enter_signed named, sheet.enter_signed named', read, again]
      exact ⟨rfl, fun _ => ⟨nofun, nofun⟩⟩

private def priced : Session := (Session.start {}).run [.enter "A1" "2", .enter "D1" "=C1"]

/-- A name, a variable and the mark of a power are respelled, and so is what is wrong in a second formula. -/
theorem same_in_either_case_of_power : ∃ order : List Address,
    (priced.sheet.enter "c1" "=a1*1E2").1 = .ok order ∧ (priced.sheet.enter "C1" "=A1*1e2").1 = .ok order ∧
    (priced.sheet.enter "C1" "=A1*1e2").2 = (priced.sheet.enter "c1" "=a1*1E2").2 ∧
    order.map Address.text = ["C1", "D1"] ∧ parse "a1*$e".toList = .error (.stray "$e".toList) ∧
    ∃ e, parse "A1*$E".toList = .error e ∧ e.folded = .stray "$e".toList := by
  have found : (Address.parse? "c1").isSome = true ∧ Address.parse? "C1" = Address.parse? "c1" := by decide +kernel
  obtain ⟨address, parsed⟩ := Option.isSome_iff_exists.mp found.1
  have named := Address.parse?_eq_some_iff.mp parsed
  have named' := Address.parse?_eq_some_iff.mp (found.2.trans parsed)
  have shown : (priced.sheet.enter "c1" "=a1*1E2").1.toOption.map (·.map Address.text) = some ["C1", "D1"] := by
    decide +kernel
  have refused : parse "a1*$e".toList = .error (.stray "$e".toList) := by decide +kernel
  have power : "A1*1e2".toList.map Char.toLower = "a1*1E2".toList.map Char.toLower := by decide
  have currency : "A1*$E".toList.map Char.toLower = "a1*$e".toList.map Char.toLower := by decide
  obtain ⟨_, _, edits⟩ := same_in_either_case power
  obtain ⟨left, answers⟩ := edits priced.sheet "c1" "C1" address named named'
  obtain ⟨_, faults, _⟩ := same_in_either_case currency
  cases accepted : (priced.sheet.enter "c1" "=a1*1E2").1 with
  | error e =>
    rw [accepted] at shown
    cases shown
  | ok order =>
    rw [accepted] at shown
    exact ⟨order, rfl, (answers order).mpr accepted, left, Option.some.inj shown, refused, faults _ refused⟩

end Formula
end Worksheet
