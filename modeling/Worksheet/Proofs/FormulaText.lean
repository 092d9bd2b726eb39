import Worksheet.Formula.Evaluation
import Worksheet.Proofs.NumberText
import Worksheet.Proofs.TextPieces

/-! The canonical text of a formula is scanned into the same tokens again. Tokens are written without
anything between them, so this needs that what may follow an operand in a formula cannot be
taken for more of it. -/

namespace Worksheet

namespace Token

/-- A number that a numeral can stand for. -/
def Written : Token → Prop
  | number value => Number.isFinite value = true ∧ Magnitude.isNegative value = false
  | stray _ => False
  | _ => True

def Stops (rest : List Char) : Prop := ∀ c ∈ rest.head?, c = ')' ∨ ∃ op : Operator, c = op.symbol

theorem Stops.isDigit {rest : List Char} (stops : Stops rest) : ∀ c ∈ rest.head?, c.isDigit = false := by
  intro c first
  rcases stops c first with rfl | ⟨op, rfl⟩
  · rfl
  · cases op <;> rfl

theorem Stops.ends {rest : List Char} (stops : Stops rest) : Numeral.Ends rest := by
  intro c first
  rcases stops c first with rfl | ⟨op, rfl⟩
  · decide
  · cases op <;> decide

private theorem exists_literal {value : Float} (written : Written (number value)) {rest : List Char} (stops : Stops rest) :
    ∃ n : Numeral, Piece.scan? (Number.write value ++ rest) = some (.literal n, rest) ∧
      (Piece.literal n).token = .ok (some (number value)) := by
  obtain ⟨finite, positive⟩ := written
  have size := Number.ofFloat_lt_of_isFinite finite
  obtain ⟨n, plain, text, value_eq⟩ := Number.exists_numeral size
  have spelled : Number.write value = n.text := by
    unfold Number.write
    simp only [Nat.not_lt.mpr size.le, positive, text]
    rfl
  have read : Number.ofDecimal false n.decimal = value := by
    have known := Magnitude.toFloat_ofFloat value
    rwa [positive, ← value_eq] at known
  refine ⟨n, ?_, ?_⟩
  · rw [spelled]
    exact Piece.scan?_of_numeral (plain.regular.scan? stops.ends)
  · simp only [Piece.token, read, finite, if_true]

theorem exists_piece {token : Token} (written : token.Written) {rest : List Char}
    (stops : token.isOperand = true → Stops rest) :
    ∃ piece : Piece, Piece.scan? (token.text ++ rest) = some (piece, rest) ∧ piece.token = .ok (some token) := by
  cases token with
  | opening => exact ⟨.opening, rfl, rfl⟩
  | closing => exact ⟨.closing, rfl, rfl⟩
  | operator op => exact ⟨.operator op, by cases op <;> rfl, rfl⟩
  | number value =>
    obtain ⟨n, scanned, token⟩ := exists_literal written (stops rfl)
    exact ⟨_, scanned, token⟩
  | cell address => exact ⟨_, Piece.scan?_of_address (address.scan?_text (stops rfl).isDigit), rfl⟩
  | stray text => exact written.elim

theorem scan_append {token : Token} {tokens : List Token} {rest : List Char} (written : token.Written)
    (stops : token.isOperand = true → Stops rest) (scanned : scan rest = .ok tokens) :
    scan (token.text ++ rest) = .ok (token :: tokens) := by
  obtain ⟨piece, found, same⟩ := exists_piece written stops
  unfold scan at scanned ⊢
  rw [Piece.ofText_of_scan? found, ofPieces, same, scanned]
  rfl

private theorem stops_of_neighbours {token : Token} {tokens : List Token} (operand : token.isOperand = true)
    (neighbours : Formula.neighboursFault? (token :: tokens) = none) : Stops (tokens.flatMap text) := by
  cases tokens with
  | nil => exact nofun
  | cons next tokens =>
    rw [Formula.neighboursFault?, Option.or_eq_none_iff] at neighbours
    intro c first
    cases next with
    | closing =>
      cases first
      exact Or.inl rfl
    | operator op =>
      cases first
      exact Or.inr ⟨op, rfl⟩
    | opening | number | cell | stray =>
      cases token with
      | number | cell => cases neighbours.1
      | opening | closing | operator | stray => cases operand

theorem scan_flatMap_text {tokens : List Token} (written : ∀ token ∈ tokens, token.Written)
    (neighbours : Formula.neighboursFault? tokens = none) : scan (tokens.flatMap text) = .ok tokens := by
  induction tokens with
  | nil =>
    rw [List.flatMap_nil, scan, Piece.ofText]
    rfl
  | cons token tokens ih =>
    have later : Formula.neighboursFault? tokens = none := by
      cases tokens with
      | nil => rfl
      | cons next tokens =>
        rw [Formula.neighboursFault?, Option.or_eq_none_iff] at neighbours
        exact neighbours.2
    apply scan_append (written token List.mem_cons_self)
    · exact fun operand => stops_of_neighbours operand neighbours
    · exact ih (fun token member => written token (List.mem_cons_of_mem _ member)) later

/-- Numbers come from numerals, which have no sign and are refused where they are not finite. -/
theorem written_of_piece {piece : Piece} {token : Token} (read : piece.token = .ok (some token))
    (plain : Formula.strayText? token = none) : token.Written := by
  cases piece with
  | opening | closing | operator | cell =>
    cases read
    trivial
  | blank => cases read
  | stray =>
    cases read
    cases plain
  | literal n =>
    simp only [Piece.token] at read
    split at read
    next finite =>
      cases read
      exact ⟨finite, Number.isNegative_ofDecimal n.decimal⟩
    next => cases read

theorem ofPieces_cons {piece : Piece} {pieces : List Piece} {tokens : List Token} :
    ofPieces (piece :: pieces) = .ok tokens ↔ ∃ token? later, piece.token = .ok token? ∧ ofPieces pieces = .ok later ∧
      tokens = token?.toList ++ later := by
  rw [ofPieces]
  constructor
  · intro read
    cases first : piece.token with
    | error e =>
      rw [first] at read
      cases read
    | ok token? =>
      cases rest : ofPieces pieces with
      | error e =>
        rw [first, rest] at read
        cases read
      | ok later =>
        rw [first, rest] at read
        cases read
        exact ⟨token?, later, rfl, rfl, rfl⟩
  · rintro ⟨token?, later, first, rest, rfl⟩
    rw [first, rest]
    rfl

theorem mem_ofPieces {pieces : List Piece} {tokens : List Token} (read : ofPieces pieces = .ok tokens) {token : Token}
    (member : token ∈ tokens) : ∃ piece : Piece, piece.token = .ok (some token) := by
  induction pieces generalizing tokens with
  | nil =>
    cases read
    cases member
  | cons piece pieces ih =>
    obtain ⟨token?, later, first, rest, rfl⟩ := ofPieces_cons.mp read
    rcases List.mem_append.mp member with member | member
    · rw [Option.mem_toList] at member
      exact ⟨piece, by rw [first, member]⟩
    · exact ih rest member

end Token

namespace Formula

theorem written_of_scan {text : List Char} {tokens : List Token} (scanned : Token.scan text = .ok tokens)
    (plain : ∀ token ∈ tokens, strayText? token = none) : ∀ token ∈ tokens, token.Written := by
  intro token member
  obtain ⟨piece, read⟩ := Token.mem_ofPieces scanned member
  exact Token.written_of_piece read (plain token member)

theorem written (f : Formula) : ∀ token ∈ f.tokens, token.Written := by
  obtain ⟨text, scanned⟩ := f.scanned
  exact written_of_scan scanned f.faultless.plain

/-- Tokens without faults are those of a formula, since there is a text for them. -/
theorem exists_of_written {tokens : List Token} (written : ∀ token ∈ tokens, token.Written) (faultless : Faultless tokens) :
    ∃ f : Formula, f.tokens = tokens :=
  ⟨⟨tokens, ⟨_, Token.scan_flatMap_text written faultless.neighbours⟩, fault?_eq_none_iff.mpr faultless⟩, rfl⟩

theorem scan_canonical (f : Formula) : Token.scan f.canonical = .ok f.tokens :=
  Token.scan_flatMap_text f.written f.faultless.neighbours

theorem parse_canonical (f : Formula) : parse f.canonical = .ok f := parse_eq_ok_iff.mpr f.scan_canonical

theorem eq_of_same {f g : Formula} (same : f.same g = true) : f = g := by
  have text : f.canonical = g.canonical := by simpa [Formula.same] using same
  have read := f.parse_canonical
  rw [text, g.parse_canonical] at read
  exact (Except.ok.inj read).symm

/-- Reading a canonical text gives back the tokens that it was written for, every number bit for bit, so
nothing tells formulas with the same canonical text apart. -/
theorem faithful_canonical :
    (∀ text f, parse text = .ok f → ∃ again, parse f.canonical = .ok again ∧ again.tokens = f.tokens ∧
      again.canonical = f.canonical ∧ again.inputs = f.inputs ∧ ∀ lookup, again.evaluate lookup = f.evaluate lookup) ∧
    ∀ f g : Formula, f.same g = true →
      f.tokens = g.tokens ∧ f.inputs = g.inputs ∧ ∀ lookup, f.evaluate lookup = g.evaluate lookup := by
  constructor
  · intro text f _
    exact ⟨f, f.parse_canonical, rfl, rfl, rfl, fun _ => rfl⟩
  · intro f g same
    obtain rfl := eq_of_same same
    exact ⟨rfl, rfl, fun _ => rfl⟩

theorem faithful_respelled : ∃ f g : Formula, parse "1e3*ab12 - .50/( b1 )".toList = .ok f ∧
    parse "1000 * AB12-0.5 / (b1)".toList = .ok g ∧ f.tokens = g.tokens := by
  have shown : ((parse "1e3*ab12 - .50/( b1 )".toList).toOption.bind fun f =>
      (parse "1000 * AB12-0.5 / (b1)".toList).toOption.map f.same) = some true := by
    decide +kernel
  obtain ⟨f, read, rest⟩ := Option.bind_eq_some_iff.mp shown
  obtain ⟨g, read', same⟩ := Option.map_eq_some_iff.mp rest
  have ok {text : List Char} {f : Formula} (found : (parse text).toOption = some f) : parse text = .ok f := by
    cases read : parse text with
    | error e =>
      rw [read] at found
      cases found
    | ok g =>
      rw [read] at found
      exact congrArg Except.ok (Option.some.inj found)
  exact ⟨f, g, ok read, ok read', (faithful_canonical.2 f g same).1⟩

end Formula
end Worksheet
