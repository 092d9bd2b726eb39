import Worksheet.Formula.Piece

/-! Formulas: token lists read from a text in which operands and operators alternate and
parentheses match. Two formulas count as the same when their canonical texts are equal. -/

namespace Worksheet

namespace Formula

def neighbourFault? (current next : Token) : Option FormulaError :=
  match current with
  | .opening | .operator _ => if next.begins then none else some (.operandExpected current next)
  | _ =>
    match next with
    | .operator _ | .closing => none
    | _ => some (.operatorExpected current next)

def neighboursFault? : List Token → Option FormulaError
  | current :: next :: rest => (neighbourFault? current next).or (neighboursFault? (next :: rest))
  | _ => none

/-- Counts parentheses from left to right, given the place and the counts so far. -/
def parenthesesFault? (position openings closings : Nat) : List Token → Option FormulaError
  | [] => if openings = closings then none else some (.unclosed openings closings)
  | .opening :: rest => parenthesesFault? (position + 1) (openings + 1) closings rest
  | .closing :: rest =>
    if openings ≤ closings then some (.unopened position)
    else parenthesesFault? (position + 1) openings (closings + 1) rest
  | _ :: rest => parenthesesFault? (position + 1) openings closings rest

def strayText? : Token → Option (List Char)
  | .stray text => some text
  | _ => none

/-- The first thing that keeps a token list from being a formula: stray text, then the two
ends, then neighbours, then parentheses. -/
def fault? (tokens : List Token) : Option FormulaError :=
  match tokens.head?, tokens.getLast? with
  | some first, some last =>
    match tokens.findSome? strayText? with
    | some text => some (.stray text)
    | none =>
      if !first.begins then some (.start first)
      else if !last.ends then some (.finish last)
      else (neighboursFault? tokens).or (parenthesesFault? 0 0 0 tokens)
  | _, _ => some .empty

/-- All that keeps a token list from having faults. -/
structure Faultless (tokens : List Token) : Prop where
  plain : ∀ token ∈ tokens, strayText? token = none
  start : ∃ first, tokens.head? = some first ∧ first.begins = true
  finish : ∃ last, tokens.getLast? = some last ∧ last.ends = true
  neighbours : neighboursFault? tokens = none
  parentheses : parenthesesFault? 0 0 0 tokens = none

theorem fault?_eq_none_iff {tokens : List Token} : fault? tokens = none ↔ Faultless tokens := by
  constructor
  · intro accepted
    unfold fault? at accepted
    split at accepted
    next first last start finish =>
      split at accepted
      next => cases accepted
      next plain =>
        split at accepted
        next => cases accepted
        split at accepted
        next => cases accepted
        next begins ends =>
          rw [Option.or_eq_none_iff] at accepted
          exact ⟨List.findSome?_eq_none_iff.mp plain, ⟨first, start, by simpa using begins⟩,
            ⟨last, finish, by simpa using ends⟩, accepted.1, accepted.2⟩
    next => cases accepted
  · rintro ⟨plain, ⟨first, start, begins⟩, ⟨last, finish, ends⟩, neighbours, parentheses⟩
    simp only [fault?, start, finish, List.findSome?_eq_none_iff.mpr plain, begins, ends, neighbours, parentheses]
    rfl

end Formula

structure Formula where
  tokens : List Token
  scanned : ∃ text, Token.scan text = .ok tokens
  accepted : Formula.fault? tokens = none
deriving DecidableEq

namespace Formula

theorem ext_tokens {f g : Formula} (same : f.tokens = g.tokens) : f = g := by
  cases f
  cases g
  cases same
  rfl

theorem faultless (f : Formula) : Faultless f.tokens := fault?_eq_none_iff.mp f.accepted

/-- Reads a formula, without the sign that marks it in a cell. -/
def parse (text : List Char) : Except FormulaError Formula :=
  match scanned : Token.scan text with
  | .error e => .error e
  | .ok tokens =>
    match accepted : fault? tokens with
    | some e => .error e
    | none => .ok ⟨tokens, ⟨text, scanned⟩, accepted⟩

/-- A formula is read from exactly the texts that are scanned into its tokens. -/
theorem parse_eq_ok_iff {text : List Char} {f : Formula} : parse text = .ok f ↔ Token.scan text = .ok f.tokens := by
  unfold parse
  constructor
  · intro read
    split at read
    next => cases read
    next tokens scanned =>
      split at read
      next => cases read
      next =>
        rw [← Except.ok.inj read]
        exact scanned
  · intro scanned
    split
    next e failed =>
      rw [scanned] at failed
      cases failed
    next tokens found =>
      rw [scanned] at found
      split
      next e fault =>
        rw [← Except.ok.inj found, f.accepted] at fault
        cases fault
      next => exact congrArg Except.ok (ext_tokens (Except.ok.inj found).symm)

theorem parse_eq_error_iff {text : List Char} {e : FormulaError} :
    parse text = .error e ↔ Token.scan text = .error e ∨ ∃ tokens, Token.scan text = .ok tokens ∧ fault? tokens = some e := by
  unfold parse
  split
  next failed => simp [failed]
  next tokens scanned =>
    split
    next fault => simp [scanned, fault]
    next fine => simp [scanned, fine]

/-- A text is read as a formula, or refused, by its tokens alone. -/
theorem parse_congr {text other : List Char} (same : Token.scan text = Token.scan other) : parse text = parse other := by
  cases read : parse other with
  | ok f => rwa [parse_eq_ok_iff, same, ← parse_eq_ok_iff]
  | error e => rwa [parse_eq_error_iff, same, ← parse_eq_error_iff]

/-- The spelling of a formula without spaces, with every token in its own canonical spelling. -/
def canonical (f : Formula) : List Char := f.tokens.flatMap Token.text

def inputs (f : Formula) : Std.TreeSet Address := .ofList (f.tokens.filterMap Token.cell?)

def same (f g : Formula) : Bool := f.canonical == g.canonical

end Formula
end Worksheet
