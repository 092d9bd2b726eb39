import Worksheet.Text.Blank
import Worksheet.Formula.Fault

/-! How a text falls into pieces: parentheses, operators, variables, numerals, runs of white
space, and runs in which nothing of that begins. The pieces spell the text they came from;
its tokens are read off them. -/

namespace Worksheet

inductive Piece where
  | opening
  | closing
  | operator (op : Operator)
  | cell (spelling : List Char) (address : Address)
  | literal (numeral : Numeral)
  | blank (run : List Char)
  | stray (run : List Char)

namespace Piece

def text : Piece → List Char
  | opening => ['(']
  | closing => [')']
  | operator op => [op.symbol]
  | cell spelling _ => spelling
  | literal numeral => numeral.text
  | blank run | stray run => run

/-- The longest variable, numeral or white space at the front of a text. -/
def scanRun? (cs : List Char) : Option (Piece × List Char) :=
  match Address.scan? cs with
  | some (spelling, address, rest) => some (cell spelling address, rest)
  | none =>
    match Numeral.scan? cs with
    | some (numeral, rest) => some (literal numeral, rest)
    | none =>
      let run := cs.takeWhile Text.isBlank
      if run = [] then none else some (blank run, cs.dropWhile Text.isBlank)

/-- The piece at the front of a text, if one begins there. -/
def scan? : List Char → Option (Piece × List Char)
  | [] => none
  | c :: rest =>
    if c = '(' then some (opening, rest)
    else if c = ')' then some (closing, rest)
    else match Operator.ofSymbol? c with
      | some op => some (operator op, rest)
      | none => scanRun? (c :: rest)

theorem text_of_scanRun? {cs rest : List Char} {p : Piece} (found : scanRun? cs = some (p, rest)) :
    p.text ++ rest = cs ∧ p.text ≠ [] := by
  simp only [scanRun?] at found
  split at found
  next spelled =>
    obtain ⟨rfl, rfl⟩ := Prod.mk.inj (Option.some.inj found)
    exact Address.spelling_of_scan? spelled
  · split at found
    next numeral after spelled =>
      obtain ⟨rfl, rfl⟩ := Prod.mk.inj (Option.some.inj found)
      refine ⟨Numeral.text_of_scan? spelled, fun empty => ?_⟩
      have shorter := Numeral.length_lt_of_scan? spelled
      rw [← Numeral.text_of_scan? spelled] at shorter
      simp_all [text]
    · split at found
      · simp at found
      next nonempty =>
        obtain ⟨rfl, rfl⟩ := Prod.mk.inj (Option.some.inj found)
        exact ⟨List.takeWhile_append_dropWhile, nonempty⟩

theorem text_of_scan? {cs rest : List Char} {p : Piece} (found : scan? cs = some (p, rest)) :
    p.text ++ rest = cs ∧ p.text ≠ [] := by
  unfold scan? at found
  split at found
  · simp at found
  · split at found
    next bracket =>
      obtain ⟨rfl, rfl⟩ := Prod.mk.inj (Option.some.inj found)
      simp [text, bracket]
    · split at found
      next bracket =>
        obtain ⟨rfl, rfl⟩ := Prod.mk.inj (Option.some.inj found)
        simp [text, bracket]
      · split at found
        next op symbol =>
          obtain ⟨rfl, rfl⟩ := Prod.mk.inj (Option.some.inj found)
          simp [text, Operator.symbol_of_ofSymbol? symbol]
        · exact text_of_scanRun? found

theorem length_lt_of_scan? {cs rest : List Char} {p : Piece} (found : scan? cs = some (p, rest)) :
    rest.length < cs.length := by
  obtain ⟨joined, nonempty⟩ := text_of_scan? found
  have positive := List.length_pos_iff.mpr nonempty
  have lengths := congrArg List.length joined
  rw [List.length_append] at lengths
  omega

/-- Puts a character in which no piece begins before the pieces that follow it. -/
def glue (c : Char) : List Piece → List Piece
  | stray run :: pieces => stray (c :: run) :: pieces
  | pieces => stray [c] :: pieces

def ofText (cs : List Char) : List Piece :=
  match _ : scan? cs with
  | some (piece, rest) => piece :: ofText rest
  | none =>
    match cs with
    | [] => []
    | c :: rest => glue c (ofText rest)
termination_by cs.length
decreasing_by
  · exact length_lt_of_scan? ‹_›
  · simp

theorem flatMap_text_glue (c : Char) (pieces : List Piece) :
    (glue c pieces).flatMap text = c :: pieces.flatMap text := by
  unfold glue
  split <;> simp [text]

/-- The pieces lose and add nothing. -/
theorem flatMap_text_ofText (cs : List Char) : (ofText cs).flatMap text = cs := by
  fun_induction ofText cs with
  | case1 cs piece rest found ih => simp [ih, (text_of_scan? found).1]
  | case2 found => rfl
  | case3 c rest found ih => rw [flatMap_text_glue, ih]

/-- The token that a piece stands for. White space stands for none, and a numeral beyond the
finite numbers is refused. -/
def token : Piece → Except FormulaError (Option Token)
  | opening => .ok (some .opening)
  | closing => .ok (some .closing)
  | operator op => .ok (some (.operator op))
  | cell _ address => .ok (some (.cell address))
  | literal numeral =>
    let value := Number.ofDecimal false numeral.decimal
    if Number.isFinite value then .ok (some (.number value)) else .error (.tooLarge numeral.text)
  | blank _ => .ok none
  | stray run => .ok (some (.stray run))

end Piece

def Token.ofPieces : List Piece → Except FormulaError (List Token)
  | [] => .ok []
  | piece :: pieces => do
    let token? ← piece.token
    let tokens ← ofPieces pieces
    return token?.toList ++ tokens

def Token.scan (text : List Char) : Except FormulaError (List Token) := ofPieces (Piece.ofText text)

end Worksheet
