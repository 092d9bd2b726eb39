import Worksheet.Formula.Piece
import Worksheet.Proofs.NumeralSpelling

/-! How a text is cut into pieces, told without scanning: each piece is the longest match of the patterns
where it stands, and stray text is where none of them matches. One cut of a text does that, and it is the
one that scanning finds. -/

namespace Worksheet

theorem Text.apart_of_isBlank {c : Char} (blank : isBlank c = true) :
    c.isAlpha = false ∧ c.isDigit = false ∧ c ∉ ['(', ')', '+', '-', '*', '/', '.'] := by
  have bounds : c.toNat < 33 ∨ 127 < c.toNat := by
    simp only [isBlank, Bool.or_eq_true, Bool.and_eq_true, decide_eq_true_eq, beq_iff_eq] at blank
    omega
  refine ⟨?_, ?_, ?_⟩
  · rw [Bool.eq_false_iff, ne_eq, Text.isAlpha_iff]
    omega
  · rw [Bool.eq_false_iff, ne_eq, Text.isDigit_iff]
    omega
  · intro member
    have inside : ∀ d ∈ ['(', ')', '+', '-', '*', '/', '.'], 33 ≤ d.toNat ∧ d.toNat ≤ 127 := by simp
    have := inside c member
    omega

namespace Numeral

theorem Regular.eq_of_text {n m : Numeral} (regular : n.Regular) (regular' : m.Regular) (same : n.text = m.text) :
    n = m := by
  have found := regular.scan?_text
  rw [same, regular'.scan?_text] at found
  exact (Prod.mk.inj (Option.some.inj found)).1.symm

theorem Regular.mem_text {n : Numeral} (regular : n.Regular) {c : Char} (member : c ∈ n.text) :
    c.isAlphanum = true ∨ c ∈ ['+', '-', '.'] := by
  obtain ⟨whole, fraction, power⟩ := n
  have digit {c : Char} (digit : c.isDigit = true) : c.isAlphanum = true := by simp [Char.isAlphanum, digit]
  simp only [text, List.mem_append] at member
  rcases member with member | member | member
  · exact Or.inl (digit (regular.whole c member))
  · cases fraction with
    | none => cases member
    | some part =>
      rcases List.mem_cons.mp member with rfl | member
      · exact Or.inr (by decide)
      · exact Or.inl (digit (regular.fraction part rfl c member))
  · cases power with
    | none => cases member
    | some p =>
      have powered := regular.power p rfl
      simp only [Option.elim_some, Power.text, List.mem_cons, List.mem_append, Option.mem_toList] at member
      rcases member with rfl | member | member
      · rcases powered.mark with same | same <;> rw [same] <;> decide
      · rcases powered.sign c member with rfl | rfl <;> decide
      · exact Or.inl (digit (powered.digits c member))

end Numeral

namespace Piece

/-- A match of one of the patterns. Stray text matches none. -/
def Fits : Piece → Prop
  | opening | closing | operator _ => True
  | cell spelling address => Address.Names (.ofList spelling) address
  | literal numeral => numeral.Regular
  | blank run => run ≠ [] ∧ ∀ c ∈ run, Text.isBlank c = true
  | stray _ => False

def Begins (cs : List Char) : Prop := ∃ piece rest, Fits piece ∧ piece.text ++ rest = cs

variable {piece : Piece} {cs rest : List Char} {c : Char}

theorem fits_of_scanRun? (found : scanRun? cs = some (piece, rest)) : piece.Fits := by
  simp only [scanRun?] at found
  split at found
  next scanned =>
    cases found
    exact Address.names_of_scan? scanned
  next =>
    split at found
    next scanned =>
      cases found
      exact Numeral.regular_of_scan? scanned
    next =>
      split at found
      next => cases found
      next filled =>
        cases found
        exact ⟨filled, fun _ => List.mem_takeWhile_imp⟩

theorem fits_of_scan? (found : scan? cs = some (piece, rest)) : piece.Fits := by
  unfold scan? at found
  split at found
  next => cases found
  next first after =>
    split at found
    next =>
      cases found
      trivial
    next =>
      split at found
      next =>
        cases found
        trivial
      next =>
        split at found
        next =>
          cases found
          trivial
        next => exact fits_of_scanRun? found

/-- Only a variable, a numeral or white space can begin with another character than a symbol. -/
theorem scan?_of_apart (apart : c ∉ ['(', ')', '+', '-', '*', '/']) (rest : List Char) :
    scan? (c :: rest) = scanRun? (c :: rest) := by
  simp only [List.mem_cons, List.not_mem_nil, or_false, not_or] at apart
  unfold scan?
  simp only [apart.1, apart.2.1, if_false]
  cases found : Operator.ofSymbol? c with
  | none => rfl
  | some op =>
    have symbol := Operator.symbol_of_ofSymbol? found
    cases op <;> simp [← symbol, Operator.symbol] at apart

theorem scan?_of_isAlphanum (word : c.isAlphanum = true) (rest : List Char) : scan? (c :: rest) = scanRun? (c :: rest) := by
  apply scan?_of_apart
  intro member
  have symbols : ∀ d ∈ ['(', ')', '+', '-', '*', '/'], d.isAlphanum = false := by simp
  rw [symbols c member] at word
  cases word

theorem scan?_of_address {spelling : List Char} {address : Address}
    (found : Address.scan? cs = some (spelling, address, rest)) : scan? cs = some (cell spelling address, rest) := by
  obtain ⟨column, row, spelled, _⟩ := Address.names_of_scan? found
  obtain ⟨first, more, head, letter⟩ := spelled.head
  have whole := (Address.spelling_of_scan? found).1
  rw [String.toList_ofList] at head
  rw [head, List.cons_append] at whole
  subst whole
  rw [scan?_of_isAlphanum (by simp [Char.isAlphanum, letter]), scanRun?, found]

theorem scan?_of_numeral {numeral : Numeral} (found : Numeral.scan? cs = some (numeral, rest)) :
    scan? cs = some (literal numeral, rest) := by
  obtain ⟨first, more, head, numeric⟩ := (Numeral.regular_of_scan? found).head
  have whole := Numeral.text_of_scan? found
  rw [head, List.cons_append] at whole
  subst whole
  have run : scan? (first :: (more ++ rest)) = scanRun? (first :: (more ++ rest)) ∧ first.isAlpha = false := by
    rcases numeric with digit | rfl
    · exact ⟨scan?_of_isAlphanum (by simp [Char.isAlphanum, digit]) _, Address.not_isAlpha_of_isDigit digit⟩
    · exact ⟨scan?_of_apart (by decide) _, by decide⟩
  rw [run.1, scanRun?, Address.scan?_of_not_isAlpha run.2, found]

theorem scan?_blank {run : List Char} (filled : run ≠ []) (all : ∀ c ∈ run, Text.isBlank c = true)
    (rest : List Char) :
    scan? (run ++ rest) = some (blank ((run ++ rest).takeWhile Text.isBlank), (run ++ rest).dropWhile Text.isBlank) := by
  obtain ⟨first, more, rfl⟩ := List.exists_cons_of_ne_nil filled
  have first_blank := all first List.mem_cons_self
  obtain ⟨letter, digit, symbol⟩ := Text.apart_of_isBlank first_blank
  have point : first ≠ '.' := by
    rintro rfl
    exact symbol (by decide)
  have numeral : Numeral.scan? (first :: (more ++ rest)) = none := by simp [Numeral.scan?, digit, point]
  rw [List.cons_append, scan?_of_apart fun member => symbol (List.mem_append_left ['.'] member), scanRun?,
    Address.scan?_of_not_isAlpha letter]
  simp [numeral, first_blank]

/-- What follows a match can only add to it: something is scanned that is at least as long, and if it has
the same text, it is the same piece. -/
theorem Fits.scan?_append (fits : piece.Fits) (rest : List Char) :
    ∃ longer after, scan? (piece.text ++ rest) = some (longer, after) ∧ piece.text.length ≤ longer.text.length ∧
      (piece.text = longer.text → piece = longer) := by
  cases piece with
  | opening => exact ⟨.opening, rest, rfl, Nat.le_refl _, fun _ => rfl⟩
  | closing => exact ⟨.closing, rest, rfl, Nat.le_refl _, fun _ => rfl⟩
  | operator op => exact ⟨.operator op, rest, by cases op <;> rfl, Nat.le_refl _, fun _ => rfl⟩
  | stray => exact fits.elim
  | cell spelling address =>
    obtain ⟨longer, found, after, scanned, long⟩ := Address.Names.scan?_append fits rest
    rw [String.toList_ofList] at scanned long
    refine ⟨_, _, scan?_of_address scanned, long, fun same => ?_⟩
    obtain rfl : spelling = longer := same
    exact congrArg _ (Address.Names.unique fits (Address.names_of_scan? scanned))
  | literal numeral =>
    obtain ⟨longer, after, scanned, long⟩ := Numeral.Regular.scan?_append fits rest
    refine ⟨_, _, scan?_of_numeral scanned, long, fun same => ?_⟩
    exact congrArg _ (Numeral.Regular.eq_of_text fits (Numeral.regular_of_scan? scanned) same)
  | blank run =>
    refine ⟨_, _, scan?_blank fits.1 fits.2 rest, ?_, fun same => congrArg blank same⟩
    rw [text, text, List.takeWhile_append_of_pos fits.2, List.length_append]
    exact Nat.le_add_right _ _

theorem scan?_eq_none_iff : scan? cs = none ↔ ¬ Begins cs := by
  constructor
  · rintro missing ⟨piece, rest, fits, rfl⟩
    obtain ⟨longer, after, scanned, _⟩ := fits.scan?_append rest
    rw [missing] at scanned
    cases scanned
  · intro unmatched
    cases found : scan? cs with
    | none => rfl
    | some pair => exact absurd ⟨_, _, fits_of_scan? found, (text_of_scan? found).1⟩ unmatched

theorem scan?_eq_some_iff : scan? cs = some (piece, rest) ↔ piece.Fits ∧ piece.text ++ rest = cs ∧
    ∀ other after, Fits other → other.text ++ after = cs → other.text.length ≤ piece.text.length := by
  constructor
  · intro found
    refine ⟨fits_of_scan? found, (text_of_scan? found).1, ?_⟩
    rintro other after fits rfl
    obtain ⟨longer, _, scanned, long, _⟩ := fits.scan?_append after
    rw [found] at scanned
    cases scanned
    exact long
  · rintro ⟨fits, rfl, longest⟩
    obtain ⟨longer, after, scanned, long, same⟩ := fits.scan?_append rest
    obtain ⟨whole, _⟩ := text_of_scan? scanned
    have short := longest longer after (fits_of_scan? scanned) whole
    obtain ⟨texts, rfl⟩ := List.append_inj whole (by omega)
    rw [scanned, same texts.symm]

theorem ofText_nil : ofText [] = [] := by
  rw [ofText]
  rfl

theorem ofText_of_scan? (found : scan? cs = some (piece, rest)) : ofText cs = piece :: ofText rest := by
  rw [ofText]
  split
  next same =>
    rw [found] at same
    cases same
    rfl
  next missing =>
    rw [found] at missing
    cases missing

theorem ofText_of_not_begins (unmatched : ¬ Begins (c :: rest)) : ofText (c :: rest) = glue c (ofText rest) := by
  have missing := scan?_eq_none_iff.mpr unmatched
  rw [ofText]
  split
  next found =>
    rw [missing] at found
    cases found
  next => rfl

/-- Pieces as they follow one another in the text that they spell. -/
inductive Cut : List Piece → Prop where
  | nil : Cut []
  | piece {first pieces} (fits : Fits first)
      (longest : ∀ other after, Fits other → other.text ++ after = first.text ++ pieces.flatMap text →
        other.text.length ≤ first.text.length)
      (cut : Cut pieces) : Cut (first :: pieces)
  | stray {run pieces} (filled : run ≠ [])
      (unmatched : ∀ front back, run = front ++ back → back ≠ [] → ¬ Begins (back ++ pieces.flatMap text))
      (apart : ∀ other, pieces.head? ≠ some (stray other)) (cut : Cut pieces) : Cut (stray run :: pieces)

theorem cut_glue {pieces : List Piece} (cut : Cut pieces) (unmatched : ¬ Begins (c :: pieces.flatMap text)) :
    Cut (glue c pieces) := by
  have alone (apart : ∀ other, pieces.head? ≠ some (stray other)) : Cut (.stray [c] :: pieces) := by
    refine .stray (List.cons_ne_nil _ _) ?_ apart cut
    intro front back same proper
    obtain ⟨rfl, rfl⟩ | ⟨rfl, rfl⟩ := List.singleton_eq_append_iff.mp same
    · exact unmatched
    · exact absurd rfl proper
  cases cut with
  | nil => exact alone nofun
  | @stray run rest filled inner apart cut =>
    refine .stray (List.cons_ne_nil _ _) ?_ apart cut
    intro front back same proper
    cases front with
    | nil =>
      obtain rfl : c :: run = back := same
      simpa [text] using unmatched
    | cons _ front =>
      obtain ⟨rfl, rest⟩ := List.cons.inj same
      exact inner front back rest proper
  | @piece first rest fits =>
    cases first with
    | stray => exact fits.elim
    | opening | closing | operator | cell | literal | blank => exact alone (by simp)

theorem cut_ofText (cs : List Char) : Cut (ofText cs) := by
  fun_induction ofText cs with
  | case1 cs piece rest found ih =>
    obtain ⟨fits, rfl, longest⟩ := scan?_eq_some_iff.mp found
    refine .piece fits ?_ ih
    rwa [flatMap_text_ofText]
  | case2 => exact .nil
  | case3 c rest missing ih =>
    apply cut_glue ih
    rw [flatMap_text_ofText]
    exact scan?_eq_none_iff.mp missing

private theorem ofText_stray {run : List Char} {pieces : List Piece} (filled : run ≠ [])
    (unmatched : ∀ front back, run = front ++ back → back ≠ [] → ¬ Begins (back ++ pieces.flatMap text))
    (apart : ∀ other, pieces.head? ≠ some (stray other)) (known : ofText (pieces.flatMap text) = pieces) :
    ofText (run ++ pieces.flatMap text) = stray run :: pieces := by
  induction run with
  | nil => exact absurd rfl filled
  | cons c run ih =>
    rw [List.cons_append, ofText_of_not_begins (by simpa using unmatched [] (c :: run) rfl filled)]
    cases run with
    | nil =>
      rw [List.nil_append, known]
      unfold glue
      split
      next other rest => exact absurd rfl (apart other)
      next => rfl
    | cons d run =>
      rw [ih (List.cons_ne_nil _ _) fun front back same proper => unmatched (c :: front) back (congrArg _ same) proper]
      rfl

theorem Cut.ofText {pieces : List Piece} (cut : Cut pieces) : ofText (pieces.flatMap text) = pieces := by
  induction cut with
  | nil => exact ofText_nil
  | piece fits longest _ ih =>
    rw [List.flatMap_cons, ofText_of_scan? (scan?_eq_some_iff.mpr ⟨fits, rfl, longest⟩), ih]
  | stray filled unmatched apart _ ih => exact ofText_stray filled unmatched apart ih

theorem Cut.suffix {before pieces : List Piece} (cut : Cut (before ++ pieces)) : Cut pieces := by
  induction before with
  | nil => exact cut
  | cons first before ih =>
    cases cut with
    | piece _ _ cut | stray _ _ _ cut => exact ih cut

theorem Cut.fits {pieces : List Piece} (cut : Cut pieces) :
    ∀ piece ∈ pieces, piece.Fits ∨ ∃ run, piece = .stray run := by
  induction cut with
  | nil => nofun
  | piece fits _ _ ih => exact List.forall_mem_cons.mpr ⟨Or.inl fits, ih⟩
  | stray _ _ _ _ ih => exact List.forall_mem_cons.mpr ⟨Or.inr ⟨_, rfl⟩, ih⟩

/-- Each character belongs to few kinds of pieces. -/
theorem Fits.mem_text (fits : piece.Fits) (member : c ∈ piece.text) :
    piece = opening ∧ c = '(' ∨ piece = closing ∧ c = ')' ∨ (∃ run, piece = blank run) ∧ Text.isBlank c = true ∨
      c.isAlphanum = true ∨ c ∈ ['+', '-', '*', '/', '.'] := by
  cases piece with
  | opening => exact Or.inl ⟨rfl, List.mem_singleton.mp member⟩
  | closing => exact Or.inr (Or.inl ⟨rfl, List.mem_singleton.mp member⟩)
  | operator op =>
    rw [List.mem_singleton.mp member]
    cases op <;> simp [Operator.symbol]
  | cell spelling address =>
    obtain ⟨column, row, spelled, _⟩ : Address.Names (.ofList spelling) address := fits
    have whole : spelling = column ++ row := by simpa using spelled.whole
    rw [text, whole] at member
    rcases List.mem_append.mp member with member | member
    · simp [Char.isAlphanum, spelled.letters c member]
    · simp [Char.isAlphanum, spelled.digits c member]
  | literal numeral =>
    rcases Numeral.Regular.mem_text fits member with word | symbol
    · exact Or.inr (Or.inr (Or.inr (Or.inl word)))
    · have symbols : ∀ d ∈ ['+', '-', '.'], d ∈ ['+', '-', '*', '/', '.'] := by simp
      exact Or.inr (Or.inr (Or.inr (Or.inr (symbols c symbol))))
  | blank run => exact Or.inr (Or.inr (Or.inl ⟨⟨run, rfl⟩, fits.2 c member⟩))
  | stray => exact fits.elim

theorem Fits.of_mem_blank (fits : piece.Fits) (member : c ∈ piece.text) (white : Text.isBlank c = true) :
    ∃ run, piece = blank run := by
  obtain ⟨letter, digit, symbol⟩ := Text.apart_of_isBlank white
  rcases fits.mem_text member with ⟨_, rfl⟩ | ⟨_, rfl⟩ | ⟨run, _⟩ | word | other
  · cases white
  · cases white
  · exact run
  · simp [Char.isAlphanum, letter, digit] at word
  · exact absurd (List.mem_cons_of_mem _ (List.mem_cons_of_mem _ other)) symbol

theorem Fits.of_mem_bracket (fits : piece.Fits) (member : c ∈ piece.text) (bracket : c = '(' ∨ c = ')') :
    piece = opening ∧ c = '(' ∨ piece = closing ∧ c = ')' := by
  rcases fits.mem_text member with opened | closed | ⟨_, white⟩ | word | other
  · exact Or.inl opened
  · exact Or.inr closed
  · rcases bracket with rfl | rfl <;> cases white
  · rcases bracket with rfl | rfl <;> cases word
  · rcases bracket with rfl | rfl <;> simp at other

end Piece

theorem Numeral.Regular.not_isBlank {n : Numeral} (regular : n.Regular) : ∀ c ∈ n.text, Text.isBlank c = false := by
  intro c member
  apply Bool.of_not_eq_true
  intro white
  have fits : (Piece.literal n).Fits := regular
  obtain ⟨_, other⟩ := fits.of_mem_blank member white
  cases other

end Worksheet
