import Mathlib.Data.List.DropRight
import Worksheet.Formula.Basic
import Worksheet.Proofs.JoinedTexts

/-! White space separates and otherwise means nothing. Wherever it stands it is a piece of its own, and no
piece beside it is cut differently for it. So the tokens of two texts with white space between them are
those of the first and then those of the second, and a formula is not changed by more or less of it. -/

namespace Worksheet

namespace Piece

variable {front back run cs : List Char}

/-- The pieces that are left when white space is passed over. -/
def dense (pieces : List Piece) : List Piece := pieces.filter fun piece => !piece.isBlank

theorem dense_append (before after : List Piece) : dense (before ++ after) = dense before ++ dense after :=
  List.filter_append ..

/-! White space at the front -/

theorem dense_ofText_dropWhile (cs : List Char) : dense (ofText (cs.dropWhile Text.isBlank)) = dense (ofText cs) := by
  have parts := List.takeWhile_append_dropWhile (p := Text.isBlank) (l := cs)
  by_cases bare : cs.takeWhile Text.isBlank = []
  · rw [bare, List.nil_append] at parts
    rw [parts]
  · have scanned := scan?_blank bare (fun _ => List.mem_takeWhile_imp) (cs.dropWhile Text.isBlank)
    rw [parts] at scanned
    rw [ofText_of_scan? scanned]
    rfl

theorem dense_ofText_blank_append (white : ∀ c ∈ run, Text.isBlank c = true) (cs : List Char) :
    dense (ofText (run ++ cs)) = dense (ofText cs) := by
  rw [← dense_ofText_dropWhile, List.dropWhile_append_of_pos white, dense_ofText_dropWhile]

theorem dense_ofText_blank (white : ∀ c ∈ run, Text.isBlank c = true) : dense (ofText run) = [] := by
  have same := dense_ofText_blank_append white []
  rwa [List.append_nil, ofText_nil] at same

/-! White space behind a text -/

/-- Only white space matches white space, so a match that begins with something else ends before it. -/
theorem parted_of_blank (solid : ∀ c ∈ front.getLast?, Text.isBlank c = false)
    (white : ∀ c ∈ back.head?, Text.isBlank c = true) : Parted front back := by
  intro piece ending fits filled inside reaches
  rcases List.prefix_or_prefix_of_prefix reaches (List.prefix_append ending back) with within | ⟨taken, whole⟩
  · exact within
  cases taken with
  | nil =>
    rw [List.append_nil] at whole
    exact whole ▸ List.prefix_rfl
  | cons c taken =>
    rw [← whole, List.prefix_append_right_inj] at reaches
    obtain ⟨rest, same⟩ := reaches
    have first : Text.isBlank c = true := by
      apply white
      rw [← same]
      rfl
    obtain ⟨run, rfl⟩ := fits.of_mem_blank (c := c) (by simp [← whole]) first
    obtain ⟨beginning, last, rfl⟩ := (List.eq_nil_or_concat ending).resolve_left filled
    obtain ⟨start, rfl⟩ := inside
    have blank : Text.isBlank last = true := by
      apply fits.2
      change last ∈ (Piece.blank run).text
      simp [← whole]
    rw [solid last (by simp)] at blank
    cases blank

theorem clear_of_blank (white : ∀ c ∈ back.head?, Text.isBlank c = true) (run : List Char) :
    (ofText back).head? ≠ some (.stray run) := by
  intro first
  obtain ⟨pieces, same⟩ := List.head?_eq_some_iff.mp first
  have cut := cut_ofText back
  have whole := flatMap_text_ofText back
  rw [same] at cut whole
  cases cut with
  | piece fits => exact fits
  | stray filled unmatched =>
    obtain ⟨c, rest, rfl⟩ := List.exists_cons_of_ne_nil filled
    apply unmatched [] (c :: rest) rfl filled
    apply begins_of_isBlank
    apply white
    rw [← whole]
    rfl

/-- White space at the end of the first text belongs with that at the front of the second. -/
theorem dense_ofText_append (white : ∀ c ∈ back.head?, Text.isBlank c = true) :
    dense (ofText (front ++ back)) = dense (ofText front) ++ dense (ofText back) := by
  obtain ⟨core, run, rfl, solid, blank⟩ : ∃ core run, front = core ++ run ∧
      (∀ c ∈ core.getLast?, Text.isBlank c = false) ∧ ∀ c ∈ run, Text.isBlank c = true := by
    refine ⟨front.rdropWhile Text.isBlank, front.rtakeWhile Text.isBlank, List.rdropWhile_append_rtakeWhile.symm, ?_,
      fun _ => List.mem_rtakeWhile_imp⟩
    intro c last
    obtain ⟨filled, rfl⟩ := List.mem_getLast?_eq_getLast last
    simpa using List.rdropWhile_last_not Text.isBlank front filled
  have joined (cs : List Char) (white : ∀ c ∈ cs.head?, Text.isBlank c = true) :
      dense (ofText (core ++ cs)) = dense (ofText core) ++ dense (ofText cs) := by
    rw [ofText_append (parted_of_blank solid white) (clear_of_blank white), dense_append]
  have between : ∀ c ∈ (run ++ back).head?, Text.isBlank c = true := by
    cases run with
    | nil => exact white
    | cons c run =>
      intro first same
      cases same
      exact blank c List.mem_cons_self
  have ending : ∀ c ∈ run.head?, Text.isBlank c = true := fun c first => blank c (List.mem_of_mem_head? first)
  calc
    dense (ofText ((core ++ run) ++ back)) = dense (ofText core) ++ dense (ofText (run ++ back)) := by
      rw [List.append_assoc, joined _ between]
    _ = dense (ofText core) ++ dense (ofText back) := by rw [dense_ofText_blank_append blank]
    _ = dense (ofText (core ++ run)) ++ dense (ofText back) := by
      rw [joined run ending, dense_ofText_blank blank, List.append_nil]

end Piece

namespace Token

variable {front back run : List Char}

theorem ofPieces_dense (pieces : List Piece) : ofPieces (Piece.dense pieces) = ofPieces pieces := by
  induction pieces with
  | nil => rfl
  | cons piece pieces ih =>
    cases piece with
    | blank run =>
      have passed : ofPieces (.blank run :: pieces) = ofPieces pieces := by
        rw [ofPieces]
        cases ofPieces pieces with
        | error e => rfl
        | ok tokens => rfl
      rw [passed]
      exact ih
    | opening | closing | operator | cell | literal | stray =>
      change ofPieces (_ :: Piece.dense pieces) = _
      rw [ofPieces, ofPieces, ih]

theorem scan_blank_append (white : ∀ c ∈ run, Text.isBlank c = true) (cs : List Char) : scan (run ++ cs) = scan cs := by
  rw [scan, scan, ← ofPieces_dense, Piece.dense_ofText_blank_append white, ofPieces_dense]

theorem scan_append_of_blank (white : ∀ c ∈ back.head?, Text.isBlank c = true) :
    scan (front ++ back) = do return (← scan front) ++ (← scan back) := by
  rw [scan, ← ofPieces_dense, Piece.dense_ofText_append white, ofPieces_append, ofPieces_dense, ofPieces_dense]
  rfl

theorem scan_append_blank (white : ∀ c ∈ run, Text.isBlank c = true) (cs : List Char) : scan (cs ++ run) = scan cs := by
  have nothing : scan run = .ok [] := by
    rw [scan, ← ofPieces_dense, Piece.dense_ofText_blank white]
    rfl
  rw [scan_append_of_blank fun c first => white c (List.mem_of_mem_head? first), nothing]
  cases scan cs with
  | error e => rfl
  | ok tokens => exact congrArg Except.ok (List.append_nil tokens)

private theorem head_blank (filled : run ≠ []) (white : ∀ c ∈ run, Text.isBlank c = true) (cs : List Char) :
    ∀ c ∈ (run ++ cs).head?, Text.isBlank c = true := by
  intro c first
  rw [List.head?_append_of_ne_nil _ filled] at first
  exact white c (List.mem_of_mem_head? first)

theorem scan_spaced (filled : run ≠ []) (white : ∀ c ∈ run, Text.isBlank c = true) (front back : List Char) :
    scan (front ++ (run ++ back)) = do return (← scan front) ++ (← scan back) := by
  rw [scan_append_of_blank (head_blank filled white back), scan_blank_append white]

theorem scan_spaced_pieces (filled : run ≠ []) (white : ∀ c ∈ run, Text.isBlank c = true) {text : List Char}
    {before after : List Piece} (pieces : Piece.ofText text = before ++ after) :
    scan (before.flatMap Piece.text ++ (run ++ after.flatMap Piece.text)) = scan text := by
  obtain ⟨first, second⟩ := Piece.ofText_parts pieces
  rw [scan_spaced filled white]
  simp only [scan, first, second, pieces, ofPieces_append]

/-- Two texts with white space between them fall into the pieces of the one and those of the other, and
they have the tokens of both, or the error of the first that has one. White space may be put in
between any two pieces, and there may be more or less of it, without a change of the formula. -/
theorem white_space_separates (filled : run ≠ []) (white : ∀ c ∈ run, Text.isBlank c = true) :
    (∀ front back,
      Piece.dense (Piece.ofText (front ++ (run ++ back))) =
        Piece.dense (Piece.ofText front) ++ Piece.dense (Piece.ofText back) ∧
      (∀ e, scan front = .error e → scan (front ++ (run ++ back)) = .error e) ∧
      (∀ tokens e, scan front = .ok tokens → scan back = .error e → scan (front ++ (run ++ back)) = .error e) ∧
      ∀ tokens later, scan front = .ok tokens → scan back = .ok later →
        scan (front ++ (run ++ back)) = .ok (tokens ++ later)) ∧
    (∀ front back wider, wider ≠ [] → (∀ c ∈ wider, Text.isBlank c = true) →
      scan (front ++ (wider ++ back)) = scan (front ++ (run ++ back)) ∧
        Formula.parse (front ++ (wider ++ back)) = Formula.parse (front ++ (run ++ back))) ∧
    ∀ text before after, Piece.ofText text = before ++ after →
      scan (before.flatMap Piece.text ++ (run ++ after.flatMap Piece.text)) = scan text ∧
        Formula.parse (before.flatMap Piece.text ++ (run ++ after.flatMap Piece.text)) = Formula.parse text := by
  refine ⟨?_, ?_, ?_⟩
  · intro front back
    have law := scan_spaced filled white front back
    refine ⟨?_, ?_, ?_, ?_⟩
    · rw [Piece.dense_ofText_append (head_blank filled white back), Piece.dense_ofText_blank_append white]
    · intro e failed
      rw [law, failed]
      rfl
    · intro tokens e taken failed
      rw [law, taken, failed]
      rfl
    · intro tokens later taken others
      rw [law, taken, others]
      rfl
  · intro front back wider filled' white'
    have same : scan (front ++ (wider ++ back)) = scan (front ++ (run ++ back)) := by
      rw [scan_spaced filled' white', scan_spaced filled white]
    exact ⟨same, Formula.parse_congr same⟩
  · intro text before after pieces
    have same := scan_spaced_pieces filled white pieces
    exact ⟨same, Formula.parse_congr same⟩

/-- The mark of a power and its digits stay apart, whatever the space between them is made of. -/
theorem white_space_separates_power : scan "1e".toList = .ok [.number 1, .stray ['e']] ∧
    scan "\u00a02".toList = .ok [.number 2] ∧
    scan ("1e".toList ++ (['\t', '\u2003'] ++ "\u00a02".toList)) = .ok [.number 1, .stray ['e'], .number 2] ∧
    scan "1e2".toList = .ok [.number 100] := by
  have first : scan "1e".toList = .ok [.number 1, .stray ['e']] := by decide +kernel
  have second : scan "\u00a02".toList = .ok [.number 2] := by decide +kernel
  have filled : ['\t', '\u2003'] ≠ [] := List.cons_ne_nil _ _
  have white : ∀ c ∈ ['\t', '\u2003'], Text.isBlank c = true := List.all_eq_true.mp rfl
  have apart := (white_space_separates filled white).1 "1e".toList "\u00a02".toList
  exact ⟨first, second, apart.2.2.2 _ _ first second, by decide +kernel⟩

end Token
end Worksheet
