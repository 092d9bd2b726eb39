import Mathlib.Data.List.Forall2
import Worksheet.Proofs.TextPieces

/-! The tokens of a text by its pieces. Every character is in one piece, a piece is what the patterns make
of its place, and a token stands for each piece but white space. -/

namespace Worksheet

namespace Piece

variable {piece : Piece} {c : Char}

/-- What a piece is by its place between those before and after it. -/
def Stands (before after : List Piece) : Piece → Prop
  | opening | closing | operator _ => True
  | cell spelling address =>
    Address.Names (.ofList spelling) address ∧
      ∀ longer other rest, Address.Names (.ofList longer) other → longer ++ rest = spelling ++ after.flatMap text →
        longer.length ≤ spelling.length
  | literal numeral =>
    numeral.Regular ∧
      ∀ (longer : Numeral) rest, longer.Regular → longer.text ++ rest = numeral.text ++ after.flatMap text →
        longer.text.length ≤ numeral.text.length
  | blank run =>
    (∀ c ∈ run, Text.isBlank c = true) ∧ (∀ c ∈ (before.flatMap text).getLast?, Text.isBlank c = false) ∧
      ∀ c ∈ (after.flatMap text).head?, Text.isBlank c = false
  | stray run =>
    (∀ front back, run = front ++ back → back ≠ [] → ¬ Begins (back ++ after.flatMap text)) ∧
      (∀ other, before.getLast? ≠ some (stray other)) ∧ ∀ other, after.head? ≠ some (stray other)

theorem begins_of_isBlank (white : Text.isBlank c = true) (rest : List Char) : Begins (c :: rest) :=
  ⟨blank [c], rest, ⟨List.cons_ne_nil _ _, by simpa using white⟩, rfl⟩

theorem Cut.text_ne_nil {pieces : List Piece} (cut : Cut (piece :: pieces)) : piece.text ≠ [] := by
  cases cut with
  | stray filled => exact filled
  | piece fits =>
    obtain ⟨longer, after, scanned, long, same⟩ := fits.scan?_append []
    intro empty
    rw [empty] at scanned
    cases scanned

/-- White space before white space would have been one piece with it. -/
private theorem blank_before {before after : List Piece} {run : List Char} (cut : Cut (before ++ blank run :: after)) :
    ∀ c ∈ (before.flatMap text).getLast?, Text.isBlank c = false := by
  intro c last
  rcases List.eq_nil_or_concat before with rfl | ⟨front, piece, rfl⟩
  · cases last
  · rw [List.concat_eq_append, List.append_assoc] at cut
    have pair := cut.suffix
    obtain ⟨beginning, d, whole⟩ := (List.eq_nil_or_concat piece.text).resolve_left pair.text_ne_nil
    rw [List.concat_eq_append] at whole
    obtain rfl : d = c := by simpa [whole] using last
    apply Bool.of_not_eq_true
    intro white
    cases pair with
    | stray _ unmatched => exact unmatched beginning [d] whole (List.cons_ne_nil _ _) (begins_of_isBlank white _)
    | piece fits longest later =>
      obtain ⟨earlier, rfl⟩ := fits.of_mem_blank (by simp [whole]) white
      cases later with
      | piece white_run =>
        have joined : Fits (blank (earlier ++ run)) :=
          ⟨List.append_ne_nil_of_left_ne_nil fits.1 _, List.forall_mem_append.mpr ⟨fits.2, white_run.2⟩⟩
        have bound := longest _ (after.flatMap text) joined (by simp [text])
        have positive := List.length_pos_iff.mpr white_run.1
        simp only [text, List.length_append] at bound
        omega

theorem Cut.stands {before after : List Piece} (cut : Cut (before ++ piece :: after)) : piece.Stands before after := by
  cases here : cut.suffix with
  | stray filled unmatched apart =>
    refine ⟨unmatched, ?_, apart⟩
    intro other last
    obtain ⟨front, rfl⟩ := List.getLast?_eq_some_iff.mp last
    rw [List.append_assoc] at cut
    cases cut.suffix with
    | piece fits => exact fits
    | stray _ _ apart => exact apart _ rfl
  | piece fits longest =>
    cases piece with
    | opening | closing | operator => trivial
    | stray => exact fits.elim
    | cell spelling address => exact ⟨fits, fun longer other rest named => longest (.cell longer other) rest named⟩
    | literal numeral => exact ⟨fits, fun longer rest regular => longest (.literal longer) rest regular⟩
    | blank run =>
      refine ⟨fits.2, blank_before cut, ?_⟩
      intro c first
      obtain ⟨rest, whole⟩ := List.head?_eq_some_iff.mp first
      apply Bool.of_not_eq_true
      intro white
      have joined : Fits (blank (run ++ [c])) :=
        ⟨List.append_ne_nil_of_left_ne_nil fits.1 _, List.forall_mem_append.mpr ⟨fits.2, by simpa using white⟩⟩
      have bound := longest _ rest joined (by simp [text, whole])
      simp only [text, List.length_append, List.length_singleton] at bound
      omega

def Overflows : Piece → Prop
  | literal numeral => ∃ value, Number.read? numeral.text = some value ∧ Number.isFinite value = false
  | _ => False

def isBlank : Piece → Bool
  | blank _ => true
  | _ => false

inductive Spells : Piece → Token → Prop where
  | opening : Spells .opening .opening
  | closing : Spells .closing .closing
  | operator (op : Operator) : Spells (.operator op) (.operator op)
  | cell {spelling address} (upper : address.text.toList = spelling.map Char.toUpper) :
      Spells (.cell spelling address) (.cell address)
  | literal {numeral value} (read : Number.read? numeral.text = some value) : Spells (.literal numeral) (.number value)
  | stray (run : List Char) : Spells (.stray run) (.stray run)

private theorem token_cases (spelled : piece.Fits ∨ ∃ run, piece = .stray run) :
    piece.Overflows ∧ piece.token = .error (.tooLarge piece.text) ∨
      ¬ piece.Overflows ∧ ∃ token?, piece.token = .ok token? ∧
        List.Forall₂ Spells ([piece].filter fun piece => !piece.isBlank) token?.toList := by
  cases piece with
  | opening => exact Or.inr ⟨id, _, rfl, .cons .opening .nil⟩
  | closing => exact Or.inr ⟨id, _, rfl, .cons .closing .nil⟩
  | operator op => exact Or.inr ⟨id, _, rfl, .cons (.operator op) .nil⟩
  | blank run => exact Or.inr ⟨id, _, rfl, .nil⟩
  | stray run => exact Or.inr ⟨id, _, rfl, .cons (.stray run) .nil⟩
  | cell spelling address =>
    obtain fits | ⟨run, impossible⟩ := spelled
    · refine Or.inr ⟨id, _, rfl, .cons (.cell ?_) .nil⟩
      simpa using Address.toList_text_of_names fits
    · cases impossible
  | literal numeral =>
    obtain fits | ⟨run, impossible⟩ := spelled
    · have read := Number.read?_text fits
      by_cases finite : Number.isFinite (Number.ofDecimal false numeral.decimal) = true
      · refine Or.inr ⟨?_, some (.number _), ?_, .cons (.literal read) .nil⟩
        · rintro ⟨value, same, infinite⟩
          rw [read] at same
          rw [← Option.some.inj same, finite] at infinite
          cases infinite
        · rw [token, if_pos finite]
      · refine Or.inl ⟨⟨_, read, Bool.of_not_eq_true finite⟩, ?_⟩
        rw [token, if_neg finite, text]
    · cases impossible

end Piece

theorem Token.ofPieces_cases {pieces : List Piece} (spelled : ∀ piece ∈ pieces, piece.Fits ∨ ∃ run, piece = .stray run) :
    (∃ before piece after, pieces = before ++ piece :: after ∧ piece.Overflows ∧
      (∀ earlier ∈ before, ¬ earlier.Overflows) ∧ ofPieces pieces = .error (.tooLarge piece.text)) ∨
    (∀ piece ∈ pieces, ¬ piece.Overflows) ∧ ∃ tokens, ofPieces pieces = .ok tokens ∧
      List.Forall₂ Piece.Spells (pieces.filter fun piece => !piece.isBlank) tokens := by
  induction pieces with
  | nil => exact Or.inr ⟨nofun, [], rfl, .nil⟩
  | cons piece pieces ih =>
    rw [List.forall_mem_cons] at spelled
    rcases Piece.token_cases spelled.1 with ⟨overflows, failed⟩ | ⟨within, token?, read, spells⟩
    · refine Or.inl ⟨[], piece, pieces, rfl, overflows, nofun, ?_⟩
      rw [ofPieces, failed]
      rfl
    · rcases ih spelled.2 with ⟨before, first, after, rfl, overflows, earlier, failed⟩ | ⟨rest, tokens, taken, others⟩
      · refine Or.inl ⟨piece :: before, first, after, rfl, overflows, List.forall_mem_cons.mpr ⟨within, earlier⟩, ?_⟩
        rw [ofPieces, read, failed]
        rfl
      · refine Or.inr ⟨List.forall_mem_cons.mpr ⟨within, rest⟩, token?.toList ++ tokens, ?_, ?_⟩
        · rw [ofPieces, read, taken]
          rfl
        · rw [← List.singleton_append, List.filter_append]
          exact List.rel_append spells others

/-- Every text falls into pieces that stand where they are the longest match, or where there is none, and
its tokens are read off them. -/
theorem Token.scan_pieces (cs : List Char) :
    ∃ pieces : List Piece, pieces.flatMap Piece.text = cs ∧
      (∀ before piece after, pieces = before ++ piece :: after → piece.text ≠ [] ∧ piece.Stands before after) ∧
      ((∃ e, scan cs = .error e) ↔ ∃ piece ∈ pieces, piece.Overflows) ∧
      (∀ e, scan cs = .error e → ∃ before piece after, pieces = before ++ piece :: after ∧ piece.Overflows ∧
        (∀ earlier ∈ before, ¬ earlier.Overflows) ∧ e = .tooLarge piece.text) ∧
      ∀ tokens, scan cs = .ok tokens → List.Forall₂ Piece.Spells (pieces.filter fun piece => !piece.isBlank) tokens := by
  have cut := Piece.cut_ofText cs
  refine ⟨Piece.ofText cs, Piece.flatMap_text_ofText cs, ?_, ?_⟩
  · intro before piece after same
    rw [same] at cut
    exact ⟨cut.suffix.text_ne_nil, cut.stands⟩
  · unfold scan
    rcases ofPieces_cases cut.fits with ⟨before, piece, after, same, overflows, earlier, failed⟩ |
      ⟨within, tokens, taken, spells⟩
    · rw [failed]
      refine ⟨⟨fun _ => ⟨piece, by simp [same], overflows⟩, fun _ => ⟨_, rfl⟩⟩, ?_, nofun⟩
      rintro _ ⟨⟩
      exact ⟨before, piece, after, same, overflows, earlier, rfl⟩
    · rw [taken]
      refine ⟨⟨nofun, ?_⟩, nofun, ?_⟩
      · rintro ⟨piece, member, overflows⟩
        exact absurd overflows (within piece member)
      · rintro _ ⟨⟩
        exact spells

/-- A mark without digits is no power, and neither it nor the currency sign joins a piece beside it. -/
example : (Piece.ofText "1e+ ab1c$ $2.".toList).map (String.ofList ·.text) =
    ["1", "e", "+", " ", "ab1", "c$", " ", "$", "2."] := by
  decide +kernel

end Worksheet
