import Worksheet.Proofs.TokenPieces

/-! Texts that are taken apart or put together between two pieces. Either part of a cut text is cut as it
was in the whole, and a joint changes nothing if no match reaches over it. -/

namespace Worksheet

namespace Piece

variable {cs : List Char}

theorem Begins.append (begins : Begins cs) (rest : List Char) : Begins (cs ++ rest) := by
  obtain ⟨piece, after, fits, rfl⟩ := begins
  exact ⟨piece, after ++ rest, fits, (List.append_assoc ..).symm⟩

/-- What follows a piece has no part in how the pieces before it are cut: without it there are only fewer
matches to be compared with. -/
theorem Cut.front {pieces after : List Piece} (cut : Cut (pieces ++ after)) : Cut pieces := by
  induction pieces with
  | nil => exact .nil
  | cons first pieces ih =>
    cases cut with
    | piece fits longest cut =>
      apply Cut.piece fits _ (ih cut)
      intro other rest fits' same
      apply longest other (rest ++ after.flatMap text) fits'
      rw [← List.append_assoc, same, List.append_eq, List.flatMap_append, List.append_assoc]
    | stray filled unmatched apart cut =>
      apply Cut.stray filled _ _ (ih cut)
      · intro beginning ending same proper begins
        apply unmatched beginning ending same proper
        have longer := begins.append (after.flatMap text)
        rwa [List.append_assoc, ← List.flatMap_append] at longer
      · intro other first
        apply apart other
        rw [List.append_eq, List.head?_append, first]
        rfl

/-- No match that begins in the first text reaches into the second. -/
def Parted (front back : List Char) : Prop :=
  ∀ (piece : Piece) ending, piece.Fits → ending ≠ [] → ending <:+ front → piece.text <+: ending ++ back → piece.text <+: ending

theorem Parted.mono {beginning front back : List Char} (parted : Parted (beginning ++ front) back) : Parted front back :=
  fun piece ending fits filled inside => parted piece ending fits filled (inside.trans (List.suffix_append _ _))

theorem Cut.append {front back : List Piece} (cut : Cut front) (later : Cut back)
    (parted : Parted (front.flatMap text) (back.flatMap text)) (clear : ∀ run, back.head? ≠ some (.stray run)) :
    Cut (front ++ back) := by
  induction cut with
  | nil => exact later
  | @piece first pieces fits longest cut ih =>
    apply Cut.piece fits _ (ih parted.mono)
    intro other after fits' same
    rw [List.flatMap_append, ← List.append_assoc] at same
    have filled : first.text ++ pieces.flatMap text ≠ [] :=
      List.append_ne_nil_of_left_ne_nil (Cut.text_ne_nil (.piece fits longest cut)) _
    obtain ⟨rest, inside⟩ := parted other _ fits' filled List.suffix_rfl ⟨after, same⟩
    exact longest other rest fits' inside
  | @stray run pieces filled unmatched apart _ ih =>
    apply Cut.stray filled _ _ (ih parted.mono)
    · intro beginning ending same proper begins
      obtain ⟨other, after, fits, reaches⟩ := begins
      rw [List.flatMap_append, ← List.append_assoc] at reaches
      have inside : ending ++ pieces.flatMap text <:+ (Piece.stray run :: pieces).flatMap text :=
        ⟨beginning, by rw [List.flatMap_cons, text, same, List.append_assoc]⟩
      obtain ⟨rest, within⟩ :=
        parted other _ fits (List.append_ne_nil_of_left_ne_nil proper _) inside ⟨after, reaches⟩
      exact unmatched beginning ending same proper ⟨other, rest, fits, within⟩
    · intro other first
      rw [List.head?_append, Option.or_eq_some_iff] at first
      rcases first with first | ⟨_, first⟩
      · exact apart other first
      · exact clear other first

theorem ofText_append {front back : List Char} (parted : Parted front back)
    (clear : ∀ run, (ofText back).head? ≠ some (.stray run)) : ofText (front ++ back) = ofText front ++ ofText back := by
  have parted : Parted ((ofText front).flatMap text) ((ofText back).flatMap text) := by
    rwa [flatMap_text_ofText, flatMap_text_ofText]
  have whole := ((cut_ofText front).append (cut_ofText back) parted clear).ofText
  rwa [List.flatMap_append, flatMap_text_ofText, flatMap_text_ofText] at whole

theorem ofText_parts {before after : List Piece} (pieces : ofText cs = before ++ after) :
    ofText (before.flatMap text) = before ∧ ofText (after.flatMap text) = after := by
  have cut := pieces ▸ cut_ofText cs
  exact ⟨cut.front.ofText, cut.suffix.ofText⟩

end Piece

theorem Token.ofPieces_append (front back : List Piece) :
    ofPieces (front ++ back) = do return (← ofPieces front) ++ (← ofPieces back) := by
  induction front with
  | nil =>
    rw [List.nil_append]
    cases ofPieces back with
    | error e => rfl
    | ok tokens => rfl
  | cons piece front ih =>
    rw [List.cons_append, ofPieces, ofPieces, ih]
    cases piece.token with
    | error e => rfl
    | ok token? =>
      cases ofPieces front with
      | error e => rfl
      | ok tokens =>
        cases ofPieces back with
        | error e => rfl
        | ok later => exact congrArg Except.ok (List.append_assoc ..).symm

end Worksheet
