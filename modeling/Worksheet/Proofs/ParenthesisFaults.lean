import Worksheet.Proofs.FormulaText
import Worksheet.Proofs.JoinedTexts
import Worksheet.Proofs.SyntaxTree

/-! Parentheses are counted last, so a text that fails there is in order up to the fault. The tokens before
a closing parenthesis that is one too many are a formula, and parentheses left open need only be closed. -/

namespace Worksheet

namespace Formula

variable {tokens : List Token} {position openings closings : Nat}

/-! Counting parentheses -/

theorem parenthesesFault?_cons (position openings closings : Nat) (token : Token) (tokens : List Token) :
    parenthesesFault? position openings closings (token :: tokens) =
      if token = .closing ∧ openings ≤ closings then some (.unopened position)
      else parenthesesFault? (position + 1) (openings + [token].count .opening) (closings + [token].count .closing)
        tokens := by
  cases token with
  | closing => simp [parenthesesFault?]
  | opening | operator | number | cell | stray => simp [parenthesesFault?]

private theorem count_first (bracket token : Token) (tokens : List Token) :
    (token :: tokens).count bracket = [token].count bracket + tokens.count bracket := by
  rw [← List.singleton_append, List.count_append]

/-- A closing parenthesis that is not refused leaves no more of them than there are opening ones. -/
private theorem few_next {token : Token} (few : closings ≤ openings)
    (fine : ¬ (token = .closing ∧ openings ≤ closings)) :
    closings + [token].count .closing ≤ openings + [token].count .opening := by
  by_cases closing : token = .closing
  · subst closing
    simpa using fine
  · rw [List.count_singleton, if_neg (by simpa using closing)]
    omega

theorem counts_of_matched (matched : parenthesesFault? position openings closings tokens = none) :
    openings + tokens.count .opening = closings + tokens.count .closing ∧
      ∀ before after, tokens = before ++ .closing :: after →
        closings + before.count .closing < openings + before.count .opening := by
  induction tokens generalizing position openings closings with
  | nil =>
    simp only [parenthesesFault?, ite_eq_left_iff] at matched
    exact ⟨by simpa using matched, by simp⟩
  | cons token tokens ih =>
    rw [parenthesesFault?_cons] at matched
    split at matched
    next => cases matched
    next fine =>
      obtain ⟨total, inner⟩ := ih matched
      refine ⟨by simp only [count_first _ token tokens]; omega, ?_⟩
      intro before after same
      cases before with
      | nil =>
        have more : ¬ openings ≤ closings := fun few => fine ⟨(List.cons.inj same).1, few⟩
        simpa using more
      | cons first before =>
        obtain ⟨rfl, rest⟩ := List.cons.inj same
        have bound := inner before after rest
        simp only [count_first _ token before]
        omega

theorem matched_before_unopened {place : Nat} (few : closings ≤ openings)
    (fault : parenthesesFault? position openings closings tokens = some (.unopened place)) :
    ∃ front rest, tokens = front ++ .closing :: rest ∧ place = position + front.length ∧
      parenthesesFault? position openings closings front = none := by
  induction tokens generalizing position openings closings with
  | nil =>
    simp only [parenthesesFault?] at fault
    split at fault <;> cases fault
  | cons token tokens ih =>
    rw [parenthesesFault?_cons] at fault
    split at fault
    next full =>
      obtain ⟨rfl, full⟩ := full
      cases fault
      have equal : openings = closings := Nat.le_antisymm full few
      exact ⟨[], tokens, rfl, rfl, by simp [parenthesesFault?, equal]⟩
    next fine =>
      obtain ⟨front, rest, rfl, rfl, matched⟩ := ih (few_next few fine) fault
      exact ⟨token :: front, rest, rfl, by simp; omega, by rw [parenthesesFault?_cons, if_neg fine, matched]⟩

theorem parenthesesFault?_replicate (position closings count : Nat) :
    parenthesesFault? position (closings + count) closings (List.replicate count .closing) = none := by
  induction count generalizing position closings with
  | zero => simp [parenthesesFault?]
  | succ count ih =>
    rw [List.replicate_succ, parenthesesFault?, if_neg (by omega)]
    have shifted : closings + (count + 1) = closings + 1 + count := by omega
    rw [shifted]
    exact ih (position + 1) (closings + 1)

theorem matched_of_unclosed {opened closed : Nat} (few : closings ≤ openings)
    (fault : parenthesesFault? position openings closings tokens = some (.unclosed opened closed)) :
    closed < opened ∧ opened = openings + tokens.count .opening ∧ closed = closings + tokens.count .closing ∧
      parenthesesFault? position openings closings (tokens ++ List.replicate (opened - closed) .closing) = none := by
  induction tokens generalizing position openings closings with
  | nil =>
    simp only [parenthesesFault?] at fault
    split at fault
    next => cases fault
    next apart =>
      cases fault
      refine ⟨by omega, rfl, rfl, ?_⟩
      have total : opened = closed + (opened - closed) := by omega
      have done := parenthesesFault?_replicate position closed (opened - closed)
      rwa [← total] at done
  | cons token tokens ih =>
    rw [parenthesesFault?_cons] at fault
    split at fault
    next => cases fault
    next fine =>
      obtain ⟨less, opened_eq, closed_eq, matched⟩ := ih (few_next few fine) fault
      simp only [count_first _ token tokens]
      refine ⟨less, by omega, by omega, ?_⟩
      rw [List.cons_append, parenthesesFault?_cons, if_neg fine, matched]

/-! What is in order when parentheses are counted -/

/-- All that is looked at before the parentheses. -/
structure Arranged (tokens : List Token) : Prop where
  plain : ∀ token ∈ tokens, strayText? token = none
  start : ∃ first, tokens.head? = some first ∧ first.begins = true
  finish : ∃ last, tokens.getLast? = some last ∧ last.ends = true
  neighbours : neighboursFault? tokens = none

theorem Arranged.faultless (arranged : Arranged tokens) (matched : parenthesesFault? 0 0 0 tokens = none) :
    Faultless tokens :=
  ⟨arranged.plain, arranged.start, arranged.finish, arranged.neighbours, matched⟩

theorem neighboursFault?_eq_none_iff :
    neighboursFault? tokens = none ↔ tokens.IsChain fun current next => neighbourFault? current next = none := by
  induction tokens with
  | nil => simp [neighboursFault?]
  | cons first tokens ih =>
    cases tokens with
    | nil => simp [neighboursFault?]
    | cons next tokens => rw [neighboursFault?, Option.or_eq_none_iff, ih, List.isChain_cons_cons]

private theorem neighbourFault?_kind {current next : Token} {e : FormulaError}
    (fault : neighbourFault? current next = some e) :
    e = .operandExpected current next ∨ e = .operatorExpected current next := by
  cases current with
  | opening | operator =>
    simp only [neighbourFault?] at fault
    split at fault
    next => cases fault
    next => exact Or.inl (Option.some.inj fault).symm
  | closing | number | cell | stray =>
    simp only [neighbourFault?] at fault
    split at fault
    next => cases fault
    next => cases fault
    next => exact Or.inr (Option.some.inj fault).symm

theorem neighboursFault?_kind {e : FormulaError} (fault : neighboursFault? tokens = some e) :
    ∃ current next, e = .operandExpected current next ∨ e = .operatorExpected current next := by
  induction tokens with
  | nil => cases fault
  | cons current tokens ih =>
    cases tokens with
    | nil => cases fault
    | cons next tokens =>
      rw [neighboursFault?, Option.or_eq_some_iff] at fault
      rcases fault with fault | ⟨_, fault⟩
      · exact ⟨current, next, neighbourFault?_kind fault⟩
      · exact ih fault

theorem arranged_of_fault? {e : FormulaError} (fault : fault? tokens = some e)
    (kind : (∃ place, e = .unopened place) ∨ ∃ opened closed, e = .unclosed opened closed) :
    Arranged tokens ∧ parenthesesFault? 0 0 0 tokens = some e := by
  have other {e' : FormulaError} (same : some e' = some e) (apart : (∀ place, e' ≠ .unopened place) ∧
      ∀ opened closed, e' ≠ .unclosed opened closed) : False := by
    obtain rfl := Option.some.inj same
    rcases kind with ⟨place, same⟩ | ⟨opened, closed, same⟩
    · exact apart.1 place same
    · exact apart.2 opened closed same
  unfold fault? at fault
  split at fault
  next first last start finish =>
    split at fault
    next => exact (other fault ⟨nofun, nofun⟩).elim
    next plain =>
      split at fault
      next => exact (other fault ⟨nofun, nofun⟩).elim
      split at fault
      next => exact (other fault ⟨nofun, nofun⟩).elim
      next begins ends =>
        rw [Option.or_eq_some_iff] at fault
        rcases fault with fault | ⟨neighbours, fault⟩
        · obtain ⟨_, _, rfl | rfl⟩ := neighboursFault?_kind fault
          · exact (other rfl ⟨nofun, nofun⟩).elim
          · exact (other rfl ⟨nofun, nofun⟩).elim
        · exact ⟨⟨List.findSome?_eq_none_iff.mp plain, ⟨first, start, by simpa using begins⟩,
            ⟨last, finish, by simpa using ends⟩, neighbours⟩, fault⟩
  next => exact (other fault ⟨nofun, nofun⟩).elim

theorem Arranged.before_closing {front rest : List Token} (arranged : Arranged (front ++ .closing :: rest)) :
    Arranged front := by
  obtain ⟨plain, ⟨first, start, begins⟩, _, neighbours⟩ := arranged
  obtain ⟨chain, _, joint⟩ := List.isChain_append.mp (neighboursFault?_eq_none_iff.mp neighbours)
  have plain : ∀ token ∈ front, strayText? token = none :=
    fun token member => plain token (List.mem_append_left _ member)
  rcases List.eq_nil_or_concat front with rfl | ⟨beginning, last, rfl⟩
  · cases start
    cases begins
  · rw [List.concat_eq_append] at *
    have finish : (beginning ++ [last]).getLast? = some last := List.getLast?_concat
    refine ⟨plain, ⟨first, ?_, begins⟩, ⟨last, finish, ?_⟩, neighboursFault?_eq_none_iff.mpr chain⟩
    · rwa [List.head?_append_of_ne_nil _ (by simp)] at start
    · have fine := begins_of_neighbours (plain last (by simp)) (joint last finish .closing rfl)
      simpa [Token.begins] using fine

theorem Arranged.append_closings (arranged : Arranged tokens) (count : Nat) :
    Arranged (tokens ++ List.replicate count .closing) := by
  cases count with
  | zero => simpa using arranged
  | succ count =>
    obtain ⟨plain, ⟨first, start, begins⟩, ⟨last, finish, ends⟩, neighbours⟩ := arranged
    refine ⟨?_, ⟨first, ?_, begins⟩, ⟨.closing, ?_, rfl⟩,
      neighboursFault?_eq_none_iff.mpr (List.isChain_append.mpr ⟨?_, ?_, ?_⟩)⟩
    · refine List.forall_mem_append.mpr ⟨plain, ?_⟩
      intro token member
      rw [List.eq_of_mem_replicate member]
      rfl
    · rw [List.head?_append, start]
      rfl
    · rw [List.getLast?_append, List.getLast?_replicate, if_neg (Nat.succ_ne_zero count)]
      rfl
    · exact neighboursFault?_eq_none_iff.mp neighbours
    · exact List.isChain_replicate_of_rel _ rfl
    · intro before member next first
      rw [finish] at member
      obtain rfl := Option.some.inj member
      rw [List.head?_replicate, if_neg (Nat.succ_ne_zero count)] at first
      obtain rfl := Option.some.inj first
      cases last with
      | number | cell | closing => rfl
      | opening | operator | stray => cases ends

end Formula

/-! Parentheses in the text -/

namespace Piece

variable {piece : Piece} {pieces : List Piece} {tokens : List Token}

/-- A closing parenthesis belongs to no other piece, so nothing that begins before it reaches it. -/
theorem Fits.within {cs rest : List Char} {count : Nat} (fits : piece.Fits) (nonempty : cs ≠ [])
    (same : piece.text ++ rest = cs ++ List.replicate count ')') : ∃ rest, piece.text ++ rest = cs := by
  rcases List.append_eq_append_iff.mp same with ⟨left, rfl, _⟩ | ⟨taken, whole, tail⟩
  · exact ⟨left, rfl⟩
  · cases taken with
    | nil => exact ⟨[], by simpa using whole⟩
    | cons c taken =>
      have closing : c = ')' := by
        have member : c ∈ List.replicate count ')' := tail ▸ List.mem_append_left _ List.mem_cons_self
        exact List.eq_of_mem_replicate member
      have lengths := congrArg List.length whole
      have positive := List.length_pos_iff.mpr nonempty
      rw [List.length_append, List.length_cons] at lengths
      rcases fits.of_mem_bracket (c := c) (by simp [whole]) (Or.inr closing) with ⟨rfl, _⟩ | ⟨rfl, _⟩
      · simp [text] at lengths
        omega
      · simp [text] at lengths
        omega

theorem flatMap_text_replicate (count : Nat) : (List.replicate count closing).flatMap text = List.replicate count ')' := by
  induction count with
  | zero => rfl
  | succ count ih =>
    rw [List.replicate_succ, List.flatMap_cons, ih]
    rfl

theorem cut_replicate (count : Nat) : Cut (List.replicate count closing) := by
  induction count with
  | zero => exact .nil
  | succ count ih =>
    have found : scan? (')' :: (List.replicate count closing).flatMap text) = some (closing, _) := rfl
    exact .piece trivial (scan?_eq_some_iff.mp found).2.2 ih

theorem ofText_replicate (count : Nat) : ofText (List.replicate count ')') = List.replicate count closing := by
  have whole := (cut_replicate count).ofText
  rwa [flatMap_text_replicate] at whole

theorem ofText_append_closings (cs : List Char) (count : Nat) :
    ofText (cs ++ List.replicate count ')') = ofText cs ++ List.replicate count closing := by
  have parted : Parted cs (List.replicate count ')') := by
    intro piece ending fits filled _ reaches
    obtain ⟨rest, same⟩ := reaches
    exact fits.within filled same
  have clear (run : List Char) : (ofText (List.replicate count ')')).head? ≠ some (.stray run) := by
    intro first
    rw [ofText_replicate, List.head?_replicate] at first
    split at first <;> cases first
  rw [ofText_append parted clear, ofText_replicate]

inductive Bracket : Char → Token → Prop where
  | opening : Bracket '(' .opening
  | closing : Bracket ')' .closing

private theorem count_piece {c : Char} {bracket : Token} (kind : Bracket c bracket) (fits : piece.Fits)
    {token? : Option Token} (read : piece.token = .ok token?) : piece.text.count c = token?.toList.count bracket := by
  have outside (other : piece ≠ .opening ∧ piece ≠ .closing) : piece.text.count c = 0 := by
    apply List.count_eq_zero.mpr
    intro member
    rcases fits.of_mem_bracket member (by cases kind <;> simp) with ⟨same, _⟩ | ⟨same, _⟩
    · exact other.1 same
    · exact other.2 same
  cases piece with
  | opening | closing =>
    cases read
    cases kind <;> rfl
  | stray => exact fits.elim
  | operator | cell | blank =>
    rw [outside ⟨nofun, nofun⟩]
    cases read
    cases kind <;> rfl
  | literal numeral =>
    rw [outside ⟨nofun, nofun⟩]
    simp only [token] at read
    split at read
    next =>
      cases read
      cases kind <;> rfl
    next => cases read

theorem Cut.count_text (cut : Cut pieces) {c : Char} {bracket : Token} (kind : Bracket c bracket)
    (read : Token.ofPieces pieces = .ok tokens) : (pieces.flatMap text).count c = tokens.count bracket := by
  induction cut generalizing tokens with
  | nil =>
    cases read
    rfl
  | piece fits _ _ ih =>
    obtain ⟨token?, later, taken, others, rfl⟩ := Token.ofPieces_cons.mp read
    rw [List.flatMap_cons, List.count_append, List.count_append, count_piece kind fits taken, ih others]
  | @stray run pieces _ unmatched _ _ ih =>
    obtain ⟨_, later, ⟨⟩, others, rfl⟩ := Token.ofPieces_cons.mp read
    have outside : run.count c = 0 := by
      apply List.count_eq_zero.mpr
      intro member
      obtain ⟨front, back, rfl⟩ := List.mem_iff_append.mp member
      apply unmatched front (c :: back) rfl (List.cons_ne_nil _ _)
      cases kind with
      | opening => exact ⟨.opening, _, trivial, rfl⟩
      | closing => exact ⟨.closing, _, trivial, rfl⟩
    have other : (some (Token.stray run)).toList.count bracket = 0 := by cases kind <;> rfl
    rw [List.flatMap_cons, List.count_append, List.count_append, text, outside, ih others, other]

end Piece

namespace Token

variable {text : List Char} {tokens : List Token}

private theorem ofPieces_replicate (count : Nat) :
    ofPieces (List.replicate count .closing) = .ok (List.replicate count closing) := by
  induction count with
  | zero => rfl
  | succ count ih => exact ofPieces_cons.mpr ⟨some closing, _, rfl, ih, rfl⟩

theorem scan_append_closings (scanned : scan text = .ok tokens) (count : Nat) :
    scan (text ++ List.replicate count ')') = .ok (tokens ++ List.replicate count closing) := by
  have read : ofPieces (Piece.ofText text) = .ok tokens := scanned
  rw [scan, Piece.ofText_append_closings, ofPieces_append, read, ofPieces_replicate]
  rfl

theorem count_of_scan {c : Char} {bracket : Token} (kind : Piece.Bracket c bracket) (scanned : scan text = .ok tokens) :
    text.count c = tokens.count bracket := by
  have counted := (Piece.cut_ofText text).count_text kind scanned
  rwa [Piece.flatMap_text_ofText] at counted

theorem tooLarge_of_scan {e : FormulaError} (failed : scan text = .error e) : ∃ literal, e = .tooLarge literal := by
  rcases ofPieces_cases (Piece.cut_ofText text).fits with ⟨_, piece, _, _, _, _, other⟩ | ⟨_, _, taken, _⟩
  · have same := failed.symm.trans other
    exact ⟨piece.text, Except.error.inj same⟩
  · have impossible := failed.symm.trans taken
    cases impossible

end Token

namespace Formula

def Unopened (tokens : List Token) (position : Nat) : Prop :=
  tokens[position]? = some .closing ∧ (tokens.take position).count .opening ≤ (tokens.take position).count .closing

/-- A fault is found in the tokens of a text unless one of its numerals is refused first. -/
theorem fault?_of_parse {text : List Char} {e : FormulaError} (failed : parse text = .error e)
    (other : ∀ literal, e ≠ .tooLarge literal) : ∃ tokens, Token.scan text = .ok tokens ∧ fault? tokens = some e := by
  rcases parse_eq_error_iff.mp failed with unscanned | found
  · obtain ⟨literal, same⟩ := Token.tooLarge_of_scan unscanned
    exact absurd same (other literal)
  · exact found

/-- Behind tokens in which every parenthesis is matched, a closing one is the first without an opening one. -/
theorem unopened_after {front : List Token} (matched : parenthesesFault? 0 0 0 front = none) (rest : List Token) :
    Unopened (front ++ .closing :: rest) front.length ∧
      ∀ earlier < front.length, ¬ Unopened (front ++ .closing :: rest) earlier := by
  obtain ⟨total, inner⟩ := counts_of_matched matched
  constructor
  · refine ⟨by simp, ?_⟩
    rw [List.take_left]
    omega
  · rintro earlier before ⟨place, few⟩
    rw [List.getElem?_append_left before] at place
    rw [List.take_append_of_le_length (Nat.le_of_lt before)] at few
    obtain ⟨_, same⟩ := List.getElem?_eq_some_iff.mp place
    have parts : front = front.take earlier ++ .closing :: front.drop (earlier + 1) := by
      rw [← same, List.getElem_cons_drop, List.take_append_drop]
    have opened := inner _ _ parts
    omega

/-- Up to a closing parenthesis that is one too many there is a formula, and one that leaves parentheses open
only lacks the closing ones. -/
theorem parentheses_diagnosed (text : List Char) :
    (∀ position, parse text = .error (.unopened position) →
      ∃ tokens, Token.scan text = .ok tokens ∧ Unopened tokens position ∧
        (∀ earlier < position, ¬ Unopened tokens earlier) ∧ ∃ f : Formula, f.tokens = tokens.take position) ∧
    ∀ openings closings, parse text = .error (.unclosed openings closings) →
      closings < openings ∧ openings = text.count '(' ∧ closings = text.count ')' ∧
        ∃ f, parse (text ++ List.replicate (openings - closings) ')') = .ok f := by
  constructor
  · intro position failed
    obtain ⟨tokens, scanned, fault⟩ := fault?_of_parse failed nofun
    obtain ⟨arranged, fault⟩ := arranged_of_fault? fault (Or.inl ⟨_, rfl⟩)
    obtain ⟨front, rest, rfl, rfl, matched⟩ := matched_before_unopened (Nat.le_refl 0) fault
    rw [Nat.zero_add]
    obtain ⟨unopened, first⟩ := unopened_after matched rest
    have written := written_of_scan scanned arranged.plain
    obtain ⟨f, tokens⟩ := exists_of_written (fun token member => written token (List.mem_append_left _ member))
      (arranged.before_closing.faultless matched)
    exact ⟨_, scanned, unopened, first, f, by rw [tokens, List.take_left]⟩
  · intro openings closings failed
    obtain ⟨tokens, scanned, fault⟩ := fault?_of_parse failed nofun
    obtain ⟨arranged, fault⟩ := arranged_of_fault? fault (Or.inr ⟨_, _, rfl⟩)
    obtain ⟨fewer, opened, closed, matched⟩ := matched_of_unclosed (Nat.le_refl 0) fault
    rw [Nat.zero_add] at opened closed
    rw [← Token.count_of_scan .opening scanned] at opened
    rw [← Token.count_of_scan .closing scanned] at closed
    refine ⟨fewer, opened, closed, ?_⟩
    have completed := Token.scan_append_closings scanned (openings - closings)
    have accepted := fault?_eq_none_iff.mpr ((arranged.append_closings _).faultless matched)
    exact ⟨⟨_, ⟨_, completed⟩, accepted⟩, parse_eq_ok_iff.mpr completed⟩

/-- The first fault is told, also when a later parenthesis is left open. -/
theorem parentheses_diagnosed_early : parse "(1))+((2)".toList = .error (.unopened 3) ∧
    (∃ f : Formula, f.canonical = "(1)".toList) ∧
      parse "((a1)*(2".toList = .error (.unclosed 3 1) ∧ ∃ f, parse "((a1)*(2))".toList = .ok f := by
  have first : parse "(1))+((2)".toList = .error (.unopened 3) := by decide +kernel
  have second : parse "((a1)*(2".toList = .error (.unclosed 3 1) := by decide +kernel
  obtain ⟨tokens, scanned, _, _, f, known⟩ := (parentheses_diagnosed "(1))+((2)".toList).1 3 first
  obtain ⟨_, _, _, completed⟩ := (parentheses_diagnosed "((a1)*(2".toList).2 3 1 second
  have shown : (Token.scan "(1))+((2)".toList).map (fun tokens => (tokens.take 3).flatMap Token.text) =
      .ok "(1)".toList := by
    decide +kernel
  rw [scanned] at shown
  exact ⟨first, ⟨f, by rw [canonical, known]; exact Except.ok.inj shown⟩, second, completed⟩

end Formula

end Worksheet
