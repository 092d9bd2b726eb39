import Mathlib.Data.List.DropRight
import Worksheet.Proofs.ContentsText
import Worksheet.Proofs.WhiteSpace

/-! A number is spelled in a cell as it is in a formula. Either grammar is that of the numerals, between white
space and with a finite value. A cell takes a sign before the numeral, which in a formula would be
an operator, and none of the words that are read as numbers has a finite value. -/

namespace Worksheet

namespace Text

variable {run : List Char}

theorem exists_trim (cs : List Char) : ∃ front back, cs = front ++ (trim cs ++ back) ∧
    (∀ c ∈ front, isBlank c = true) ∧ ∀ c ∈ back, isBlank c = true := by
  refine ⟨cs.takeWhile isBlank, (cs.dropWhile isBlank).rtakeWhile isBlank, ?_, fun _ => List.mem_takeWhile_imp,
    fun _ => List.mem_rtakeWhile_imp⟩
  change cs = _ ++ ((cs.dropWhile isBlank).rdropWhile isBlank ++ _)
  rw [List.rdropWhile_append_rtakeWhile, List.takeWhile_append_dropWhile]

theorem trim_blank_append (white : ∀ c ∈ run, isBlank c = true) (cs : List Char) : trim (run ++ cs) = trim cs := by
  rw [trim, trim, List.dropWhile_append_of_pos white]

theorem trim_append_blank (white : ∀ c ∈ run, isBlank c = true) (cs : List Char) : trim (cs ++ run) = trim cs := by
  rw [trim, trim, List.dropWhile_append]
  split
  next emptied =>
    rw [List.isEmpty_iff.mp emptied, List.dropWhile_eq_nil_iff.mpr white]
  next =>
    rw [List.reverse_append, List.dropWhile_append_of_pos fun c member => white c (List.mem_reverse.mp member)]

end Text

namespace Number

variable {cs : List Char} {x : Float}

/-- The words that are read as numbers have no finite value, and what else is read is a numeral. -/
theorem readUnsigned?_eq_some_iff (finite : isFinite x = true) {negative : Bool} :
    readUnsigned? negative cs = some x ↔ ∃ n : Numeral, n.Regular ∧ n.text = cs ∧ ofDecimal negative n.decimal = x := by
  constructor
  · intro read
    unfold readUnsigned? at read
    simp only at read
    split at read
    next =>
      cases read
      cases negative <;> exact absurd finite (by decide +kernel)
    next =>
      split at read
      next =>
        cases read
        exact absurd finite (by decide +kernel)
      next =>
        split at read
        next n scanned =>
          cases read
          exact ⟨n, Numeral.regular_of_scan? scanned, by simpa using Numeral.text_of_scan? scanned, rfl⟩
        next => cases read
  · rintro ⟨n, regular, rfl, rfl⟩
    exact readUnsigned?_text regular negative

theorem read?_eq_some_iff (finite : isFinite x = true) : read? cs = some x ↔
    ∃ (sign : Option Char) (n : Numeral), (∀ c ∈ sign, c = '+' ∨ c = '-') ∧ n.Regular ∧ sign.toList ++ n.text = cs ∧
      ofDecimal (sign == some '-') n.decimal = x := by
  constructor
  · intro read
    unfold read? at read
    split at read
    next rest =>
      obtain ⟨n, regular, rfl, value⟩ := (readUnsigned?_eq_some_iff finite).mp read
      exact ⟨some '+', n, by simp, regular, rfl, value⟩
    next rest =>
      obtain ⟨n, regular, rfl, value⟩ := (readUnsigned?_eq_some_iff finite).mp read
      exact ⟨some '-', n, by simp, regular, rfl, value⟩
    next =>
      obtain ⟨n, regular, rfl, value⟩ := (readUnsigned?_eq_some_iff finite).mp read
      exact ⟨none, n, by simp, regular, rfl, value⟩
  · rintro ⟨sign, n, signed, regular, rfl, rfl⟩
    cases sign with
    | none => exact read?_text regular
    | some c =>
      rcases signed c rfl with rfl | rfl
      · exact readUnsigned?_text regular false
      · exact readUnsigned?_text regular true

end Number

namespace Piece

variable {cs : List Char} {piece : Piece}

theorem isBlank_of_dense {pieces : List Piece} (spelled : ∀ piece ∈ pieces, piece.Fits ∨ ∃ run, piece = .stray run)
    (nothing : dense pieces = []) : ∀ c ∈ pieces.flatMap text, Text.isBlank c = true := by
  intro c member
  obtain ⟨piece, present, member⟩ := List.mem_flatMap.mp member
  have blank := List.filter_eq_nil_iff.mp nothing piece present
  cases piece with
  | blank run =>
    rcases spelled _ present with fits | ⟨_, other⟩
    · exact fits.2 c member
    · cases other
  | opening | closing | operator | cell | literal | stray => exact absurd rfl blank

theorem trim_of_dense (alone : dense (ofText cs) = [piece]) (solid : ∀ c ∈ piece.text, Text.isBlank c = false) :
    Text.trim cs = piece.text := by
  obtain ⟨before, after, pieces, first, _, last⟩ := List.filter_eq_cons_iff.mp alone
  have spelled := (cut_ofText cs).fits
  rw [pieces, List.forall_mem_append, List.forall_mem_cons] at spelled
  have front := isBlank_of_dense spelled.1 (List.filter_eq_nil_iff.mpr first)
  have back := isBlank_of_dense spelled.2.2 last
  have whole := flatMap_text_ofText cs
  rw [pieces, List.flatMap_append, List.flatMap_cons] at whole
  rw [← whole, Text.trim_blank_append front, Text.trim_append_blank back, Text.trim_of_forall solid]

end Piece

namespace Token

variable {cs : List Char} {x : Float}

theorem scan_trim (cs : List Char) : scan (Text.trim cs) = scan cs := by
  obtain ⟨front, back, parts, before, behind⟩ := Text.exists_trim cs
  calc
    scan (Text.trim cs) = scan (front ++ (Text.trim cs ++ back)) := by
      rw [scan_blank_append before, scan_append_blank behind]
    _ = scan cs := by rw [← parts]

theorem piece_of_scan {token : Token} (scanned : scan cs = .ok [token]) :
    ∃ piece ∈ Piece.ofText cs, Piece.dense (Piece.ofText cs) = [piece] ∧ piece.Spells token ∧ ¬ piece.Overflows := by
  rcases ofPieces_cases (Piece.cut_ofText cs).fits with ⟨_, _, _, _, _, _, failed⟩ | ⟨within, tokens, taken, spells⟩
  · rw [scan, failed] at scanned
    cases scanned
  · rw [scan, taken] at scanned
    cases scanned
    obtain ⟨piece, others, spells, rest, alone⟩ := List.forall₂_cons_right_iff.mp spells
    obtain rfl := List.forall₂_nil_right_iff.mp rest
    have present : piece ∈ Piece.ofText cs := (List.mem_filter.mp (alone ▸ List.mem_singleton_self _)).1
    exact ⟨piece, present, alone, spells, within piece present⟩

theorem scan_eq_number_iff : scan cs = .ok [.number x] ↔ Number.isFinite x = true ∧
    ∃ n : Numeral, n.Regular ∧ n.text = Text.trim cs ∧ Number.ofDecimal false n.decimal = x := by
  constructor
  · intro scanned
    obtain ⟨piece, present, alone, spells, within⟩ := piece_of_scan scanned
    cases spells with
    | @literal n _ read =>
      have regular : n.Regular := by
        rcases (Piece.cut_ofText cs).fits _ present with fits | ⟨_, other⟩
        · exact fits
        · cases other
      have finite : Number.isFinite x = true := by
        apply Bool.of_not_eq_false
        exact fun infinite => within ⟨x, read, infinite⟩
      have value := Number.read?_text regular
      rw [read] at value
      exact ⟨finite, n, regular, (Piece.trim_of_dense alone regular.not_isBlank).symm, (Option.some.inj value).symm⟩
  · rintro ⟨finite, n, regular, shown, rfl⟩
    have found := Piece.scan?_of_numeral regular.scan?_text
    rw [← scan_trim, ← shown, scan, Piece.ofText_of_scan? found, Piece.ofText_nil, ofPieces, Piece.token, if_pos finite]
    rfl

end Token

namespace Contents

theorem parse_eq_number_iff {entry : String} {x : Float} : parse entry = .ok (number x) ↔ number? entry.toList = some x := by
  unfold parse
  split
  next blank =>
    subst blank
    have unread : number? [] = none := by decide +kernel
    simp [unread]
  next =>
    split
    next y found => simp [found]
    next unread =>
      rw [unread]
      split
      next text _ => cases Formula.parse text <;> simp [Except.map]
      next => simp

theorem number?_eq_some_iff {cs : List Char} {x : Float} : number? cs = some x ↔ Number.isFinite x = true ∧
    ∃ (sign : Option Char) (n : Numeral), (∀ c ∈ sign, c = '+' ∨ c = '-') ∧ n.Regular ∧ sign.toList ++ n.text = Text.trim cs ∧
      Number.ofDecimal (sign == some '-') n.decimal = x := by
  rw [number?, Option.filter_eq_some_iff, and_comm]
  exact and_congr_right fun finite => Number.read?_eq_some_iff finite

theorem parse_sign_of_scan {entry : String} {x : Float} (scanned : Token.scan entry.toList = .ok [.number x]) :
    ∃ f, parse ("=" ++ entry) = .ok (formula f) ∧ ∀ lookup, f.evaluate lookup = .ok x := by
  let f : Formula := ⟨[.number x], ⟨_, scanned⟩, rfl⟩
  have read : Formula.parse entry.toList = .ok f := Formula.parse_eq_ok_iff.mpr scanned
  have signed := signed_ofList entry.toList
  have text : String.ofList ('=' :: entry.toList) = "=" ++ entry := by
    apply String.toList_injective
    simp
  refine ⟨f, ?_, fun lookup => rfl⟩
  rw [← text, signed.parse, read]
  rfl

/-- A text that is scanned as one number is entered as that number, and after an equals sign as a formula
with its value. A text that is entered as a number is scanned as one unless it begins with a sign. -/
theorem number_grammars_agree (entry : String) (x : Float) :
    (Token.scan entry.toList = .ok [.number x] → parse entry = .ok (number x) ∧
      ∃ f, parse ("=" ++ entry) = .ok (formula f) ∧ ∀ lookup, f.evaluate lookup = .ok x) ∧
    (parse entry = .ok (number x) → Token.scan entry.toList = .ok [.number x] ∨
      ∃ sign ∈ (Text.trim entry.toList).head?, sign = '+' ∨ sign = '-') := by
  constructor
  · intro scanned
    obtain ⟨finite, n, regular, shown, value⟩ := Token.scan_eq_number_iff.mp scanned
    refine ⟨?_, parse_sign_of_scan scanned⟩
    exact parse_eq_number_iff.mpr (number?_eq_some_iff.mpr ⟨finite, none, n, nofun, regular, shown, value⟩)
  · intro read
    obtain ⟨finite, sign, n, signed, regular, shown, value⟩ := number?_eq_some_iff.mp (parse_eq_number_iff.mp read)
    cases sign with
    | none => exact Or.inl (Token.scan_eq_number_iff.mpr ⟨finite, n, regular, shown, value⟩)
    | some c =>
      refine Or.inr ⟨c, ?_, signed c rfl⟩
      rw [← shown]
      rfl

theorem number_grammars_agree_of_padded : Token.scan "\t2.50e1 ".toList = .ok [.number 25] ∧
    parse "\t2.50e1 " = .ok (number 25) ∧
    (∃ f, parse ("=" ++ "\t2.50e1 ") = .ok (formula f) ∧ ∀ lookup, f.evaluate lookup = .ok 25) ∧
    parse "\t-2.50e1 " = .ok (number (-25)) ∧ Token.scan "\t-2.50e1 ".toList = .ok [.operator .subtract, .number 25] ∧
    ∃ sign ∈ (Text.trim "\t-2.50e1 ".toList).head?, sign = '+' ∨ sign = '-' := by
  have scanned : Token.scan "\t2.50e1 ".toList = .ok [.number 25] := by decide +kernel
  have signed : Token.scan "\t-2.50e1 ".toList = .ok [.operator .subtract, .number 25] := by decide +kernel
  have read : parse "\t-2.50e1 " = .ok (number (-25)) := by decide +kernel
  obtain ⟨plain, asked⟩ := (number_grammars_agree "\t2.50e1 " 25).1 scanned
  refine ⟨scanned, plain, asked, read, signed, ?_⟩
  refine ((number_grammars_agree "\t-2.50e1 " (-25)).2 read).resolve_left ?_
  rw [signed]
  nofun

end Contents
end Worksheet
