import Mathlib.Data.List.TakeWhile
import Worksheet.Proofs.TextPieces

/-! Upper and lower case in a text. A text in lower case falls into the same pieces as before, each of them in
lower case: letters are told from other characters in either case, an address is kept in upper case, and
the value of a numeral does not hang on the case of the mark before its power. -/

namespace Worksheet

namespace Text

variable {c d : Char}

theorem toNat_toLower (upper : 65 ≤ c.toNat ∧ c.toNat ≤ 90) : c.toLower.toNat = c.toNat + 32 := by
  have range : c.val ≥ 'A'.val ∧ c.val ≤ 'Z'.val := upper
  have shift : ('a'.val - 'A'.val).toNat = 32 := by decide
  have sum : c.toLower.toNat = (c.val.toNat + ('a'.val - 'A'.val).toNat) % 2 ^ 32 := by
    unfold Char.toLower
    rw [dif_pos range]
    exact UInt32.toNat_add ..
  have code : c.val.toNat = c.toNat := rfl
  rw [sum, shift, code]
  omega

theorem toNat_toUpper (lower : 97 ≤ c.toNat ∧ c.toNat ≤ 122) : c.toUpper.toNat = c.toNat - 32 := by
  have range : 'a'.val ≤ c.val ∧ c.val ≤ 'z'.val := lower
  have shift : ('A'.val - 'a'.val).toNat = 2 ^ 32 - 32 := by decide
  have sum : c.toUpper.toNat = (c.val.toNat + ('A'.val - 'a'.val).toNat) % 2 ^ 32 := by
    unfold Char.toUpper
    rw [dif_pos range]
    exact UInt32.toNat_add ..
  have code : c.val.toNat = c.toNat := rfl
  rw [sum, shift, code]
  omega

/-- Either nothing happens to a character, or it moves from the upper letters to the lower ones. -/
theorem toLower_cases (c : Char) :
    c.toLower = c ∨ (65 ≤ c.toNat ∧ c.toNat ≤ 90) ∧ c.toLower.toNat = c.toNat + 32 := by
  by_cases upper : 65 ≤ c.toNat ∧ c.toNat ≤ 90
  · exact Or.inr ⟨upper, toNat_toLower upper⟩
  · exact Or.inl (toLower_eq_self upper)

/-! What a character is does not depend on its case. -/

theorem isAlpha_toLower (c : Char) : c.toLower.isAlpha = c.isAlpha := by
  rcases toLower_cases c with same | ⟨upper, moved⟩
  · rw [same]
  · apply Bool.eq_iff_iff.mpr
    rw [isAlpha_iff, isAlpha_iff]
    omega

theorem isDigit_toLower (c : Char) : c.toLower.isDigit = c.isDigit := by
  rcases toLower_cases c with same | ⟨upper, moved⟩
  · rw [same]
  · apply Bool.eq_iff_iff.mpr
    rw [isDigit_iff, isDigit_iff]
    omega

theorem isBlank_toLower (c : Char) : isBlank c.toLower = isBlank c := by
  rcases toLower_cases c with same | ⟨upper, moved⟩
  · rw [same]
  · apply Bool.eq_iff_iff.mpr
    simp only [isBlank, Bool.or_eq_true, Bool.and_eq_true, decide_eq_true_eq, beq_iff_eq]
    omega

theorem toLower_eq_iff (other : d.isAlpha = false) : c.toLower = d ↔ c = d := by
  rcases toLower_cases c with same | ⟨upper, moved⟩
  · rw [same]
  · rw [Bool.eq_false_iff, ne_eq, isAlpha_iff] at other
    constructor
    · intro same
      rw [same] at moved
      omega
    · intro same
      rw [same] at upper
      omega

theorem toUpper_toLower (c : Char) : c.toLower.toUpper = c.toUpper := by
  rcases toLower_cases c with same | ⟨upper, moved⟩
  · rw [same]
  · have back := toNat_toUpper (c := c.toLower) (by omega)
    rw [toUpper_eq_self (c := c) (by omega)]
    apply Char.toNat_inj.mp
    omega

theorem toLower_toUpper (c : Char) : c.toUpper.toLower = c.toLower := by
  by_cases lower : 97 ≤ c.toNat ∧ c.toNat ≤ 122
  · have moved := toNat_toUpper lower
    have back := toNat_toLower (c := c.toUpper) (by omega)
    rw [toLower_eq_self (c := c) (by omega)]
    apply Char.toNat_inj.mp
    omega
  · rw [toUpper_eq_self lower]

theorem map_toLower_eq_iff {cs ds : List Char} :
    cs.map Char.toLower = ds.map Char.toLower ↔ cs.map Char.toUpper = ds.map Char.toUpper := by
  constructor
  · intro same
    have upper := congrArg (List.map Char.toUpper) same
    simpa only [List.map_map, Function.comp_def, toUpper_toLower] using upper
  · intro same
    have lower := congrArg (List.map Char.toLower) same
    simpa only [List.map_map, Function.comp_def, toLower_toUpper] using lower

theorem map_toLower_digits {digits : List Char} (all : ∀ c ∈ digits, c.isDigit = true) : digits.map Char.toLower = digits :=
  (List.map_congr_left fun c member => toLower_of_isDigit (all c member)).trans digits.map_id

section
variable {p : Char → Bool} (blind : ∀ c, p c.toLower = p c) (cs : List Char)
include blind

theorem takeWhile_lower : (cs.map Char.toLower).takeWhile p = (cs.takeWhile p).map Char.toLower := by
  have same : p ∘ Char.toLower = p := funext blind
  rw [List.takeWhile_map, same]

theorem dropWhile_lower : (cs.map Char.toLower).dropWhile p = (cs.dropWhile p).map Char.toLower := by
  have same : p ∘ Char.toLower = p := funext blind
  rw [List.dropWhile_map, same]

end

end Text

theorem Address.scan?_lower (cs : List Char) :
    scan? (cs.map Char.toLower) =
      (scan? cs).map fun (spelling, address, rest) => (spelling.map Char.toLower, address, rest.map Char.toLower) := by
  unfold scan?
  simp only [Text.takeWhile_lower Text.isAlpha_toLower, Text.dropWhile_lower Text.isAlpha_toLower,
    Text.takeWhile_lower Text.isDigit_toLower, Text.dropWhile_lower Text.isDigit_toLower]
  have digits (after : List Char) : (after.takeWhile Char.isDigit).map Char.toLower = after.takeWhile Char.isDigit :=
    Text.map_toLower_digits fun _ => List.mem_takeWhile_imp
  have letters (column : List Char) : (column.map Char.toLower).map Char.toUpper = column.map Char.toUpper := by
    rw [List.map_map]
    exact List.map_congr_left fun c _ => Text.toUpper_toLower c
  simp only [digits, letters, ne_eq, List.map_eq_nil_iff]
  split
  next => simp only [Option.map_some, List.map_append, digits]
  next => rfl

namespace Power

def folded (p : Power) : Power := ⟨p.mark.toLower, p.sign.map Char.toLower, p.digits.map Char.toLower⟩

theorem text_folded (p : Power) : p.folded.text = p.text.map Char.toLower := by
  obtain ⟨mark, sign, digits⟩ := p
  cases sign with
  | none => simp [folded, text]
  | some c => simp [folded, text]

theorem ofDigits?_lower (mark : Char) (sign : Option Char) (cs : List Char) :
    ofDigits? mark.toLower (sign.map Char.toLower) (cs.map Char.toLower) =
      (ofDigits? mark sign cs).map (Prod.map folded (List.map Char.toLower)) := by
  unfold ofDigits?
  simp only [Text.takeWhile_lower Text.isDigit_toLower, Text.dropWhile_lower Text.isDigit_toLower, List.map_eq_nil_iff]
  split
  next => rfl
  next => rfl

theorem mark_toLower (mark : Char) : mark.toLower = 'e' ∨ mark.toLower = 'E' ↔ mark = 'e' ∨ mark = 'E' := by
  rcases Text.toLower_cases mark with same | ⟨upper, moved⟩
  · rw [same]
  · have e : ('e').toNat = 101 := rfl
    have E : ('E').toNat = 69 := rfl
    simp only [← Char.toNat_inj, e, E]
    omega

theorem scan?_lower (cs : List Char) :
    scan? (cs.map Char.toLower) = (scan? cs).map (Prod.map folded (List.map Char.toLower)) := by
  cases cs with
  | nil => rfl
  | cons mark rest =>
    simp only [List.map_cons, scan?, mark_toLower]
    by_cases marked : mark = 'e' ∨ mark = 'E'
    · simp only [if_pos marked]
      cases rest with
      | nil => exact ofDigits?_lower mark none []
      | cons c after =>
        by_cases plus : c = '+'
        · subst plus
          exact ofDigits?_lower mark (some '+') after
        by_cases minus : c = '-'
        · subst minus
          exact ofDigits?_lower mark (some '-') after
        have plus' : c.toLower ≠ '+' := by rwa [ne_eq, Text.toLower_eq_iff (by decide)]
        have minus' : c.toLower ≠ '-' := by rwa [ne_eq, Text.toLower_eq_iff (by decide)]
        have found := ofDigits?_lower mark none (c :: after)
        split
        next same => exact absurd (List.cons.inj same).1 plus'
        next same => exact absurd (List.cons.inj same).1 minus'
        next =>
          split
          next same => exact absurd (List.cons.inj same).1 plus
          next same => exact absurd (List.cons.inj same).1 minus
          next => exact found
    · simp only [if_neg marked, Option.map_none]

theorem Regular.value_folded {p : Power} (regular : p.Regular) : p.folded.value = p.value := by
  obtain ⟨mark, sign, digits⟩ := p
  obtain ⟨_, signed, _, all⟩ := regular
  have kept : sign.map Char.toLower = sign := by
    cases sign with
    | none => rfl
    | some c =>
      rcases signed c rfl with rfl | rfl
      · rfl
      · rfl
  simp only [folded, value, Text.map_toLower_digits all, kept]

end Power

namespace Numeral

/-- The same numeral with the mark of its power in lower case. Its other characters are no letters. -/
def folded (n : Numeral) : Numeral :=
  ⟨n.whole.map Char.toLower, n.fraction.map (List.map Char.toLower), n.power.map Power.folded⟩

theorem text_folded (n : Numeral) : n.folded.text = n.text.map Char.toLower := by
  obtain ⟨whole, fraction, power⟩ := n
  have point : ('.').toLower = '.' := by decide
  cases fraction with
  | none =>
    cases power with
    | none => simp [folded, text]
    | some p => simp [folded, text, Power.text_folded]
  | some part =>
    cases power with
    | none => simp [folded, text, point]
    | some p => simp [folded, text, point, Power.text_folded]

theorem withPower_lower (whole : List Char) (fraction : Option (List Char)) (rest : List Char) :
    withPower (whole.map Char.toLower) (fraction.map (List.map Char.toLower)) (rest.map Char.toLower) =
      Prod.map folded (List.map Char.toLower) (withPower whole fraction rest) := by
  unfold withPower
  rw [Power.scan?_lower]
  cases Power.scan? rest with
  | none => rfl
  | some found => rfl

theorem scan?_lower (cs : List Char) :
    scan? (cs.map Char.toLower) = (scan? cs).map (Prod.map folded (List.map Char.toLower)) := by
  unfold scan?
  simp only [Text.takeWhile_lower Text.isDigit_toLower, Text.dropWhile_lower Text.isDigit_toLower]
  generalize cs.takeWhile Char.isDigit = whole
  have plain (rest : List Char) : (if whole.map Char.toLower = [] then none
        else some (withPower (whole.map Char.toLower) none (rest.map Char.toLower))) =
      (if whole = [] then none else some (withPower whole none rest)).map (Prod.map folded (List.map Char.toLower)) := by
    simp only [List.map_eq_nil_iff]
    split
    next => rfl
    next => exact congrArg some (withPower_lower whole none rest)
  cases cs.dropWhile Char.isDigit with
  | nil => exact plain []
  | cons c after =>
    by_cases point : c = '.'
    · subst point
      have lower : ('.').toLower = '.' := by decide
      simp only [List.map_cons, lower, Text.takeWhile_lower Text.isDigit_toLower, Text.dropWhile_lower Text.isDigit_toLower,
        List.map_eq_nil_iff]
      split
      next => rfl
      next => exact congrArg some (withPower_lower whole (some (after.takeWhile Char.isDigit)) _)
    · have point' : c.toLower ≠ '.' := by rwa [ne_eq, Text.toLower_eq_iff (by decide)]
      have found := plain (c :: after)
      rw [List.map_cons] at found ⊢
      split
      next same => exact absurd (List.cons.inj same).1 point'
      next =>
        refine found.trans (congrArg (Option.map _) ?_)
        symm
        split
        next same => exact absurd (List.cons.inj same).1 point
        next => rfl

theorem Regular.decimal_folded {n : Numeral} (regular : n.Regular) : n.folded.decimal = n.decimal := by
  obtain ⟨whole, fraction, power⟩ := n
  have fraction_same : fraction.map (List.map Char.toLower) = fraction := by
    cases fraction with
    | none => rfl
    | some part => exact congrArg some (Text.map_toLower_digits (regular.fraction part rfl))
  have power_same : (power.map Power.folded).elim 0 Power.value = power.elim 0 Power.value := by
    cases power with
    | none => rfl
    | some p => exact (regular.power p rfl).value_folded
  simp only [folded, decimal, Text.map_toLower_digits regular.whole, fraction_same, power_same]

end Numeral

/-- Letters are no operators. -/
theorem Operator.ofSymbol?_toLower (c : Char) : ofSymbol? c.toLower = ofSymbol? c := by
  have plain {d : Char} (letter : d.isAlpha = true) : ofSymbol? d = none := by
    cases found : ofSymbol? d with
    | none => rfl
    | some op =>
      have symbol := symbol_of_ofSymbol? found
      subst symbol
      cases op <;> cases letter
  by_cases letter : c.isAlpha = true
  · rw [plain letter, plain (Text.isAlpha_toLower c ▸ letter)]
  · rcases Text.toLower_cases c with same | ⟨upper, _⟩
    · rw [same]
    · exact absurd (Text.isAlpha_iff.mpr (Or.inl upper)) letter

namespace Piece

def folded : Piece → Piece
  | cell spelling address => cell (spelling.map Char.toLower) address
  | literal numeral => literal numeral.folded
  | blank run => blank (run.map Char.toLower)
  | stray run => stray (run.map Char.toLower)
  | other => other

theorem scanRun?_lower (cs : List Char) :
    scanRun? (cs.map Char.toLower) = (scanRun? cs).map (Prod.map folded (List.map Char.toLower)) := by
  unfold scanRun?
  rw [Address.scan?_lower, Numeral.scan?_lower]
  cases Address.scan? cs with
  | some found => rfl
  | none =>
    cases Numeral.scan? cs with
    | some found => rfl
    | none =>
      simp only [Option.map_none, Text.takeWhile_lower Text.isBlank_toLower, Text.dropWhile_lower Text.isBlank_toLower,
        List.map_eq_nil_iff]
      split
      next => rfl
      next => rfl

theorem scan?_lower (cs : List Char) :
    scan? (cs.map Char.toLower) = (scan? cs).map (Prod.map folded (List.map Char.toLower)) := by
  cases cs with
  | nil => rfl
  | cons c rest =>
    have run := scanRun?_lower (c :: rest)
    simp only [List.map_cons, scan?, Text.toLower_eq_iff (d := '(') (by decide), Text.toLower_eq_iff (d := ')') (by decide),
      Operator.ofSymbol?_toLower]
    split
    next => rfl
    next =>
      split
      next => rfl
      next =>
        cases Operator.ofSymbol? c with
        | some op => rfl
        | none => exact run

theorem glue_folded (c : Char) (pieces : List Piece) : glue c.toLower (pieces.map folded) = (glue c pieces).map folded := by
  cases pieces with
  | nil => rfl
  | cons piece pieces =>
    cases piece with
    | opening | closing | operator | cell | literal | blank | stray => rfl

theorem ofText_lower (cs : List Char) : ofText (cs.map Char.toLower) = (ofText cs).map folded := by
  fun_induction ofText cs with
  | case1 cs piece rest found ih =>
    have lower : scan? (cs.map Char.toLower) = some (piece.folded, rest.map Char.toLower) := by
      rw [scan?_lower, found]
      rfl
    rw [ofText_of_scan? lower, ih, List.map_cons]
  | case2 found => exact ofText_nil
  | case3 c rest missing ih =>
    have lower : scan? ((c :: rest).map Char.toLower) = none := by
      rw [scan?_lower, missing]
      rfl
    rw [List.map_cons, ofText_of_not_begins (scan?_eq_none_iff.mp lower), ih, glue_folded]

end Piece
end Worksheet
