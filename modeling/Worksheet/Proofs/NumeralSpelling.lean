import Worksheet.Proofs.AddressSpelling
import Worksheet.Number.Text

/-! The grammar of numerals. Scanning takes a numeral that no other at the front of the same text is longer
than, and a numeral alone is read as the number that its digits stand for. -/

namespace Worksheet

namespace Power

/-- A mark, perhaps a sign, and at least one digit. -/
structure Regular (p : Power) : Prop where
  mark : p.mark = 'e' ∨ p.mark = 'E'
  sign : ∀ c ∈ p.sign, c = '+' ∨ c = '-'
  filled : p.digits ≠ []
  digits : ∀ c ∈ p.digits, c.isDigit = true

theorem Regular.scan? {p : Power} (regular : p.Regular) {rest : List Char}
    (stops : ∀ c ∈ rest.head?, c.isDigit = false) : Power.scan? (p.text ++ rest) = some (p, rest) := by
  obtain ⟨mark, sign, digits⟩ := p
  obtain ⟨marked, signed, filled, all⟩ := regular
  obtain ⟨taken, dropped⟩ := Text.run_append all stops
  have found (sign : Option Char) : ofDigits? mark sign (digits ++ rest) = some (⟨mark, sign, digits⟩, rest) := by
    unfold ofDigits?
    simp only [taken, dropped, if_neg filled]
  have digit (c : Char) : c.isDigit = false → ∀ after, digits ++ rest ≠ c :: after := by
    rintro apart after same
    obtain ⟨first, more, rfl⟩ := List.exists_cons_of_ne_nil filled
    rw [← (List.cons.inj same).1, all first List.mem_cons_self] at apart
    cases apart
  unfold Power.scan?
  simp only [text, List.cons_append, if_pos marked, List.append_assoc]
  cases sign with
  | none =>
    simp only [Option.toList_none, List.nil_append]
    split
    next after same => exact absurd same (digit '+' (by decide) after)
    next after same => exact absurd same (digit '-' (by decide) after)
    next => exact found none
  | some c =>
    rcases signed c rfl with rfl | rfl
    · exact found (some '+')
    · exact found (some '-')

theorem regular_of_ofDigits? {mark : Char} {sign : Option Char} {cs rest : List Char} {p : Power}
    (marked : mark = 'e' ∨ mark = 'E') (signed : ∀ c ∈ sign, c = '+' ∨ c = '-')
    (found : ofDigits? mark sign cs = some (p, rest)) : p.Regular := by
  simp only [ofDigits?] at found
  split at found
  next => cases found
  next filled =>
    cases found
    exact ⟨marked, signed, filled, fun _ => List.mem_takeWhile_imp⟩

theorem regular_of_scan? {cs rest : List Char} {p : Power} (found : scan? cs = some (p, rest)) : p.Regular := by
  unfold scan? at found
  split at found
  next => cases found
  next mark after =>
    split at found
    next marked =>
      split at found
      next => exact regular_of_ofDigits? marked (by simp) found
      next => exact regular_of_ofDigits? marked (by simp) found
      next => exact regular_of_ofDigits? marked (by simp) found
    next => cases found

/-- Digits that follow would have belonged to it, so a power is scanned that is at least as long. -/
theorem Regular.scan?_append {p : Power} (regular : p.Regular) (rest : List Char) :
    ∃ longer after, Power.scan? (p.text ++ rest) = some (longer, after) ∧ p.text.length ≤ longer.text.length := by
  let longer : Power := { p with digits := p.digits ++ rest.takeWhile Char.isDigit }
  have whole : longer.text ++ rest.dropWhile Char.isDigit = p.text ++ rest := by
    simp [longer, text, List.takeWhile_append_dropWhile]
  have filled : longer.Regular := by
    refine ⟨regular.mark, regular.sign, by simp [longer, regular.filled], ?_⟩
    intro c member
    rcases List.mem_append.mp member with member | member
    · exact regular.digits c member
    · exact List.mem_takeWhile_imp member
  refine ⟨longer, _, whole ▸ filled.scan? (Text.stops_dropWhile _ _), ?_⟩
  simp [longer, text]

end Power

namespace Numeral

/-- Digits with an optional point, at least one digit beside it, and an optional power. -/
structure Regular (n : Numeral) : Prop where
  whole : ∀ c ∈ n.whole, c.isDigit = true
  fraction : ∀ digits ∈ n.fraction, ∀ c ∈ digits, c.isDigit = true
  filled : n.whole ≠ [] ∨ ∃ digits ∈ n.fraction, digits ≠ []
  power : ∀ p ∈ n.power, p.Regular

/-- What may follow a numeral without becoming part of it. -/
def Ends (rest : List Char) : Prop := ∀ c ∈ rest.head?, c.isDigit = false ∧ c ≠ '.' ∧ c ≠ 'e' ∧ c ≠ 'E'

theorem Regular.head {n : Numeral} (regular : n.Regular) :
    ∃ first rest, n.text = first :: rest ∧ (first.isDigit = true ∨ first = '.') := by
  obtain ⟨whole, fraction, power⟩ := n
  cases whole with
  | cons first more => exact ⟨first, _, rfl, Or.inl (regular.whole first List.mem_cons_self)⟩
  | nil =>
    rcases regular.filled with filled | ⟨digits, some_digits, _⟩
    · exact absurd rfl filled
    · obtain rfl : fraction = some digits := some_digits
      exact ⟨'.', _, rfl, Or.inr rfl⟩

theorem scan?_power {rest : List Char} (ends : Ends rest) : Power.scan? rest = none := by
  cases rest with
  | nil => rfl
  | cons c rest =>
    obtain ⟨_, _, e, E⟩ := ends c rfl
    simp [Power.scan?, e, E]

/-! A numeral is scanned with its point or without one. -/

theorem scan?_point {whole fraction rest : List Char} (whole_digits : ∀ c ∈ whole, c.isDigit = true)
    (fraction_digits : ∀ c ∈ fraction, c.isDigit = true) (filled : whole ≠ [] ∨ fraction ≠ [])
    (stops : ∀ c ∈ rest.head?, c.isDigit = false) :
    scan? (whole ++ '.' :: (fraction ++ rest)) = some (withPower whole (some fraction) rest) := by
  have point : ∀ c ∈ ('.' :: (fraction ++ rest)).head?, c.isDigit = false := by
    rintro _ ⟨⟩
    rfl
  obtain ⟨taken, dropped⟩ := Text.run_append whole_digits point
  obtain ⟨digits, left⟩ := Text.run_append fraction_digits stops
  have some_digit : ¬ (whole = [] ∧ fraction = []) := by
    rintro ⟨rfl, rfl⟩
    exact filled.elim (absurd rfl) (absurd rfl)
  unfold scan?
  simp only [taken, dropped, digits, left, if_neg some_digit]

theorem scan?_plain {whole rest : List Char} (digits : ∀ c ∈ whole, c.isDigit = true) (filled : whole ≠ [])
    (stops : ∀ c ∈ rest.head?, c.isDigit = false) (pointless : ∀ after, rest ≠ '.' :: after) :
    scan? (whole ++ rest) = some (withPower whole none rest) := by
  obtain ⟨taken, dropped⟩ := Text.run_append digits stops
  unfold scan?
  simp only [taken, dropped, if_neg filled]

theorem scan?_before {whole rest : List Char} {fraction : Option (List Char)} (digits : ∀ c ∈ whole, c.isDigit = true)
    (fraction_digits : ∀ part ∈ fraction, ∀ c ∈ part, c.isDigit = true) (filled : whole ≠ [] ∨ ∃ part ∈ fraction, part ≠ [])
    (apart : ∀ c ∈ rest.head?, c.isDigit = false ∧ c ≠ '.') :
    scan? (whole ++ (fraction.elim [] ('.' :: ·) ++ rest)) = some (withPower whole fraction rest) := by
  have stops : ∀ c ∈ rest.head?, c.isDigit = false := fun c first => (apart c first).1
  cases fraction with
  | some part => exact scan?_point digits (fraction_digits part rfl) (by simpa using filled) stops
  | none =>
    apply scan?_plain digits (by simpa using filled) stops
    rintro after rfl
    exact (apart '.' rfl).2 rfl

theorem apart_power {p : Power} (regular : p.Regular) (rest : List Char) :
    ∀ c ∈ (p.text ++ rest).head?, c.isDigit = false ∧ c ≠ '.' := by
  rintro _ ⟨⟩
  rcases regular.mark with same | same <;> rw [same] <;> decide

theorem regular_withPower {whole rest : List Char} {fraction : Option (List Char)}
    (digits : ∀ c ∈ whole, c.isDigit = true) (fraction_digits : ∀ part ∈ fraction, ∀ c ∈ part, c.isDigit = true)
    (filled : whole ≠ [] ∨ ∃ part ∈ fraction, part ≠ []) : (withPower whole fraction rest).1.Regular := by
  unfold withPower
  split
  next power after found =>
    refine ⟨digits, fraction_digits, filled, ?_⟩
    rintro _ ⟨⟩
    exact Power.regular_of_scan? found
  next => exact ⟨digits, fraction_digits, filled, nofun⟩

theorem regular_of_scan? {cs rest : List Char} {n : Numeral} (found : scan? cs = some (n, rest)) : n.Regular := by
  have digits (text : List Char) : ∀ c ∈ text.takeWhile Char.isDigit, c.isDigit = true :=
    fun _ => List.mem_takeWhile_imp
  simp only [scan?] at found
  split at found
  next after _ =>
    split at found
    next => cases found
    next filled =>
      have fraction : ∀ part ∈ some (after.takeWhile Char.isDigit), ∀ c ∈ part, c.isDigit = true := by
        rintro _ ⟨⟩
        exact digits after
      rw [not_and_or] at filled
      obtain rfl := (Prod.mk.inj (Option.some.inj found)).1
      exact regular_withPower (digits cs) fraction (filled.imp_right fun nonempty => ⟨_, rfl, nonempty⟩)
  next =>
    split at found
    next => cases found
    next filled =>
      have pointless : ∀ part ∈ (none : Option (List Char)), ∀ c ∈ part, c.isDigit = true := by simp
      obtain rfl := (Prod.mk.inj (Option.some.inj found)).1
      exact regular_withPower (digits cs) pointless (Or.inl filled)

theorem Regular.scan? {n : Numeral} (regular : n.Regular) {rest : List Char} (ends : Ends rest) :
    Numeral.scan? (n.text ++ rest) = some (n, rest) := by
  obtain ⟨whole, fraction, power⟩ := n
  cases power with
  | none =>
    have apart : ∀ c ∈ rest.head?, c.isDigit = false ∧ c ≠ '.' := fun c first => ⟨(ends c first).1, (ends c first).2.1⟩
    have found := scan?_before regular.whole regular.fraction regular.filled apart
    simpa [text, withPower, scan?_power ends] using found
  | some p =>
    have powered := regular.power p rfl
    have found := scan?_before regular.whole regular.fraction regular.filled (apart_power powered rest)
    simpa [text, withPower, powered.scan? fun c first => (ends c first).1] using found

theorem Regular.scan?_text {n : Numeral} (regular : n.Regular) : Numeral.scan? n.text = some (n, []) := by
  have ends : Ends [] := nofun
  have found := regular.scan? ends
  rwa [List.append_nil] at found

/-! What follows a numeral can only add to it. -/

theorem length_withPower (whole rest : List Char) (fraction : Option (List Char)) :
    whole.length + (fraction.elim [] ('.' :: ·)).length ≤ (withPower whole fraction rest).1.text.length := by
  unfold withPower
  split <;> simp [text]

private theorem longer_point {whole fraction : List Char} (digits : ∀ c ∈ whole, c.isDigit = true)
    (fraction_digits : ∀ c ∈ fraction, c.isDigit = true) (filled : whole ≠ [] ∨ fraction ≠ []) (rest : List Char) :
    ∃ longer after, scan? (whole ++ '.' :: (fraction ++ rest)) = some (longer, after) ∧
      whole.length + (fraction.length + 1) ≤ longer.text.length := by
  have together : ∀ c ∈ fraction ++ rest.takeWhile Char.isDigit, c.isDigit = true :=
    List.forall_mem_append.mpr ⟨fraction_digits, fun _ => List.mem_takeWhile_imp⟩
  have nonempty : whole ≠ [] ∨ fraction ++ rest.takeWhile Char.isDigit ≠ [] :=
    filled.imp_right fun some_digit => List.append_ne_nil_of_left_ne_nil some_digit _
  have found := scan?_point digits together nonempty (Text.stops_dropWhile Char.isDigit rest)
  rw [List.append_assoc, List.takeWhile_append_dropWhile] at found
  refine ⟨_, _, found, Nat.le_trans ?_ (length_withPower ..)⟩
  simp

private theorem longer_plain {whole : List Char} (digits : ∀ c ∈ whole, c.isDigit = true) (filled : whole ≠ [])
    (rest : List Char) :
    ∃ longer after, scan? (whole ++ rest) = some (longer, after) ∧ whole.length ≤ longer.text.length := by
  have together : ∀ c ∈ whole ++ rest.takeWhile Char.isDigit, c.isDigit = true :=
    List.forall_mem_append.mpr ⟨digits, fun _ => List.mem_takeWhile_imp⟩
  have nonempty : whole ++ rest.takeWhile Char.isDigit ≠ [] := List.append_ne_nil_of_left_ne_nil filled _
  have parts : whole ++ rest = (whole ++ rest.takeWhile Char.isDigit) ++ rest.dropWhile Char.isDigit := by
    rw [List.append_assoc, List.takeWhile_append_dropWhile]
  by_cases point : ∃ after, rest.dropWhile Char.isDigit = '.' :: after
  · obtain ⟨after, point⟩ := point
    have none : ∀ c ∈ ([] : List Char), c.isDigit = true := nofun
    obtain ⟨longer, behind, found, long⟩ := longer_point together none (Or.inl nonempty) after
    rw [parts, point]
    refine ⟨longer, behind, found, Nat.le_trans ?_ long⟩
    simp
    omega
  · have found := scan?_plain together nonempty (Text.stops_dropWhile Char.isDigit rest) fun after same => point ⟨after, same⟩
    rw [parts]
    refine ⟨_, _, found, Nat.le_trans ?_ (length_withPower ..)⟩
    simp

theorem Regular.scan?_append {n : Numeral} (regular : n.Regular) (rest : List Char) :
    ∃ longer after, Numeral.scan? (n.text ++ rest) = some (longer, after) ∧ n.text.length ≤ longer.text.length := by
  obtain ⟨whole, fraction, power⟩ := n
  cases power with
  | some p =>
    have powered := regular.power p rfl
    obtain ⟨longer, after, scanned, long⟩ := powered.scan?_append rest
    have found := scan?_before regular.whole regular.fraction regular.filled (apart_power powered rest)
    refine ⟨⟨whole, fraction, some longer⟩, after, ?_, by simpa [text] using long⟩
    simpa [text, withPower, scanned] using found
  | none =>
    have filled := regular.filled
    cases fraction with
    | some part => simpa [text] using longer_point regular.whole (regular.fraction part rfl) (by simpa using filled) rest
    | none => simpa [text] using longer_plain regular.whole (by simpa using filled) rest

end Numeral

namespace Number

/-- A numeral is not taken for one of the words that are read as numbers. -/
theorem readUnsigned?_text {n : Numeral} (regular : n.Regular) (negative : Bool) :
    readUnsigned? negative n.text = some (ofDecimal negative n.decimal) := by
  obtain ⟨first, rest, text, numeric⟩ := regular.head
  have lower : first.toLower = first := by
    rcases numeric with digit | rfl
    · exact Text.toLower_of_isDigit digit
    · decide
  have word {letters : List Char} (letter : Char) (apart : letter.isDigit = false ∧ letter ≠ '.') :
      String.ofList (n.text.map Char.toLower) ≠ String.ofList (letter :: letters) := by
    intro same
    rw [text, String.ofList_inj, List.map_cons, lower] at same
    rw [(List.cons.inj same).1, apart.1] at numeric
    exact numeric.elim nofun apart.2
  unfold readUnsigned?
  simp only [regular.scan?_text]
  rw [if_neg, if_neg]
  · exact word 'n' (by decide)
  · rintro (same | same)
    · exact word 'i' (by decide) same
    · exact word 'i' (by decide) same

theorem read?_text {n : Numeral} (regular : n.Regular) : read? n.text = some (ofDecimal false n.decimal) := by
  obtain ⟨first, rest, text, numeric⟩ := regular.head
  rw [← readUnsigned?_text regular, text, read?]
  all_goals
    rintro after ⟨⟩
    simp at numeric

end Number
end Worksheet
