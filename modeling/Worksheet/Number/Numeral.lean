import Worksheet.Number.Decimal

/-! Unsigned numerals: digits with an optional point, at least one digit beside it, and an
optional power of ten. Scanning takes the longest numeral at the front of a text and keeps
its spelling, so a numeral can be quoted as it was written. -/

namespace Worksheet

/-- A power of ten at the end of a numeral, as it is spelled. -/
structure Power where
  mark : Char
  sign : Option Char
  digits : List Char

structure Numeral where
  whole : List Char
  fraction : Option (List Char)
  power : Option Power

namespace Power

def text (p : Power) : List Char := p.mark :: (p.sign.toList ++ p.digits)

def value (p : Power) : Int :=
  let size : Nat := Nat.ofDigitChars 10 p.digits 0
  if p.sign = some '-' then -size else size

/-- The digits after the mark and sign of a power, if there are any. -/
def ofDigits? (mark : Char) (sign : Option Char) (cs : List Char) : Option (Power × List Char) :=
  let digits := cs.takeWhile Char.isDigit
  if digits = [] then none else some (⟨mark, sign, digits⟩, cs.dropWhile Char.isDigit)

/-- A power at the front of a text. A mark without digits behind it is no power. -/
def scan? : List Char → Option (Power × List Char)
  | [] => none
  | mark :: rest =>
    if mark = 'e' ∨ mark = 'E' then
      match rest with
      | '+' :: after => ofDigits? mark (some '+') after
      | '-' :: after => ofDigits? mark (some '-') after
      | _ => ofDigits? mark none rest
    else none

theorem text_of_ofDigits? {mark : Char} {sign : Option Char} {cs rest : List Char} {p : Power}
    (found : ofDigits? mark sign cs = some (p, rest)) :
    p.text ++ rest = mark :: (sign.toList ++ cs) := by
  simp only [ofDigits?] at found
  split at found
  · simp at found
  · obtain ⟨rfl, rfl⟩ := Prod.mk.inj (Option.some.inj found)
    simp [text]

theorem text_of_scan? {cs rest : List Char} {p : Power} (found : scan? cs = some (p, rest)) :
    p.text ++ rest = cs := by
  unfold scan? at found
  split at found
  · simp at found
  · split at found
    · split at found <;> simpa using text_of_ofDigits? found
    · simp at found

end Power

namespace Numeral

def text (n : Numeral) : List Char :=
  n.whole ++ (n.fraction.elim [] ('.' :: ·) ++ n.power.elim [] Power.text)

def decimal (n : Numeral) : Decimal :=
  let fraction := n.fraction.getD []
  ⟨Nat.ofDigitChars 10 (n.whole ++ fraction) 0, n.power.elim 0 Power.value - fraction.length⟩

def withPower (whole : List Char) (fraction : Option (List Char)) (rest : List Char) :
    Numeral × List Char :=
  match Power.scan? rest with
  | some (power, after) => (⟨whole, fraction, some power⟩, after)
  | none => (⟨whole, fraction, none⟩, rest)

/-- The longest numeral at the front of a text. -/
def scan? (cs : List Char) : Option (Numeral × List Char) :=
  let whole := cs.takeWhile Char.isDigit
  match cs.dropWhile Char.isDigit with
  | '.' :: after =>
    let fraction := after.takeWhile Char.isDigit
    if whole = [] ∧ fraction = [] then none
    else some (withPower whole (some fraction) (after.dropWhile Char.isDigit))
  | rest => if whole = [] then none else some (withPower whole none rest)

theorem text_of_withPower (whole : List Char) (fraction : Option (List Char)) (rest : List Char) :
    (withPower whole fraction rest).1.text ++ (withPower whole fraction rest).2 =
      whole ++ (fraction.elim [] ('.' :: ·) ++ rest) := by
  unfold withPower
  split
  next power after found => simp [text, ← Power.text_of_scan? found]
  next => simp [text]

theorem text_of_scan? {cs rest : List Char} {n : Numeral} (found : scan? cs = some (n, rest)) :
    n.text ++ rest = cs := by
  have parts := List.takeWhile_append_dropWhile (p := Char.isDigit) (l := cs)
  simp only [scan?] at found
  split at found
  next after point =>
    split at found
    · simp at found
    · have joined := text_of_withPower (cs.takeWhile Char.isDigit) (some (after.takeWhile Char.isDigit))
        (after.dropWhile Char.isDigit)
      rw [Option.some.inj found] at joined
      simpa [← point] using joined
  · split at found
    · simp at found
    · have joined := text_of_withPower (cs.takeWhile Char.isDigit) none (cs.dropWhile Char.isDigit)
      rw [Option.some.inj found] at joined
      simpa using joined

private theorem text_ne_nil (whole : List Char) (fraction : Option (List Char)) (rest : List Char)
    (some_digit : whole ≠ [] ∨ fraction ≠ none) : (withPower whole fraction rest).1.text ≠ [] := by
  unfold withPower
  cases fraction <;> split <;> simp_all [text]

theorem length_lt_of_scan? {cs rest : List Char} {n : Numeral} (found : scan? cs = some (n, rest)) :
    rest.length < cs.length := by
  have taken : n.text ≠ [] := by
    simp only [scan?] at found
    split at found
    next after _ =>
      split at found
      · simp at found
      · have nonempty := text_ne_nil (cs.takeWhile Char.isDigit) (some (after.takeWhile Char.isDigit))
          (after.dropWhile Char.isDigit) (.inr (Option.some_ne_none _))
        rwa [Option.some.inj found] at nonempty
    · split at found
      · simp at found
      next nonempty =>
        have nonempty := text_ne_nil (cs.takeWhile Char.isDigit) none (cs.dropWhile Char.isDigit) (.inl nonempty)
        rwa [Option.some.inj found] at nonempty
  have positive := List.length_pos_iff.mpr taken
  have lengths := congrArg List.length (text_of_scan? found)
  rw [List.length_append] at lengths
  omega

end Numeral
end Worksheet
