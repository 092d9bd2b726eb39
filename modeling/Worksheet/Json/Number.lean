import Worksheet.Json.Scan
import Worksheet.Number.Text

/-! Numbers in JSON text. No document wants one, so they are only read past, in values that
nobody asks for, or noticed in the place of something else. -/

namespace Worksheet.Json

/-- Digits, at least one. The fault of a text that ends here is given. -/
def readDigits (atEnd : Fault) (cs : List Char) : Except Fault (List Char × Rest cs) :=
  match cs with
  | [] => .error atEnd
  | c :: rest =>
    if c.isDigit then
      .ok (c :: rest.takeWhile Char.isDigit,
        ⟨rest.dropWhile Char.isDigit, Nat.lt_succ_of_le (List.dropWhile_suffix _).length_le⟩)
    else .error .malformed

def readSignedDigits (atEnd : Fault) (cs : List Char) : Except Fault ((Option Char × List Char) × Rest cs) :=
  match cs with
  | [] => .error atEnd
  | c :: rest =>
    if c = '+' ∨ c = '-' then do
      let (digits, after) ← readDigits atEnd rest
      return ((some c, digits), after.behind)
    else do
      let (digits, after) ← readDigits atEnd (c :: rest)
      return ((none, digits), after)

/-- The power of ten at the end of a number, if the text goes on with one. -/
def readPower (atEnd : Fault) (cs : List Char) :
    Except Fault (Option Power × { rest : List Char // rest.length ≤ cs.length }) :=
  match cs with
  | [] => .ok (none, ⟨[], Nat.le_refl _⟩)
  | c :: rest =>
    if c = 'e' ∨ c = 'E' then do
      let ((sign, digits), after) ← readSignedDigits atEnd rest
      return (some ⟨c, sign, digits⟩, ⟨after.val, after.le_cons⟩)
    else .ok (none, ⟨c :: rest, Nat.le_refl _⟩)

/-- A number after its sign. No digit may follow a leading zero, and a point stands between
digits. -/
def readNumber (atEnd : Fault) (cs : List Char) : Except Fault (Numeral × Rest cs) := do
  let (whole, rest) ← readDigits atEnd cs
  if whole.length ≠ 1 ∧ whole.head? = some '0' then .error .malformed
  else
    match pointed : rest.val with
    | '.' :: after => do
      let (fraction, afterFraction) ← readDigits atEnd after
      let (power, final) ← readPower atEnd afterFraction.val
      return (⟨whole, some fraction, power⟩, ⟨final.val, by
        have lengths := rest.property
        rw [pointed, List.length_cons] at lengths
        exact Nat.lt_of_le_of_lt final.property
          (Nat.lt_trans afterFraction.property (Nat.lt_of_succ_lt lengths))⟩)
    | _ => do
      let (power, final) ← readPower atEnd rest.val
      return (⟨whole, none, power⟩, ⟨final.val, Nat.lt_of_le_of_lt final.property rest.property⟩)

/-- Extends a number by digits as long as it fits 64 bits. -/
def takeDigits (kept : Nat) : List Char → Nat × List Char
  | [] => (kept, [])
  | c :: rest =>
    let next := kept * 10 + (c.toNat - '0'.toNat)
    if next < Nat.pow 2 64 then takeDigits next rest else (kept, c :: rest)

/-- Whether a number exceeds the doubles. Its value is the product of two doubles: the leading
digits that 64 bits can hold, and the power of ten that puts them in their place. -/
def isTooLarge (n : Numeral) : Bool :=
  let fraction := n.fraction.getD []
  let (leading, droppedWhole) := takeDigits 0 n.whole
  let (digits, dropped) := takeDigits leading fraction
  let exponent := n.power.elim 0 Power.value + droppedWhole.length - (fraction.length - dropped.length : Nat)
  if digits = 0 ∨ exponent < 0 then false
  else if 308 < exponent then true
  else
    let product := Number.ofDecimal false ⟨digits, 0⟩ * Number.ofDecimal false ⟨1, exponent⟩
    !Number.isFinite product

end Worksheet.Json
