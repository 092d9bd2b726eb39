import Worksheet.Number.Magnitude

/-! Decimal numbers as a coefficient and a power of ten, the double nearest to each, and for each
double the decimal of fewest digits that reads back as it. The search tests every candidate
with the reading function itself, and ends with the exact value, which always reads back. -/

namespace Worksheet

structure Decimal where
  coefficient : Nat
  exponent : Int
deriving DecidableEq

namespace Decimal

/-- The magnitude nearest to a decimal. A power of ten far outside the range is not computed:
above `10 ^ 400` nothing is finite, and a value below `10 ^ (-400)` is nearer to zero than to
the least positive double. -/
def magnitude (d : Decimal) : Nat :=
  if d.coefficient = 0 then 0
  else if 400 < d.exponent then Magnitude.infinity
  else if d.exponent + d.coefficient.log2 + 1 < -400 then 0
  else Magnitude.nearest (d.coefficient * Nat.pow 10 d.exponent.toNat) (Nat.pow 10 (-d.exponent).toNat)

def exact (size : Nat) : Decimal := ⟨Magnitude.units size * Nat.pow 5 1074, -1074⟩

def belowPower (size : Nat) (exponent : Int) : Bool :=
  Magnitude.units size * Nat.pow 10 (-exponent).toNat < Magnitude.one * Nat.pow 10 exponent.toNat

/-- The least power of ten above the value of a positive magnitude. The binary logarithm leaves
three powers to try. -/
def decade (size : Nat) : Int :=
  let low := ((Magnitude.units size).log2 - 1074 : Int) * 30103 / 100000
  if belowPower size low then low else if belowPower size (low + 1) then low + 1 else low + 2

/-- The multiple of `10 ^ exponent` that reads back as a magnitude. Only the two neighbours of
the value are candidates; if both read back, the nearer is taken, and the upper one if they
are equally near. -/
def nearestMultiple? (size : Nat) (exponent : Int) : Option Decimal :=
  let num := Magnitude.units size * Nat.pow 10 (-exponent).toNat
  let den := Magnitude.one * Nat.pow 10 exponent.toNat
  let lower : Decimal := ⟨num / den, exponent⟩
  let upper : Decimal := ⟨num / den + 1, exponent⟩
  if lower.magnitude = size then
    if upper.magnitude = size ∧ den ≤ 2 * (num % den) then some upper else some lower
  else if upper.magnitude = size then some upper
  else none

/-- The decimal with the fewest digits that reads back as a positive finite magnitude. -/
def shortest (size : Nat) : Decimal :=
  ((List.range 18).findSome? fun (digits : Nat) => nearestMultiple? size (decade size - digits)).getD (exact size)

/-- All digits of a decimal without an exponent: zeros fill up whole numbers, and a point
stands only before a fraction, with at least one digit on its left. -/
def positional (d : Decimal) : List Char :=
  let digits := Nat.toDigits 10 (d.coefficient * Nat.pow 10 d.exponent.toNat)
  let places := (-d.exponent).toNat
  if places = 0 then digits
  else
    let padded := List.replicate (places + 1 - digits.length) '0' ++ digits
    let whole := padded.length - places
    padded.take whole ++ '.' :: padded.drop whole

theorem magnitude_of_nearestMultiple? {size : Nat} {exponent : Int} {d : Decimal}
    (found : nearestMultiple? size exponent = some d) : d.magnitude = size := by
  simp only [nearestMultiple?] at found
  split at found
  next low => split at found <;> simp_all
  next => split at found <;> simp_all

end Decimal
end Worksheet
