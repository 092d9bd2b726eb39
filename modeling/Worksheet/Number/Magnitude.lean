/-! The size of a binary64 number, as the number that its bits spell without the sign bit.
Sizes in this sense grow with the value, start at zero and end at infinity, so rounding a
quotient to the nearest double is rounding it to the nearest of an initial segment of the
naturals. Values are counted in units of the least positive double, which is `2 ^ (-1074)`. -/

namespace Worksheet.Magnitude

/-- Infinity comes right after the finite magnitudes, and everything above it is not a number. -/
def infinity : Nat := 2047 * Nat.pow 2 52

def one : Nat := Nat.pow 2 1074

/-- The 53 bits that carry the value; the leading one is written in the bits only as a nonzero
exponent. -/
def significand (size : Nat) : Nat :=
  if size < Nat.pow 2 52 then size else Nat.pow 2 52 + size % Nat.pow 2 52

/-- How often the unit has doubled. Subnormal numbers and the first normal ones share the
least unit. -/
def doublings (size : Nat) : Nat := size / Nat.pow 2 52 - 1

/-- The value of a finite magnitude in units of `2 ^ (-1074)`. -/
def units (size : Nat) : Nat := significand size * Nat.pow 2 (doublings size)

/-- The nearest whole number to a quotient; of two equally near ones the even one. -/
def roundDiv (num den : Nat) : Nat :=
  let floor := num / den
  let twice := 2 * (num % den)
  if twice < den then floor else if den < twice then floor + 1 else floor + floor % 2

/-- The magnitude nearest to `num / den`. The quotient keeps 53 bits, or fewer where the least
unit ends first; a carry out of the significand lands in the exponent, which is what the
bits of the next magnitude say. -/
def nearest (num den : Nat) : Nat :=
  let scaled := num * one
  let shift := (scaled / den).log2 - 52
  min infinity (shift * Nat.pow 2 52 + roundDiv scaled (den * Nat.pow 2 shift))

def ofFloat (x : Float) : Nat := x.toBits.toNat % Nat.pow 2 63

def isNegative (x : Float) : Bool := Nat.pow 2 63 ≤ x.toBits.toNat

def toFloat (negative : Bool) (size : Nat) : Float :=
  .ofBits (.ofNat (if negative then Nat.pow 2 63 + size else size))

theorem nearest_le_infinity (num den : Nat) : nearest num den ≤ infinity := Nat.min_le_left _ _

private theorem log2_eq {n k : Nat} (lo : Nat.pow 2 k ≤ n) (hi : n < Nat.pow 2 (k + 1)) : n.log2 = k := by
  simp only [Nat.pow_eq] at lo hi
  have pos : n ≠ 0 := by have := Nat.two_pow_pos k; omega
  have a := (Nat.log2_lt pos).mpr hi
  have b : ¬ n.log2 < k := fun h => by have := (Nat.log2_lt pos).mp h; omega
  omega

/-- Rounding is exact where it can be: the value of a finite magnitude rounds to that magnitude. -/
theorem nearest_of_units {size num den : Nat} (finite : size < infinity) (positive : 0 < den)
    (exactly : num * one = units size * den) : nearest num den = size := by
  have shift : (units size).log2 - 52 = doublings size := by
    unfold units significand
    simp only [Nat.pow_eq]
    split
    next small =>
      have : doublings size = 0 := by unfold doublings; simp only [Nat.pow_eq]; omega
      rw [this]
      by_cases zero : size = 0
      · simp [zero]
      · have := (Nat.log2_lt zero).mpr (show size < 2 ^ 53 by omega)
        simp; omega
    next large =>
      have m : size % 2 ^ 52 < 2 ^ 52 := Nat.mod_lt _ (by decide)
      rw [@log2_eq _ (52 + doublings size) ?_ ?_]
      · omega
      · simp only [Nat.pow_eq]
        rw [Nat.pow_add]
        exact Nat.mul_le_mul_right _ (by omega)
      · simp only [Nat.pow_eq]
        have : 2 ^ (52 + doublings size + 1) = 2 ^ 53 * 2 ^ doublings size := by
          rw [← Nat.pow_add, show 52 + doublings size + 1 = 53 + doublings size by omega]
        rw [this]
        exact Nat.mul_lt_mul_of_pos_right (by omega) (Nat.two_pow_pos _)
  unfold nearest
  generalize one = k at exactly ⊢
  simp only [exactly, Nat.mul_div_cancel _ positive, shift, Nat.pow_eq]
  have round : roundDiv (units size * den) (den * 2 ^ doublings size) = significand size := by
    have : units size * den = significand size * (den * 2 ^ doublings size) := by
      unfold units; simp only [Nat.pow_eq]; rw [Nat.mul_assoc, Nat.mul_comm (2 ^ _)]
    have pos : 0 < den * 2 ^ doublings size := Nat.mul_pos positive (Nat.two_pow_pos _)
    simp [roundDiv, this, Nat.mul_div_cancel _ pos, Nat.mul_mod_left, pos]
  rw [round]
  have index : doublings size * 2 ^ 52 + significand size = size := by
    unfold doublings significand
    simp only [Nat.pow_eq]
    split <;> omega
  rw [index]
  exact Nat.min_eq_right (Nat.le_of_lt finite)

end Worksheet.Magnitude
