import Mathlib
import Worksheet.Proofs.NumeralSpelling

/-! A finite number is written with digits, at most one point and at most a minus sign, and it is read
back as the same number, bit for bit. The digits may stand before any text that does not go on
with a digit, a point or a power. -/

namespace Worksheet

namespace Magnitude

theorem units_ne_zero {size : Nat} (positive : size ≠ 0) : units size ≠ 0 := by
  have leading : significand size ≠ 0 := by
    unfold significand
    split
    · exact positive
    · have := Nat.two_pow_pos 52
      simp only [Nat.pow_eq]
      omega
  exact Nat.mul_ne_zero leading (Nat.two_pow_pos _).ne'

theorem toFloat_ofFloat (x : Float) : toFloat (isNegative x) (ofFloat x) = x := by
  have bits : UInt64.ofNat (if isNegative x then Nat.pow 2 63 + ofFloat x else ofFloat x) = x.toBits := by
    have bound := x.toBits.toNat_lt
    apply UInt64.toNat_inj.mp
    unfold isNegative ofFloat
    simp only [Nat.pow_eq, decide_eq_true_eq, UInt64.toNat_ofNat']
    split <;> omega
  rw [toFloat, bits, Float.ofBits_toBits]

/-- A number keeps its bits, unless it is none: all that are none have the same bits. -/
theorem toBitVec_toBits (bits : UInt64) : (Float.ofBits bits).toBits.toBitVec =
    if @Float.Model.UnpackedFloat.isNaNBits .binary64 bits.toBitVec then Float.Model.UnpackedFloat.packedNaN .binary64
    else bits.toBitVec :=
  @Float.Model.UnpackedFloat.pack_unpack .binary64 bits.toBitVec (by decide)

/-- What is read without a sign is not negative, nor is the one number that is none. -/
theorem isNegative_toFloat_false {size : Nat} (small : size < Nat.pow 2 63) : isNegative (toFloat false size) = false := by
  have canonical : (toFloat false size).toBits.toBitVec = _ := toBitVec_toBits (.ofNat size)
  have bound : (toFloat false size).toBits.toBitVec.toNat < Nat.pow 2 63 := by
    rw [canonical]
    split
    · decide
    · rw [UInt64.toNat_toBitVec, UInt64.toNat_ofNat']
      exact Nat.lt_of_le_of_lt (Nat.mod_le _ _) small
  rw [UInt64.toNat_toBitVec] at bound
  simpa [isNegative] using bound

end Magnitude

namespace Decimal

theorem magnitude_of_bounds {coefficient : Nat} {exponent : Int} (nonzero : coefficient ≠ 0) (low : exponent ≤ 400)
    (high : -400 ≤ exponent + coefficient.log2 + 1) : magnitude ⟨coefficient, exponent⟩ =
      Magnitude.nearest (coefficient * Nat.pow 10 exponent.toNat) (Nat.pow 10 (-exponent).toNat) := by
  unfold magnitude
  simp only
  rw [if_neg nonzero, if_neg (by omega), if_neg (by omega)]

theorem magnitude_fives {size k : Nat} {exponent : Int} (finite : size < Magnitude.infinity) (positive : size ≠ 0)
    (scale : Magnitude.one = Nat.pow 2 k) (places : exponent = -k) (many : 400 ≤ k) :
    magnitude ⟨Magnitude.units size * Nat.pow 5 k, exponent⟩ = size := by
  subst places
  have units := Magnitude.units_ne_zero positive
  have nonzero : Magnitude.units size * Nat.pow 5 k ≠ 0 := Nat.mul_ne_zero units (Nat.pow_pos (by decide)).ne'
  have large : 2 * k ≤ (Magnitude.units size * Nat.pow 5 k).log2 := by
    apply (Nat.le_log2 nonzero).mpr
    calc
      2 ^ (2 * k) = 4 ^ k := Nat.pow_mul 2 2 k
      _ ≤ 5 ^ k := Nat.pow_le_pow_left (by decide) k
      _ ≤ Magnitude.units size * Nat.pow 5 k := Nat.le_mul_of_pos_left _ (Nat.pos_of_ne_zero units)
  rw [magnitude_of_bounds nonzero (by omega) (by omega)]
  apply Magnitude.nearest_of_units finite (Nat.pow_pos (by decide))
  simp only [scale, Int.toNat_neg_natCast, Int.neg_neg, Int.toNat_natCast, Nat.pow_eq, Nat.pow_zero, Nat.mul_one]
  rw [Nat.mul_assoc, ← Nat.mul_pow]

theorem magnitude_le_infinity (d : Decimal) : d.magnitude ≤ Magnitude.infinity := by
  unfold magnitude
  split
  · exact Nat.zero_le _
  · split
    · exact Nat.le_refl _
    · split
      · exact Nat.zero_le _
      · exact Magnitude.nearest_le_infinity _ _

theorem magnitude_exact {size : Nat} (finite : size < Magnitude.infinity) (positive : size ≠ 0) :
    (exact size).magnitude = size := by
  unfold exact
  have scale : ∃ k, Magnitude.one = Nat.pow 2 k ∧ k = 1074 := by
    unfold Magnitude.one
    exact ⟨_, rfl, rfl⟩
  obtain ⟨k, scale, same⟩ := scale
  rw [← same]
  exact magnitude_fives finite positive scale (by omega) (by omega)

theorem magnitude_shortest {size : Nat} (finite : size < Magnitude.infinity) (positive : size ≠ 0) :
    (shortest size).magnitude = size := by
  unfold shortest
  cases found : (List.range 18).findSome? fun digits : Nat => nearestMultiple? size (decade size - digits) with
  | none => exact magnitude_exact finite positive
  | some d =>
    obtain ⟨digits, _, multiple⟩ := List.exists_of_findSome?_eq_some found
    exact magnitude_of_nearestMultiple? multiple

def scaled (d : Decimal) : Decimal := ⟨d.coefficient * Nat.pow 10 d.exponent.toNat, -((-d.exponent).toNat : Int)⟩

theorem magnitude_scaled {d : Decimal} (finite : d.magnitude < Magnitude.infinity) : d.scaled.magnitude = d.magnitude := by
  obtain ⟨coefficient, exponent⟩ := d
  by_cases whole : 0 < exponent
  · have places : (-exponent).toNat = 0 := by omega
    by_cases zero : coefficient = 0
    · simp [scaled, magnitude, zero]
    · have low : exponent ≤ 400 := by
        apply Int.not_lt.mp
        intro high
        simp [magnitude, zero, high] at finite
      have power : coefficient * Nat.pow 10 exponent.toNat ≠ 0 := Nat.mul_ne_zero zero (Nat.pow_pos (by decide)).ne'
      rw [scaled, magnitude_of_bounds power (by omega) (by dsimp only; omega), magnitude_of_bounds zero low (by omega)]
      simp [places]
  · have fraction : exponent.toNat = 0 := by omega
    have same : -((-exponent).toNat : Int) = exponent := by omega
    simp only [scaled, fraction, same, Nat.pow_eq, Nat.pow_zero, Nat.mul_one]

end Decimal

namespace Numeral

/-- Digits, perhaps with a point between two of them. -/
structure Plain (n : Numeral) : Prop where
  filled : n.whole ≠ []
  whole : ∀ c ∈ n.whole, c.isDigit = true
  fraction : ∀ digits, n.fraction = some digits → ∀ c ∈ digits, c.isDigit = true
  power : n.power = none

theorem Plain.head {n : Numeral} (plain : n.Plain) : ∃ first rest, n.text = first :: rest ∧ first.isDigit = true := by
  obtain ⟨first, rest, whole⟩ := List.exists_cons_of_ne_nil plain.filled
  exact ⟨first, _, by rw [text, whole]; rfl, plain.whole first (by simp [whole])⟩

theorem Plain.regular {n : Numeral} (plain : n.Plain) : n.Regular :=
  ⟨plain.whole, plain.fraction, Or.inl plain.filled, by simp [plain.power]⟩

end Numeral

theorem Decimal.exists_numeral (d : Decimal) : ∃ n : Numeral, n.Plain ∧ n.text = d.positional ∧ n.decimal = d.scaled := by
  obtain ⟨coefficient, exponent⟩ := d
  unfold positional scaled
  generalize coefficient * Nat.pow 10 exponent.toNat = value
  generalize (-exponent).toNat = places
  have digit {c : Char} : c ∈ Nat.toDigits 10 value → c.isDigit = true := Nat.isDigit_of_mem_toDigits (by decide) (by decide)
  by_cases integral : places = 0
  · refine ⟨⟨Nat.toDigits 10 value, none, none⟩, ⟨Nat.toDigits_ne_nil, fun _ => digit, nofun, rfl⟩, ?_, ?_⟩
    · simp [integral, Numeral.text]
    · simp [integral, Numeral.decimal, Nat.ofDigitChars_ten_toDigits]
  · simp only [integral, if_false]
    generalize padding : List.replicate (places + 1 - (Nat.toDigits 10 value).length) '0' ++ Nat.toDigits 10 value = padded
    have long : places < padded.length := by
      rw [← padding, List.length_append, List.length_replicate]
      omega
    have digits {c : Char} (member : c ∈ padded) : c.isDigit = true := by
      rw [← padding, List.mem_append] at member
      rcases member with zero | member
      · rw [List.eq_of_mem_replicate zero]
        rfl
      · exact digit member
    have same : Nat.ofDigitChars 10 padded 0 = value := by
      rw [← padding, Nat.ofDigitChars_append, Nat.ofDigitChars_replicate_zero, Nat.mul_zero, Nat.ofDigitChars_ten_toDigits]
    refine ⟨⟨padded.take (padded.length - places), some (padded.drop (padded.length - places)), none⟩,
      ⟨?_, ?_, ?_, rfl⟩, ?_, ?_⟩
    · rw [ne_eq, ← List.length_eq_zero_iff, List.length_take]
      omega
    · exact fun c member => digits (List.mem_of_mem_take member)
    · rintro _ ⟨⟩ c member
      exact digits (List.mem_of_mem_drop member)
    · simp [Numeral.text]
    · simp only [Numeral.decimal, Option.getD_some, List.take_append_drop, same, Option.elim_none, List.length_drop]
      congr 1
      omega

namespace Number

theorem ofFloat_lt_of_isFinite {x : Float} (finite : isFinite x = true) : Magnitude.ofFloat x < Magnitude.infinity := by
  simpa [isFinite] using finite

theorem isNegative_ofDecimal (d : Decimal) : Magnitude.isNegative (ofDecimal false d) = false :=
  Magnitude.isNegative_toFloat_false (Nat.lt_of_le_of_lt d.magnitude_le_infinity (by decide))

theorem exists_numeral {size : Nat} (finite : size < Magnitude.infinity) :
    ∃ n : Numeral, n.Plain ∧ n.text = digits size ∧ n.decimal.magnitude = size := by
  by_cases zero : size = 0
  · refine ⟨⟨['0'], none, none⟩, ⟨by simp, by simp, nofun, rfl⟩, by simp [Numeral.text, digits, zero], ?_⟩
    simp [Numeral.decimal, Decimal.magnitude, Nat.ofDigitChars_cons, zero]
  · have shortest := Decimal.magnitude_shortest finite zero
    obtain ⟨n, plain, text, value⟩ := (Decimal.shortest size).exists_numeral
    refine ⟨n, plain, by simp [text, digits, zero, finite], ?_⟩
    rw [value, Decimal.magnitude_scaled (by rwa [shortest]), shortest]

theorem read?_write {x : Float} (finite : isFinite x = true) : read? (write x) = some x := by
  have size := ofFloat_lt_of_isFinite finite
  obtain ⟨n, plain, text, value⟩ := exists_numeral size
  have whole (negative : Bool) : readUnsigned? negative (digits (Magnitude.ofFloat x)) =
      some (Magnitude.toFloat negative (Magnitude.ofFloat x)) := by
    rw [← text, readUnsigned?_text plain.regular, ofDecimal, value]
  unfold write
  simp only [Nat.not_lt.mpr size.le, if_false]
  have known := Magnitude.toFloat_ofFloat x
  split
  next negative =>
    rw [negative] at known
    change readUnsigned? true _ = _
    rw [whole, known]
  next positive =>
    rw [Bool.not_eq_true] at positive
    rw [positive] at known
    obtain ⟨first, rest, head, digit⟩ := plain.head
    rw [← text, read?]
    · rw [text, whole, known]
    all_goals
      intro rest signed
      rw [head] at signed
      rw [(List.cons.inj signed).1] at digit
      cases digit

end Number
end Worksheet
