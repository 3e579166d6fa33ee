import Graft.Json.FloatReader
import Graft.Proofs.Numeric.Decimals

/-!
# Literals read without exact arithmetic

Digits that make a number below `2 ^ 53` are a double as they stand, and so are the powers of ten up
to `10 ^ 22`. A literal of such digits and such a power is read with one product or quotient of
doubles, which is rounded once. So it is read as the nearest double, without exact arithmetic.
-/

namespace Graft

/-- Whether the digits of a literal, and the power of ten that they count, are doubles as they
stand. -/
def DecimalLiteral.IsShort (literal : DecimalLiteral) : Prop :=
  literal.digits < 2 ^ 53 ∧ (literal.exponent - literal.fraction.length).natAbs ≤ 22

namespace Json

theorem le_ofDigitChars (digits : List Char) (number : Nat) :
    number ≤ Nat.ofDigitChars 10 digits number := by
  induction digits generalizing number with
  | nil => exact Nat.le_refl number
  | cons digit rest ih =>
      rw [Nat.ofDigitChars_cons]
      exact le_trans (by omega) (ih _)

theorem appendFitting_of_lt {digits : List Char} {number : Nat}
    (fits : Nat.ofDigitChars 10 digits number < UInt64.size) :
    appendFitting number digits = (Nat.ofDigitChars 10 digits number, []) := by
  induction digits generalizing number with
  | nil => rfl
  | cons digit rest ih =>
      rw [Nat.ofDigitChars_cons, Nat.mul_comm] at fits ⊢
      have extended_lt := (le_ofDigitChars rest _).trans_lt fits
      rw [appendFitting, if_pos extended_lt, ih fits]

theorem leadingDigits_of_lt {literal : DecimalLiteral} (fits : literal.digits < UInt64.size) :
    leadingDigits literal = (literal.digits, literal.exponent - literal.fraction.length) := by
  rw [DecimalLiteral.digits, Nat.ofDigitChars_append] at fits ⊢
  have front := appendFitting_of_lt ((le_ofDigitChars literal.fraction _).trans_lt fits)
  simp [leadingDigits, front, appendFitting_of_lt fits]

section Exact

open Binary64

variable {left right magnitude : Binary64} {number other digits : Nat}

/-- The product of two whole numbers is rounded once. -/
theorem product?_eq (leftUnits : left.units = number * unitsInOne)
    (rightUnits : right.units = other * unitsInOne) :
    product? left right = ofRatio? false (number * other) 1 := by
  have scaled := nearestRank_mul_right (Nat.mul_pos unitsInOne_pos unitsInOne_pos)
    (number * other * unitsInOne) 1
  rw [Nat.one_mul] at scaled
  rw [product?, ofRatio?, ofRatio?, leftUnits, rightUnits, Nat.mul_mul_mul_comm,
    Nat.mul_right_comm, scaled]

/-- The quotient of two whole numbers is rounded once. -/
theorem quotient?_eq (leftUnits : left.units = number * unitsInOne)
    (rightUnits : right.units = other * unitsInOne) :
    quotient? left right = ofRatio? false number other := by
  rw [quotient?, ofRatio?, ofRatio?, leftUnits, rightUnits, nearestRank_mul_right unitsInOne_pos]

theorem exists_powerOfTen? {power : Nat} (small : power ≤ 22) :
    ∃ double, powerOfTen? power = some double ∧ double.units = 10 ^ power * unitsInOne := by
  have exact : ∀ power ≤ 22, roundWhole (10 ^ power) = 10 ^ power := by decide +kernel
  have isRatio : powerOfTen? power = ofRatio? false (10 ^ power) 1 := by
    rw [powerOfTen?, ofDecimal?_natCast, Nat.one_mul]
  rw [isRatio]
  rcases isRead : ofRatio? false (10 ^ power) 1 with _ | double
  · rw [ofRatio?_eq_none_iff, exact power small] at isRead
    have bounded : 10 ^ power ≤ 10 ^ 22 := Nat.pow_le_pow_right (by decide) small
    exact absurd (isRead.trans bounded) (by decide +kernel)
  · refine ⟨double, rfl, ?_⟩
    rw [(units_of_ofRatio? isRead).2, exact power small]

theorem eq_zero_of_rank_eq_zero (unsigned : magnitude.negative = false)
    (isZero : magnitude.rank = 0) : magnitude = zero false := by
  cases magnitude
  cases unsigned
  cases isZero
  rfl

/-- Scaling up is one product. -/
theorem scale?_natCast {zeros : Nat} (unsigned : magnitude.negative = false)
    (units : magnitude.units = digits * unitsInOne) (small : zeros ≤ 22) :
    scale? magnitude zeros = ofDecimal? false digits zeros := by
  rcases exists_powerOfTen? small with ⟨power, isPower, powerUnits⟩
  have inRange : ¬((greatestPower : Int) < zeros) := by
    rw [greatestPower]
    omega
  rw [ofDecimal?_natCast, scale?, if_pos (Int.natCast_nonneg zeros), if_neg inRange,
    Int.toNat_natCast, isPower, Option.bind_some, product?_eq units powerUnits]
  split
  case isTrue isZero =>
    have noUnits : digits * unitsInOne = 0 := by rw [← units, units_eq_zero_iff, isZero]
    have noDigits : digits = 0 := (Nat.mul_eq_zero.mp noUnits).resolve_right unitsInOne_pos.ne'
    rw [eq_zero_of_rank_eq_zero unsigned isZero, noDigits, Nat.zero_mul,
      ofRatio?_zero false Nat.one_pos]
  case isFalse => rfl

/-- Scaling down is one quotient. -/
theorem scale?_neg_natCast {places : Nat} (units : magnitude.units = digits * unitsInOne)
    (positive : 0 < places) (small : places ≤ 22) :
    scale? magnitude (-places) = ofDecimal? false digits (-places) := by
  rcases exists_powerOfTen? small with ⟨power, isPower, powerUnits⟩
  have once : (places - 1) / greatestPower = 0 := Nat.div_eq_of_lt (by rw [greatestPower]; omega)
  rw [ofDecimal?_neg_natCast, ← quotient?_eq units powerUnits, scale?, if_neg (by omega)]
  dsimp only [bind]
  -- Rewritten step by step: to compare the sides by evaluation would compute with doubles.
  rw [Int.natAbs_neg, Int.natAbs_natCast, once, Nat.zero_mul, Nat.sub_zero, divideDown,
    Option.bind_some, isPower, Option.bind_some]

end Exact

/-- A short literal is read as the nearest double. -/
theorem bestEffort_of_isShort {literal : DecimalLiteral} (short : literal.IsShort) :
    bestEffort literal = literal.toBinary64? false := by
  rcases short with ⟨digits_lt, small⟩
  have fits : literal.digits < UInt64.size := digits_lt.trans (by decide)
  rcases Binary64.ofRatio?_whole false digits_lt with ⟨magnitude, isRead, unsigned, units⟩
  rw [bestEffort, leadingDigits_of_lt fits, DecimalLiteral.toBinary64?]
  dsimp only [bind]
  rw [isRead, Option.bind_some]
  generalize literal.exponent - literal.fraction.length = exponent at small
  by_cases upwards : 0 ≤ exponent
  · obtain ⟨zeros, rfl⟩ := Int.eq_ofNat_of_zero_le upwards
    exact scale?_natCast unsigned units small
  · obtain ⟨places, rfl⟩ := Int.exists_eq_neg_ofNat (Int.not_le.mp upwards).le
    rw [Int.natAbs_neg] at small
    exact scale?_neg_natCast units (by omega) small

-- One power of ten further the nearest double can be missed.
example : bestEffort ⟨['3'], [], 23⟩ ≠ DecimalLiteral.toBinary64? false ⟨['3'], [], 23⟩ := by
  decide +kernel

end Json

end Graft
