import Graft.Numeric.Literal
import Graft.Path.NumberKey

/-!
# Small whole numbers are exact

A whole number below `2 ^ 53` is a double, so nothing is rounded when it is read, and the key that
the double spells is the decimal form of the number.
-/

namespace Graft

theorem roundHalfEven_mul {denominator : Nat} (positive : 0 < denominator) (quotient : Nat) :
    roundHalfEven (quotient * denominator) denominator = quotient := by
  simp [roundHalfEven, Nat.mul_div_cancel _ positive, positive]

namespace Binary64

/-- One is a power of two units; the exponent is kept a variable, so that the power is not
computed. -/
theorem unitsInOne_eq_shiftLeft : ∃ exponent, unitsInOne = 1 <<< exponent ∧ exponent = 1074 :=
  ⟨1074, unitsInOne.eq_1, rfl⟩

theorem unitsInOne_pos : 0 < unitsInOne := by
  rcases unitsInOne_eq_shiftLeft with ⟨exponent, power, _⟩
  rw [power]
  exact Nat.shiftLeft_pos_iff.mpr Nat.one_pos

theorem log2_shiftLeft {number : Nat} (positive : 0 < number) (exponent : Nat) :
    Nat.log2 (number <<< exponent) = Nat.log2 number + exponent := by
  induction exponent with
  | zero => rfl
  | succ exponent ih =>
      have nonzero : number <<< exponent ≠ 0 := by
        apply Nat.ne_of_gt
        exact Nat.shiftLeft_pos_iff.mpr positive
      rw [Nat.shiftLeft_succ, Nat.log2_two_mul nonzero, ih, Nat.add_assoc]

theorem log2_bounds {number : Nat} (positive : 0 < number) :
    1 <<< Nat.log2 number ≤ number ∧ number < 1 <<< (Nat.log2 number + 1) := by
  simp only [Nat.one_shiftLeft]
  exact (Nat.log2_eq_iff (Nat.ne_of_gt positive)).mp rfl

theorem shiftLeft_le_shiftLeft {left right : Nat} (le : left ≤ right) (shift : Nat) :
    left <<< shift ≤ right <<< shift := by
  simp only [Nat.shiftLeft_eq]
  exact Nat.mul_le_mul_right _ le

theorem shiftLeft_lt_shiftLeft {left right : Nat} (lt : left < right) (shift : Nat) :
    left <<< shift < right <<< shift := by
  simp only [Nat.shiftLeft_eq]
  exact Nat.mul_lt_mul_of_pos_right lt (Nat.two_pow_pos shift)

/-- A number whose significand has 53 bits is a grid point: the rank counts binades by `shift`. -/
theorem unitsOfRank_significand {shift significand : Nat} (lower : 1 <<< 52 ≤ significand)
    (upper : significand < 1 <<< 53) :
    unitsOfRank (shift <<< 52 + significand) = significand <<< shift := by
  have binade : (shift <<< 52 + significand) >>> 52 = shift + 1 := by omega
  have fraction : (shift <<< 52 + significand) % (1 <<< 52) = significand - 1 <<< 52 := by
    simp only [Nat.one_shiftLeft]
    omega
  simp only [unitsOfRank, binade, fraction]
  rw [if_neg (Nat.succ_ne_zero shift), Nat.add_sub_cancel' lower, Nat.add_sub_cancel]

theorem significand_bounds {number : Nat} (positive : 0 < number) (small : number < 1 <<< 53) :
    Nat.log2 number ≤ 52 ∧ 1 <<< 52 ≤ number <<< (52 - Nat.log2 number) ∧
      number <<< (52 - Nat.log2 number) < 1 <<< 53 := by
  have log_le : Nat.log2 number ≤ 52 := by
    rw [Nat.one_shiftLeft] at small
    exact Nat.le_of_lt_succ ((Nat.log2_lt (Nat.ne_of_gt positive)).mpr small)
  rcases log2_bounds positive with ⟨lower, upper⟩
  have least : (1 <<< Nat.log2 number) <<< (52 - Nat.log2 number) = 1 <<< 52 := by
    rw [← Nat.shiftLeft_add, Nat.add_sub_cancel' log_le]
  have past : (1 <<< (Nat.log2 number + 1)) <<< (52 - Nat.log2 number) = 1 <<< 53 := by
    rw [← Nat.shiftLeft_add, Nat.add_right_comm, Nat.add_sub_cancel' log_le]
  refine ⟨log_le, ?_, ?_⟩
  · rw [← least]
    exact shiftLeft_le_shiftLeft lower _
  · rw [← past]
    exact shiftLeft_lt_shiftLeft upper _

theorem ofRatio?_whole (negative : Bool) {number : Nat} (small : number < 1 <<< 53) :
    ∃ read, ofRatio? negative number 1 = some read ∧ read.negative = negative ∧
      read.units = number * unitsInOne := by
  rcases Nat.eq_zero_or_pos number with zero | positive
  · subst zero
    have rank : nearestRank (0 * unitsInOne) 1 = 0 := by
      rw [Nat.zero_mul]
      decide
    refine ⟨⟨negative, 0, by decide⟩, ?_, rfl, ?_⟩
    · rw [ofRatio?, rank]
      rfl
    · simp [units, unitsOfRank]
  · rcases significand_bounds positive small with ⟨log_le, lower, upper⟩
    rcases unitsInOne_eq_shiftLeft with ⟨exponent, power, exponent_eq⟩
    have sum : 52 - Nat.log2 number + (Nat.log2 number + 1022) = exponent := by omega
    have scaled : number * unitsInOne = number <<< exponent := by
      rw [power, Nat.one_shiftLeft, Nat.shiftLeft_eq]
    have shift : Nat.log2 (number <<< exponent / 1) - 52 = Nat.log2 number + 1022 := by
      rw [Nat.div_one, log2_shiftLeft positive]
      omega
    have rounded :
        roundHalfEven (number <<< exponent) (1 <<< (Nat.log2 number + 1022)) =
          number <<< (52 - Nat.log2 number) := by
      rw [← sum, Nat.shiftLeft_add, Nat.one_shiftLeft, Nat.shiftLeft_eq _ (Nat.log2 number + 1022)]
      exact roundHalfEven_mul (Nat.two_pow_pos _) _
    have rank : nearestRank (number * unitsInOne) 1 =
        (Nat.log2 number + 1022) <<< 52 + number <<< (52 - Nat.log2 number) := by
      simp only [nearestRank, scaled, shift, rounded]
    have finite : nearestRank (number * unitsInOne) 1 < 2047 <<< 52 := by
      rw [rank]
      omega
    refine ⟨⟨negative, _, finite⟩, ?_, rfl, ?_⟩
    · rw [ofRatio?, ofRank?, dif_pos finite]
    · simp only [units, rank]
      rw [unitsOfRank_significand lower upper, ← Nat.shiftLeft_add, sum, scaled]

theorem keyText_of_units {read : Binary64} {number : Nat} (sign : read.negative = false)
    (units : read.units = number * unitsInOne) (small : number < Nat.pow 10 21) :
    read.keyText = Nat.toDigits 10 number := by
  have whole : read.isWhole := by
    rw [isWhole, units, Nat.mul_mod_left]
    rfl
  have magnitude : read.wholeMagnitude = number := by
    rw [wholeMagnitude, units, Nat.mul_div_cancel _ unitsInOne_pos]
  have writtenOut : read.isWhole ∧ read.wholeMagnitude < Nat.pow 10 21 := by
    rw [magnitude]
    exact ⟨whole, small⟩
  have unsigned : ¬(read.negative ∧ number ≠ 0) := by
    rw [sign]
    rintro ⟨impossible, _⟩
    cases impossible
  rw [keyText, if_pos writtenOut]
  simp only [magnitude]
  rw [if_neg unsigned, List.nil_append]

end Binary64

/-- The digits of a whole number below `2 ^ 53` are read as a literal that spells its decimal
form. -/
theorem literalKey_whole {digits : List Char} (small : Nat.ofDigitChars 10 digits 0 < 1 <<< 53) :
    literalKey (DecimalLiteral.toBinary64? false ⟨digits, [], 0⟩) =
      String.ofList (Nat.toDigits 10 (Nat.ofDigitChars 10 digits 0)) := by
  generalize value : Nat.ofDigitChars 10 digits 0 = number at small
  have below : number < Nat.pow 10 21 := Nat.lt_trans small (by decide)
  have wholeDigits : DecimalLiteral.digits ⟨digits, [], 0⟩ = number := by
    simp [DecimalLiteral.digits, value]
  simp only [DecimalLiteral.toBinary64?, wholeDigits, List.length_nil]
  by_cases zero : number = 0
  · have direct : Binary64.ofDecimal? false number (0 - ((0 : Nat) : Int)) =
        some (Binary64.zero false) := by
      simp [Binary64.ofDecimal?, zero]
    have units : (Binary64.zero false).units = number * Binary64.unitsInOne := by
      rw [zero, Nat.zero_mul]
      rfl
    rw [direct]
    exact congrArg String.ofList (Binary64.keyText_of_units rfl units below)
  · rcases Binary64.ofRatio?_whole false small with ⟨read, isRead, sign, units⟩
    have direct : Binary64.ofDecimal? false number (0 - ((0 : Nat) : Int)) = some read := by
      simpa [Binary64.ofDecimal?, zero] using isRead
    rw [direct]
    exact congrArg String.ofList (Binary64.keyText_of_units sign units below)

end Graft
