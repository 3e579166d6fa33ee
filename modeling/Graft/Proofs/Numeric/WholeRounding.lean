import Graft.Proofs.Numeric.Nearest

/-!
# Whole numbers as doubles

The double nearest to a whole number is whole. It is the number with no more than 53 significant
bits that rounding the excess bits half to even leaves. A rounded number to which a little is added,
less than half of what its last bit counts, is rounded to itself.
-/

namespace Graft

theorem roundHalfEven_mul_right {factor : Nat} (positive : 0 < factor)
    (numerator denominator : Nat) :
    roundHalfEven (numerator * factor) (denominator * factor) =
      roundHalfEven numerator denominator := by
  have below : ∀ left right : Nat, 2 * (left * factor) < right * factor ↔ 2 * left < right := by
    intro left right
    rw [← Nat.mul_assoc]
    exact Nat.mul_lt_mul_right positive
  have above : ∀ left right : Nat, right * factor < 2 * (left * factor) ↔ right < 2 * left := by
    intro left right
    rw [← Nat.mul_assoc]
    exact Nat.mul_lt_mul_right positive
  simp only [roundHalfEven, Nat.mul_div_mul_right _ _ positive, Nat.mul_mod_mul_right, below, above]

theorem roundHalfEven_one (number : Nat) : roundHalfEven number 1 = number := by
  simpa using roundHalfEven_mul Nat.one_pos number

theorem div_mod_of_rest {quotient denominator rest : Nat} (rest_lt : rest < denominator) :
    (quotient * denominator + rest) / denominator = quotient ∧
      (quotient * denominator + rest) % denominator = rest := by
  rw [Nat.mul_comm, Nat.mul_add_div (by omega), Nat.mul_add_mod, Nat.div_eq_of_lt rest_lt,
    Nat.mod_eq_of_lt rest_lt]
  exact ⟨rfl, rfl⟩

namespace Binary64

/-- How many bits a number has beyond the 53 that a double keeps. -/
def excessBits (number : Nat) : Nat := Nat.log2 number - 52

/-- A number without its excess bits, rounded half to even. -/
def roundWhole (number : Nat) : Nat :=
  roundHalfEven number (2 ^ excessBits number) * 2 ^ excessBits number

/-- The significand of a number of units that is rounded. -/
theorem nearestRank_one_eq (amount : Nat) :
    nearestRank amount 1 =
      excessBits amount <<< 52 + roundHalfEven amount (2 ^ excessBits amount) := by
  rw [nearestRank, Nat.div_one, Nat.one_shiftLeft, excessBits]

theorem unitsOfRank_nearestRank (amount : Nat) :
    unitsOfRank (nearestRank amount 1) = roundWhole amount := by
  rcases quotient_bounds amount with ⟨normal, upper⟩
  rw [nearestRank_one_eq, roundWhole, ← Nat.shiftLeft_eq]
  rcases roundHalfEven_cases amount (2 ^ excessBits amount) with ⟨rounded, _⟩ | ⟨rounded, _⟩
  · rw [rounded]
    exact unitsOfRank_add normal upper.le
  · rw [rounded]
    exact unitsOfRank_add (normal.imp_right fun lower => lower.trans (Nat.le_succ _)) upper

/-- Rounding to units and rounding to whole numbers are the same for whole numbers. -/
theorem roundWhole_mul_unitsInOne (number : Nat) :
    roundWhole (number * unitsInOne) = roundWhole number * unitsInOne := by
  rcases Nat.eq_zero_or_pos number with rfl | positive
  · rw [Nat.zero_mul]
    exact (Nat.zero_mul _).symm
  · rcases unitsInOne_eq_shiftLeft with ⟨exponent, power, isExponent⟩
    have log : Nat.log2 (number * unitsInOne) = Nat.log2 number + exponent := by
      rw [power, Nat.one_shiftLeft, ← Nat.shiftLeft_eq, log2_shiftLeft positive]
    have units : unitsInOne = 2 ^ exponent := by rw [power, Nat.one_shiftLeft]
    rw [roundWhole, roundWhole, excessBits, excessBits, log, units]
    by_cases long : 52 ≤ Nat.log2 number
    · have shift : Nat.log2 number + exponent - 52 = (Nat.log2 number - 52) + exponent := by omega
      rw [shift, Nat.pow_add, roundHalfEven_mul_right (Nat.two_pow_pos exponent), Nat.mul_assoc]
    · have noShift : Nat.log2 number - 52 = 0 := by omega
      obtain ⟨spare, isSpare⟩ : ∃ spare, exponent = spare + (Nat.log2 number + exponent - 52) :=
        ⟨52 - Nat.log2 number, by omega⟩
      generalize Nat.log2 number + exponent - 52 = shift at isSpare ⊢
      rw [noShift, Nat.pow_zero, roundHalfEven_one, Nat.mul_one, isSpare, Nat.pow_add,
        ← Nat.mul_assoc, roundHalfEven_mul (Nat.two_pow_pos shift)]

theorem nearestRank_eq_iff {left right : Nat} :
    nearestRank (left * unitsInOne) 1 = nearestRank (right * unitsInOne) 1 ↔
      roundWhole left = roundWhole right := by
  rw [← strictMono_unitsOfRank.injective.eq_iff, unitsOfRank_nearestRank, unitsOfRank_nearestRank,
    roundWhole_mul_unitsInOne, roundWhole_mul_unitsInOne]
  exact Nat.mul_left_inj unitsInOne_pos.ne'

/-- Whole numbers that are rounded to the same number are read as the same double. -/
theorem ofRatio?_congr {left right : Nat} (same : roundWhole left = roundWhole right)
    (negative : Bool) : ofRatio? negative left 1 = ofRatio? negative right 1 := by
  rw [ofRatio?, ofRatio?, nearestRank_eq_iff.mpr same]

theorem units_of_ofRatio? {negative : Bool} {number : Nat} {read : Binary64}
    (isRead : ofRatio? negative number 1 = some read) :
    read.negative = negative ∧ read.units = roundWhole number * unitsInOne := by
  rw [ofRatio?, ofRank?] at isRead
  split at isRead
  case isTrue =>
    cases isRead
    refine ⟨rfl, ?_⟩
    rw [units, unitsOfRank_nearestRank, roundWhole_mul_unitsInOne]
  case isFalse => cases isRead

theorem wholeMagnitude_of_ofRatio? {negative : Bool} {number : Nat} {read : Binary64}
    (isRead : ofRatio? negative number 1 = some read) :
    read.wholeMagnitude = roundWhole number := by
  rw [wholeMagnitude, (units_of_ofRatio? isRead).2, Nat.mul_div_cancel _ unitsInOne_pos]

theorem monotone_nearestRank : Monotone fun amount => nearestRank amount 1 := by
  intro small large le
  rcases nearestRank_cases small with ⟨below, lower, upper, chosen⟩
  rcases nearestRank_cases large with ⟨below', lower', upper', chosen'⟩
  have order : below ≤ below' :=
    Nat.le_of_lt_succ (strictMono_unitsOfRank.lt_iff_lt.mp ((lower.trans le).trans_lt upper'))
  rcases Nat.lt_or_eq_of_le order with less | rfl
  · show nearestRank small 1 ≤ nearestRank large 1
    omega
  · show nearestRank small 1 ≤ nearestRank large 1
    omega

theorem monotone_roundWhole : Monotone roundWhole := by
  intro small large le
  have scaled := strictMono_unitsOfRank.monotone
    (monotone_nearestRank (Nat.mul_le_mul_right unitsInOne le))
  simp only [unitsOfRank_nearestRank, roundWhole_mul_unitsInOne] at scaled
  exact Nat.le_of_mul_le_mul_right scaled unitsInOne_pos

/-- The rank past the last finite number counts `2 ^ 1024`. -/
theorem unitsOfRank_limit : unitsOfRank (2047 <<< 52) = 2 ^ 1024 * unitsInOne := by
  rcases unitsInOne_eq_shiftLeft with ⟨exponent, power, isExponent⟩
  obtain ⟨shift, isShift⟩ : ∃ shift, shift = 2046 := ⟨_, rfl⟩
  have limit : 2047 <<< 52 = shift <<< 52 + 1 <<< 52 := by omega
  have sum : 52 + shift = 1024 + exponent := by omega
  rw [limit, unitsOfRank_significand le_rfl (by decide), power, Nat.one_shiftLeft,
    Nat.one_shiftLeft, Nat.shiftLeft_eq, ← Nat.pow_add, ← Nat.pow_add, sum]

/-- A whole number is too large for a double if it is rounded to `2 ^ 1024` or more. -/
theorem ofRatio?_eq_none_iff {negative : Bool} {number : Nat} :
    ofRatio? negative number 1 = none ↔ 2 ^ 1024 ≤ roundWhole number := by
  have finite : nearestRank (number * unitsInOne) 1 < 2047 <<< 52 ↔
      roundWhole number < 2 ^ 1024 := by
    rw [← strictMono_unitsOfRank.lt_iff_lt, unitsOfRank_nearestRank, roundWhole_mul_unitsInOne,
      unitsOfRank_limit]
    exact Nat.mul_lt_mul_right unitsInOne_pos
  rw [ofRatio?, ofRank?, ← Nat.not_lt, ← finite]
  split
  case isTrue small => exact iff_of_false (Option.some_ne_none _) (not_not_intro small)
  case isFalse large => exact iff_of_true rfl large

/-- The nearest double of a whole number that is not too large is spelled in full. -/
theorem keyText_of_ofRatio? {number : Nat} {read : Binary64}
    (isRead : ofRatio? false number 1 = some read) (small : roundWhole number < Nat.pow 10 21) :
    read.keyText = Nat.toDigits 10 (roundWhole number) := by
  rcases units_of_ofRatio? isRead with ⟨sign, units⟩
  exact keyText_of_units sign units small

/-- A number with a significand of 53 bits in front of some excess bits. -/
theorem excessBits_of_significand {significand bits rest : Nat} (lower : 2 ^ 52 ≤ significand)
    (upper : significand < 2 ^ 53) (rest_lt : rest < 2 ^ bits) :
    excessBits (significand * 2 ^ bits + rest) = bits := by
  have least : 2 ^ (52 + bits) ≤ significand * 2 ^ bits + rest := by
    rw [Nat.pow_add]
    exact (Nat.mul_le_mul_right _ lower).trans (Nat.le_add_right _ _)
  have past : significand * 2 ^ bits + rest < 2 ^ (52 + bits + 1) := by
    calc significand * 2 ^ bits + rest < significand * 2 ^ bits + 2 ^ bits := by omega
      _ = (significand + 1) * 2 ^ bits := (Nat.succ_mul _ _).symm
      _ ≤ 2 ^ 53 * 2 ^ bits := Nat.mul_le_mul_right _ upper
      _ = 2 ^ (52 + bits + 1) := by rw [← Nat.pow_add]; congr 1; omega
  have nonzero : significand * 2 ^ bits + rest ≠ 0 := by
    have := Nat.two_pow_pos (52 + bits)
    omega
  rw [excessBits, (Nat.log2_eq_iff nonzero).mpr ⟨least, past⟩, Nat.add_sub_cancel_left]

theorem roundWhole_of_rest {significand bits rest : Nat} (lower : 2 ^ 52 ≤ significand)
    (upper : significand < 2 ^ 53) (rest_lt : rest < 2 ^ bits) :
    roundWhole (significand * 2 ^ bits + rest) =
      (if 2 * rest < 2 ^ bits then significand
        else if 2 ^ bits < 2 * rest then significand + 1
        else significand + significand % 2) * 2 ^ bits := by
  rw [roundWhole, excessBits_of_significand lower upper rest_lt]
  simp only [roundHalfEven, div_mod_of_rest rest_lt]

theorem exists_significand_of_excessBits {number : Nat} (long : excessBits number ≠ 0) :
    ∃ significand rest, number = significand * 2 ^ excessBits number + rest ∧
      2 ^ 52 ≤ significand ∧ significand < 2 ^ 53 ∧ rest < 2 ^ excessBits number := by
  rcases quotient_bounds number with ⟨normal, upper⟩
  rw [Nat.one_shiftLeft] at normal upper
  have lower := normal.resolve_left long
  exact ⟨number / 2 ^ excessBits number, number % 2 ^ excessBits number,
    (Nat.div_add_mod' _ _).symm, lower, upper, Nat.mod_lt _ (Nat.two_pow_pos _)⟩

theorem roundWhole_of_excessBits_eq_zero {number : Nat} (short : excessBits number = 0) :
    roundWhole number = number := by
  rw [roundWhole, short, Nat.pow_zero, roundHalfEven_one, Nat.mul_one]

/-- Less than half of what the last bit counts is rounded off again. -/
theorem roundWhole_of_significand {significand bits rest : Nat} (lower : 2 ^ 52 ≤ significand)
    (upper : significand ≤ 2 ^ 53) (little : 2 * rest < 2 ^ bits) :
    roundWhole (significand * 2 ^ bits + rest) = significand * 2 ^ bits := by
  rcases Nat.lt_or_eq_of_le upper with less | rfl
  · rw [roundWhole_of_rest lower less (by omega), if_pos little]
  · -- The next power of two has one more excess bit.
    have carried : 2 ^ 53 * 2 ^ bits = 2 ^ 52 * 2 ^ (bits + 1) := by
      rw [← Nat.pow_add, ← Nat.pow_add, Nat.add_comm bits, ← Nat.add_assoc]
    have less : 2 * rest < 2 ^ (bits + 1) := by
      rw [Nat.pow_succ]
      omega
    rw [carried, roundWhole_of_rest le_rfl (by decide) (by omega), if_pos less]

theorem roundWhole_two_pow (power : Nat) : roundWhole (2 ^ power) = 2 ^ power := by
  by_cases long : 52 ≤ power
  · obtain ⟨bits, rfl⟩ := Nat.exists_eq_add_of_le long
    have noRest : 2 * 0 < 2 ^ bits := Nat.two_pow_pos bits
    have rounded := roundWhole_of_significand (le_refl (2 ^ 52)) (by decide) noRest
    rwa [Nat.add_zero, ← Nat.pow_add] at rounded
  · apply roundWhole_of_excessBits_eq_zero
    rw [excessBits, Nat.log2_two_pow]
    omega

theorem two_pow_le_roundWhole {power number : Nat} (le : 2 ^ power ≤ number) :
    2 ^ power ≤ roundWhole number := by
  rw [← roundWhole_two_pow power]
  exact monotone_roundWhole le

/-- The excess bits of a number count half of what its last bit does, and that bit is even. -/
def TiesDown (number : Nat) : Prop :=
  2 * (number % 2 ^ excessBits number) = 2 ^ excessBits number ∧
    number / 2 ^ excessBits number % 2 = 0

theorem TiesDown.excessBits_ne_zero {number : Nat} (ties : TiesDown number) :
    excessBits number ≠ 0 := by
  intro short
  have half := ties.1
  rw [short, Nat.pow_zero, Nat.mod_one] at half
  cases half

theorem tiesDown_of_rest {significand bits rest : Nat} (lower : 2 ^ 52 ≤ significand)
    (upper : significand < 2 ^ 53) (rest_lt : rest < 2 ^ bits) :
    TiesDown (significand * 2 ^ bits + rest) ↔ 2 * rest = 2 ^ bits ∧ significand % 2 = 0 := by
  rw [TiesDown, excessBits_of_significand lower upper rest_lt, (div_mod_of_rest rest_lt).1,
    (div_mod_of_rest rest_lt).2]

/-- Bits that are appended to a number with excess bits are excess bits too. -/
theorem append_bits (significand bits rest width tail : Nat) :
    (significand * 2 ^ bits + rest) * 2 ^ width + tail =
      significand * 2 ^ (bits + width) + (rest * 2 ^ width + tail) := by
  rw [Nat.pow_add, Nat.add_mul, Nat.mul_assoc, Nat.add_assoc]

theorem append_rest_lt {bits rest width tail : Nat} (rest_lt : rest < 2 ^ bits)
    (tail_lt : tail < 2 ^ width) : rest * 2 ^ width + tail < 2 ^ (bits + width) := by
  rw [Nat.pow_add]
  calc rest * 2 ^ width + tail < rest * 2 ^ width + 2 ^ width := by omega
    _ = (rest + 1) * 2 ^ width := (Nat.succ_mul _ _).symm
    _ ≤ 2 ^ bits * 2 ^ width := Nat.mul_le_mul_right _ rest_lt

/-- Bits appended to a number that was rounded already are rounded off. -/
theorem roundWhole_roundWhole_append {number width tail : Nat} (long : excessBits number ≠ 0)
    (tail_lt : tail < 2 ^ width) :
    roundWhole (roundWhole number * 2 ^ width + tail) = roundWhole number * 2 ^ width := by
  rcases exists_significand_of_excessBits long with
    ⟨significand, rest, isNumber, lower, upper, rest_lt⟩
  generalize excessBits number = bits at *
  have little : 2 * tail < 2 ^ (bits + width) := by
    calc 2 * tail < 2 ^ 1 * 2 ^ width := by omega
      _ ≤ 2 ^ bits * 2 ^ width :=
        Nat.mul_le_mul_right _ (Nat.pow_le_pow_right Nat.two_pos (Nat.one_le_iff_ne_zero.mpr long))
      _ = 2 ^ (bits + width) := (Nat.pow_add _ _ _).symm
  obtain ⟨rounded, isRounded, roundedLower, roundedUpper⟩ :
      ∃ rounded, roundWhole number = rounded * 2 ^ bits ∧ 2 ^ 52 ≤ rounded ∧ rounded ≤ 2 ^ 53 := by
    rw [isNumber, roundWhole_of_rest lower upper rest_lt]
    refine ⟨_, rfl, ?_, ?_⟩ <;> split <;> (try split) <;> omega
  rw [isRounded, Nat.mul_assoc, ← Nat.pow_add,
    roundWhole_of_significand roundedLower roundedUpper little]

theorem roundWhole_roundWhole (number : Nat) :
    roundWhole (roundWhole number) = roundWhole number := by
  by_cases short : excessBits number = 0
  · rw [roundWhole_of_excessBits_eq_zero short, roundWhole_of_excessBits_eq_zero short]
  · simpa using roundWhole_roundWhole_append short (Nat.two_pow_pos 0)

/-- Bits appended to a number make no difference to its rounding, unless they tip a tie. -/
theorem roundWhole_append_iff {number width tail : Nat} (long : excessBits number ≠ 0)
    (tail_lt : tail < 2 ^ width) :
    roundWhole (number * 2 ^ width + tail) = roundWhole number * 2 ^ width ↔
      ¬(TiesDown number ∧ tail ≠ 0) := by
  rcases exists_significand_of_excessBits long with
    ⟨significand, rest, isNumber, lower, upper, rest_lt⟩
  generalize excessBits number = bits at *
  subst isNumber
  rw [tiesDown_of_rest lower upper rest_lt, append_bits, roundWhole_of_rest lower upper rest_lt,
    roundWhole_of_rest lower upper (append_rest_lt rest_lt tail_lt), Nat.mul_assoc, ← Nat.pow_add,
    Nat.mul_left_inj (Nat.two_pow_pos _).ne', Nat.pow_add]
  obtain ⟨half, isHalf⟩ : ∃ half, 2 ^ bits = 2 * half :=
    ⟨2 ^ (bits - 1), by rw [← Nat.pow_succ', Nat.succ_eq_add_one, Nat.sub_add_cancel (by omega)]⟩
  rw [isHalf, Nat.mul_assoc]
  generalize 2 ^ width = unit at *
  rcases Nat.lt_trichotomy rest half with less | rfl | more
  · have stillLess : (rest + 1) * unit ≤ half * unit := Nat.mul_le_mul_right _ less
    rw [Nat.succ_mul] at stillLess
    rw [if_pos (by omega), if_pos (by omega)]
    omega
  · rw [if_neg (by omega), if_neg (Nat.lt_irrefl (2 * rest)), if_neg (Nat.lt_irrefl (2 * rest))]
    by_cases noTail : tail = 0
    · rw [if_neg (by omega)]
      omega
    · rw [if_pos (by omega)]
      omega
  · have stillMore : (half + 1) * unit ≤ rest * unit := Nat.mul_le_mul_right _ more
    rw [Nat.succ_mul] at stillMore
    rw [if_neg (by omega), if_pos (by omega), if_neg (by omega), if_pos (by omega)]
    omega

namespace TiesDown

variable {number : Nat} (ties : TiesDown number)
include ties

theorem exists_significand :
    ∃ significand bits rest, number = significand * 2 ^ bits + rest ∧
      roundWhole number = significand * 2 ^ bits ∧ 2 ^ 52 ≤ significand ∧ significand < 2 ^ 53 ∧
      rest < 2 ^ bits := by
  rcases exists_significand_of_excessBits ties.excessBits_ne_zero with
    ⟨significand, rest, isNumber, lower, upper, rest_lt⟩
  refine ⟨significand, excessBits number, rest, isNumber, ?_, lower, upper, rest_lt⟩
  generalize excessBits number = bits at *
  subst isNumber
  rw [tiesDown_of_rest lower upper rest_lt] at ties
  rw [roundWhole_of_rest lower upper rest_lt, if_neg (by omega), if_neg (by omega), ties.2,
    Nat.add_zero]

theorem roundWhole_le : roundWhole number ≤ number := by
  rcases ties.exists_significand with ⟨significand, bits, rest, isNumber, down, _⟩
  rw [down, isNumber]
  exact Nat.le_add_right _ _

variable {width tail : Nat} (tail_lt : tail < 2 ^ width)
include tail_lt

/-- A tie that was tipped is a tie no more. -/
theorem eq_zero_of_append (stillTies : TiesDown (number * 2 ^ width + tail)) : tail = 0 := by
  rcases ties.exists_significand with ⟨significand, bits, rest, isNumber, _, lower, upper, rest_lt⟩
  subst isNumber
  rw [append_bits, tiesDown_of_rest lower upper (append_rest_lt rest_lt tail_lt)] at stillTies
  rw [tiesDown_of_rest lower upper rest_lt] at ties
  have half := stillTies.1
  rw [Nat.pow_add, ← ties.1, Nat.mul_assoc] at half
  omega

/-- Bits appended to a tie that is rounded down do not take it to the next power of two. -/
theorem two_pow_le {power : Nat} (le : 2 ^ power ≤ number * 2 ^ width + tail) :
    2 ^ power ≤ roundWhole number * 2 ^ width := by
  rcases ties.exists_significand with
    ⟨significand, bits, rest, isNumber, down, lower, upper, rest_lt⟩
  rw [isNumber, append_bits] at le
  have power_lt : power < 53 + (bits + width) := by
    apply (Nat.pow_lt_pow_iff_right Nat.one_lt_two).mp
    calc 2 ^ power ≤ significand * 2 ^ (bits + width) + (rest * 2 ^ width + tail) := le
      _ < significand * 2 ^ (bits + width) + 2 ^ (bits + width) :=
        Nat.add_lt_add_left (append_rest_lt rest_lt tail_lt) _
      _ = (significand + 1) * 2 ^ (bits + width) := (Nat.succ_mul _ _).symm
      _ ≤ 2 ^ 53 * 2 ^ (bits + width) := Nat.mul_le_mul_right _ upper
      _ = 2 ^ (53 + (bits + width)) := (Nat.pow_add _ _ _).symm
  calc 2 ^ power ≤ 2 ^ (52 + (bits + width)) := Nat.pow_le_pow_right Nat.two_pos (by omega)
    _ = 2 ^ 52 * 2 ^ (bits + width) := Nat.pow_add _ _ _
    _ ≤ significand * 2 ^ (bits + width) := Nat.mul_le_mul_right _ lower
    _ = roundWhole number * 2 ^ width := by rw [down, Nat.pow_add, Nat.mul_assoc]

end TiesDown

end Binary64

end Graft
