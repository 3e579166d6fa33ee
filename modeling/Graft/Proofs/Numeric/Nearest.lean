import Graft.Proofs.Numeric.Whole
import Mathlib.Algebra.Order.Field.Basic
import Mathlib.Algebra.Order.Field.Rat
import Mathlib.Data.Int.Cast.Lemmas

/-!
# Rounding to the nearest double

The magnitudes of the doubles grow with their ranks, so a magnitude that is no double lies between
two doubles of neighbouring ranks, one of which is even. `nearestRank` takes the nearer of them, or
the even one if both are equally near. Hence the double that an integer is rounded to is nearer to
it than every other double, and two doubles are the same number exactly if their exact values are
equal.
-/

namespace Graft.Binary64

/-- A significand stands for itself below the first binade, and from then on if it has 53 bits. The
next power of two may also be written as a significand. -/
theorem unitsOfRank_add {shift significand : Nat} (normal : shift = 0 ∨ 1 <<< 52 ≤ significand)
    (upper : significand ≤ 1 <<< 53) :
    unitsOfRank (shift <<< 52 + significand) = significand <<< shift := by
  by_cases isPower : significand = 1 <<< 53
  · have carried : shift <<< 52 + significand = (shift + 1) <<< 52 + 1 <<< 52 := by omega
    rw [carried, unitsOfRank_significand le_rfl (by omega), isPower, Nat.add_comm shift,
      Nat.shiftLeft_add]
    rfl
  · by_cases low : significand < 1 <<< 52
    · rcases normal with rfl | highBit
      · have noBinade : (0 <<< 52 + significand) >>> 52 = 0 := by omega
        have fraction : (0 <<< 52 + significand) % 1 <<< 52 = significand := by
          rw [Nat.one_shiftLeft]
          omega
        simp only [unitsOfRank, noBinade, if_true, fraction, Nat.shiftLeft_zero]
      · omega
    · exact unitsOfRank_significand (by omega) (by omega)

theorem exists_significand (rank : Nat) :
    ∃ shift significand, rank = shift <<< 52 + significand ∧
      (shift = 0 ∨ 1 <<< 52 ≤ significand) ∧ significand < 1 <<< 53 := by
  by_cases low : rank < 1 <<< 53
  · exact ⟨0, rank, by omega, Or.inl rfl, low⟩
  · refine ⟨rank >>> 52 - 1, rank % 2 ^ 52 + 2 ^ 52, ?_, Or.inr ?_, ?_⟩
    · omega
    · omega
    · omega

theorem strictMono_unitsOfRank : StrictMono unitsOfRank := by
  apply strictMono_nat_of_lt_succ
  intro rank
  rcases exists_significand rank with ⟨shift, significand, rfl, normal, upper⟩
  have nextNormal : shift = 0 ∨ 1 <<< 52 ≤ significand + 1 := by omega
  rw [unitsOfRank_add normal (by omega), Nat.add_assoc, unitsOfRank_add nextNormal (by omega)]
  exact shiftLeft_lt_shiftLeft (Nat.lt_succ_self significand) shift

theorem unitsOfRank_zero : unitsOfRank 0 = 0 := rfl

theorem roundHalfEven_cases (numerator denominator : Nat) :
    (roundHalfEven numerator denominator = numerator / denominator ∧
        (2 * (numerator % denominator) < denominator ∨
          2 * (numerator % denominator) = denominator ∧ numerator / denominator % 2 = 0)) ∨
      roundHalfEven numerator denominator = numerator / denominator + 1 ∧
        (denominator < 2 * (numerator % denominator) ∨
          2 * (numerator % denominator) = denominator ∧ numerator / denominator % 2 = 1) := by
  simp only [roundHalfEven]
  split
  · omega
  · split
    · omega
    · omega

/-- Rounding keeps 53 bits of a magnitude, or all of it if it has fewer. -/
theorem quotient_bounds (amount : Nat) :
    (Nat.log2 amount - 52 = 0 ∨ 1 <<< 52 ≤ amount / 2 ^ (Nat.log2 amount - 52)) ∧
      amount / 2 ^ (Nat.log2 amount - 52) < 1 <<< 53 := by
  constructor
  · by_cases short : Nat.log2 amount ≤ 52
    · left
      omega
    · right
      have nonzero : amount ≠ 0 := by
        rintro rfl
        exact short (by decide)
      have least := Nat.log2_self_le nonzero
      rw [Nat.one_shiftLeft, Nat.le_div_iff_mul_le (Nat.two_pow_pos _), ← Nat.pow_add]
      rwa [Nat.add_sub_cancel' (by omega)]
  · have past : amount < 2 ^ (Nat.log2 amount + 1) := Nat.lt_log2_self
    rw [Nat.one_shiftLeft, Nat.div_lt_iff_lt_mul (Nat.two_pow_pos _), ← Nat.pow_add]
    exact past.trans_le (Nat.pow_le_pow_right Nat.two_pos (by omega))

/-- A magnitude lies between the doubles of two neighbouring ranks, and is rounded to the nearer
one. Of two that are equally near it takes the even one. -/
theorem nearestRank_cases (amount : Nat) :
    ∃ below, unitsOfRank below ≤ amount ∧ amount < unitsOfRank (below + 1) ∧
      ((nearestRank amount 1 = below ∧
          (2 * amount < unitsOfRank below + unitsOfRank (below + 1) ∨
            2 * amount = unitsOfRank below + unitsOfRank (below + 1) ∧ below % 2 = 0)) ∨
        nearestRank amount 1 = below + 1 ∧
          (unitsOfRank below + unitsOfRank (below + 1) < 2 * amount ∨
            2 * amount = unitsOfRank below + unitsOfRank (below + 1) ∧ below % 2 = 1)) := by
  generalize isShift : Nat.log2 amount - 52 = shift
  rcases quotient_bounds amount with ⟨normal, upper⟩
  rw [isShift] at normal upper
  have rounded : nearestRank amount 1 = shift <<< 52 + roundHalfEven amount (2 ^ shift) := by
    rw [nearestRank, Nat.div_one, isShift, Nat.one_shiftLeft]
  have split_amount := Nat.div_add_mod amount (2 ^ shift)
  have rest_lt := Nat.mod_lt amount (Nat.two_pow_pos shift)
  have decided := roundHalfEven_cases amount (2 ^ shift)
  rw [rounded]
  generalize amount / 2 ^ shift = significand at *
  have nextNormal : shift = 0 ∨ 1 <<< 52 ≤ significand + 1 := by omega
  refine ⟨shift <<< 52 + significand, ?_⟩
  rw [Nat.add_assoc, unitsOfRank_add normal (by omega), unitsOfRank_add nextNormal (by omega),
    Nat.shiftLeft_eq, Nat.shiftLeft_eq _ shift, Nat.add_mul, Nat.one_mul,
    Nat.mul_comm significand]
  generalize 2 ^ shift * significand = floor at *
  have parity : (shift <<< 52 + significand) % 2 = significand % 2 := by omega
  rw [parity]
  omega

/-- Every other rank is farther from the magnitude, or as near and odd while the chosen one is
even. -/
theorem nearestRank_nearest (amount : Nat) {rank : Nat} (differs : rank ≠ nearestRank amount 1) :
    ((unitsOfRank (nearestRank amount 1) : Int) - amount).natAbs <
        ((unitsOfRank rank : Int) - amount).natAbs ∨
      ((unitsOfRank (nearestRank amount 1) : Int) - amount).natAbs =
          ((unitsOfRank rank : Int) - amount).natAbs ∧
        nearestRank amount 1 % 2 = 0 ∧ rank % 2 = 1 := by
  rcases nearestRank_cases amount with ⟨below, lower, upper, chosen⟩
  have far : rank < below ∧ unitsOfRank rank < unitsOfRank below ∨ rank = below ∨
      rank = below + 1 ∨ below + 1 < rank ∧ unitsOfRank (below + 1) < unitsOfRank rank := by
    rcases Nat.lt_trichotomy rank below with less | same | more
    · exact Or.inl ⟨less, strictMono_unitsOfRank less⟩
    · exact Or.inr (Or.inl same)
    · rcases Nat.lt_or_eq_of_le (Nat.succ_le_of_lt more) with beyond | next
      · exact Or.inr (Or.inr (Or.inr ⟨beyond, strictMono_unitsOfRank beyond⟩))
      · exact Or.inr (Or.inr (Or.inl next.symm))
  rcases chosen with ⟨isLower, nearer⟩ | ⟨isUpper, nearer⟩
  · rw [isLower] at differs ⊢
    rcases far with ⟨_, less⟩ | rfl | rfl | ⟨_, more⟩
    · omega
    · exact absurd rfl differs
    · omega
    · omega
  · rw [isUpper] at differs ⊢
    rcases far with ⟨_, less⟩ | rfl | rfl | ⟨_, more⟩
    · omega
    · omega
    · exact absurd rfl differs
    · omega

/-- The number in units of `2 ^ -1074`. -/
def signedUnits (number : Binary64) : Int :=
  if number.negative then -(number.units : Int) else number.units

/-- The exact value of a number. -/
def value (number : Binary64) : ℚ := number.signedUnits / unitsInOne

/-- Nearer to a value than all other numbers, or as near and even while the other one is odd. -/
def IsNearest (number : Binary64) (exact : ℚ) : Prop :=
  ∀ other : Binary64, other.value ≠ number.value →
    |number.value - exact| < |other.value - exact| ∨
      |number.value - exact| = |other.value - exact| ∧ number.rank % 2 = 0 ∧ other.rank % 2 = 1

theorem unitsInOne_pos_rat : (0 : ℚ) < unitsInOne := Nat.cast_pos.mpr unitsInOne_pos

theorem value_eq_iff {left right : Binary64} :
    left.value = right.value ↔ left.signedUnits = right.signedUnits := by
  rw [value, value, div_left_inj' unitsInOne_pos_rat.ne', Int.cast_inj]

theorem value_eq_intCast_iff {number : Binary64} {whole : Int} :
    number.value = whole ↔ number.signedUnits = whole * unitsInOne := by
  rw [value, div_eq_iff unitsInOne_pos_rat.ne']
  norm_cast

theorem abs_value_sub (number : Binary64) (whole : Int) :
    |number.value - whole| =
      (number.signedUnits - whole * unitsInOne).natAbs / (unitsInOne : ℚ) := by
  have common : number.value - whole =
      ((number.signedUnits - whole * unitsInOne : Int) : ℚ) / unitsInOne := by
    rw [value]
    push_cast
    rw [sub_div, mul_div_cancel_right₀ _ unitsInOne_pos_rat.ne']
  rw [common, abs_div, abs_of_pos unitsInOne_pos_rat, Nat.cast_natAbs, Int.cast_abs]

theorem units_eq_zero_iff (number : Binary64) : number.units = 0 ↔ number.rank = 0 :=
  strictMono_unitsOfRank.injective.eq_iff' unitsOfRank_zero

theorem signedUnits_eq_iff {left right : Binary64} :
    left.signedUnits = right.signedUnits ↔
      left.rank = right.rank ∧ (left.negative = right.negative ∨ left.rank = 0) := by
  have sameUnits : left.units = right.units ↔ left.rank = right.rank :=
    strictMono_unitsOfRank.injective.eq_iff
  rw [← sameUnits, ← left.units_eq_zero_iff]
  rcases leftSign : left.negative with _ | _ <;> rcases rightSign : right.negative with _ | _ <;>
    simp only [signedUnits, leftSign, rightSign] <;> grind

/-- Two numbers compare as the same number exactly if their exact values are equal. -/
theorem sameValue_iff {left right : Binary64} :
    left.sameValue right ↔ left.value = right.value := by
  rw [value_eq_iff, signedUnits_eq_iff, sameValue]
  simp

theorem rank_eq_of_value_eq {left right : Binary64} (same : left.value = right.value) :
    left.rank = right.rank :=
  (signedUnits_eq_iff.mp (value_eq_iff.mp same)).1

theorem isNearest_of_value_eq {number : Binary64} {exact : ℚ} (same : number.value = exact) :
    number.IsNearest exact := by
  intro other differs
  left
  rw [same, sub_self, abs_zero, abs_pos, sub_ne_zero, ← same]
  exact differs

theorem IsNearest.value_eq {left right : Binary64} {exact : ℚ} (leftNearest : left.IsNearest exact)
    (rightNearest : right.IsNearest exact) : left.value = right.value := by
  by_contra differs
  rcases leftNearest right (Ne.symm differs) with nearer | ⟨asNear, _, odd⟩
  · rcases rightNearest left differs with farther | ⟨asNear, _, _⟩
    · exact lt_asymm nearer farther
    · exact nearer.ne' asNear
  · rcases rightNearest left differs with nearer | ⟨_, even, _⟩
    · exact nearer.ne' asNear
    · omega

theorem IsNearest.congr {left right : Binary64} {exact : ℚ} (nearest : left.IsNearest exact)
    (same : left.value = right.value) : right.IsNearest exact := by
  intro other differs
  rw [← same] at differs ⊢
  rw [← rank_eq_of_value_eq same]
  exact nearest other differs

theorem ofInt?_eq_some_iff {whole : Int} {number : Binary64} :
    ofInt? whole = some number ↔
      number.negative = decide (whole < 0) ∧
        number.rank = nearestRank (whole.natAbs * unitsInOne) 1 := by
  rw [ofInt?, ofRatio?, ofRank?]
  split
  case isTrue finite =>
    rcases number with ⟨negative, rank, rank_lt⟩
    simp [eq_comm]
  case isFalse infinite =>
    simp only [reduceCtorEq, false_iff, not_and]
    intro _ isRank
    exact infinite (isRank ▸ number.rank_lt)

theorem mul_unitsInOne (whole : Int) :
    whole * unitsInOne = if whole < 0 then -((whole.natAbs * unitsInOne : Nat) : Int)
      else (whole.natAbs * unitsInOne : Nat) := by
  push_cast
  split
  · rw [abs_of_neg (by assumption), Int.neg_mul, Int.neg_neg]
  · rw [abs_of_nonneg (by omega)]

/-- The distance from an integer, both taken as magnitudes if the signs are the same. -/
theorem natAbs_signedUnits_sub (number : Binary64) (whole : Int) :
    (number.signedUnits - whole * unitsInOne).natAbs =
      if number.negative = decide (whole < 0) then
        ((number.units : Int) - (whole.natAbs * unitsInOne : Nat)).natAbs
      else number.units + whole.natAbs * unitsInOne := by
  rw [mul_unitsInOne]
  generalize whole.natAbs * unitsInOne = amount
  rcases sign : number.negative with _ | _ <;> by_cases negative : whole < 0 <;>
    simp [signedUnits, sign, negative] <;> omega

/-- An integer is rounded to the nearest double. -/
theorem isNearest_of_ofInt? {whole : Int} {number : Binary64}
    (rounded : ofInt? whole = some number) : number.IsNearest whole := by
  rcases ofInt?_eq_some_iff.mp rounded with ⟨sign, isRank⟩
  intro other differs
  have differ : ¬other.signedUnits = number.signedUnits := mt value_eq_iff.mpr differs
  rw [signedUnits_eq_iff, not_and_or, not_or] at differ
  rw [abs_value_sub, abs_value_sub, div_lt_div_iff_of_pos_right unitsInOne_pos_rat,
    div_left_inj' unitsInOne_pos_rat.ne', Nat.cast_lt, Nat.cast_inj, natAbs_signedUnits_sub,
    natAbs_signedUnits_sub, if_pos sign]
  generalize whole.natAbs * unitsInOne = amount at *
  have nearest := @nearestRank_nearest amount
  rw [← isRank] at nearest
  by_cases sameSign : other.negative = decide (whole < 0)
  · rw [if_pos sameSign]
    apply nearest
    rcases differ with otherRank | ⟨otherSign, _⟩
    · exact otherRank
    · exact absurd (sameSign.trans sign.symm) otherSign
  · -- A number of the other sign is at least as far as zero is.
    rw [if_neg sameSign]
    left
    by_cases isZero : number.rank = 0
    · have otherRank : other.rank ≠ 0 := by
        rcases differ with otherRank | ⟨_, otherRank⟩
        · rwa [isZero] at otherRank
        · exact otherRank
      have noUnits := number.units_eq_zero_iff.mpr isZero
      have otherUnits := mt other.units_eq_zero_iff.mp otherRank
      omega
    · have nearerThanZero := nearest (Ne.symm isZero)
      rw [unitsOfRank_zero] at nearerThanZero
      rw [units]
      omega

/-- An integer of at most 64 bits is not too large for a double. -/
theorem exists_ofInt? {whole : Int} (small : whole.natAbs ≤ 2 ^ 64) :
    ∃ number, ofInt? whole = some number := by
  rcases unitsInOne_eq_shiftLeft with ⟨exponent, power, isExponent⟩
  obtain ⟨shift, isShift⟩ : ∃ shift, shift = 2045 := ⟨_, rfl⟩
  have finite : nearestRank (whole.natAbs * unitsInOne) 1 < 2047 <<< 52 := by
    rcases nearestRank_cases (whole.natAbs * unitsInOne) with ⟨below, lower, _, chosen⟩
    have lessThan : whole.natAbs * unitsInOne < unitsOfRank (shift <<< 52 + 1 <<< 52) := by
      rw [unitsOfRank_add (Or.inr le_rfl) (by omega), power, Nat.one_shiftLeft, Nat.one_shiftLeft,
        Nat.shiftLeft_eq, ← Nat.pow_add]
      calc whole.natAbs * 2 ^ exponent ≤ 2 ^ 64 * 2 ^ exponent := Nat.mul_le_mul_right _ small
        _ = 2 ^ (64 + exponent) := (Nat.pow_add 2 64 exponent).symm
        _ < 2 ^ (52 + shift) := Nat.pow_lt_pow_right (by decide) (by omega)
    have below_lt := strictMono_unitsOfRank.lt_iff_lt.mp (lower.trans_lt lessThan)
    omega
  exact ⟨⟨whole < 0, _, finite⟩, ofInt?_eq_some_iff.mpr ⟨rfl, rfl⟩⟩

end Graft.Binary64
