import Graft.Numeric.Literal
import Graft.Numeric.Shortest
import Graft.Proofs.Numeric.WholeRounding

/-!
# Decimals as doubles

A decimal is read as the double nearest to it. Exponents that decide the answer on their own are
settled without a power of ten, and this makes no difference. The shortest decimal of a double is
read as the double again.
-/

namespace Graft

namespace Binary64

theorem nearestRank_mul_right {factor : Nat} (positive : 0 < factor) (numerator denominator : Nat) :
    nearestRank (numerator * factor) (denominator * factor) =
      nearestRank numerator denominator := by
  have shifted : ∀ shift, (denominator * factor) <<< shift = denominator <<< shift * factor := by
    intro shift
    rw [Nat.shiftLeft_eq, Nat.shiftLeft_eq, Nat.mul_right_comm]
  rw [nearestRank, nearestRank, Nat.mul_div_mul_right _ _ positive, shifted,
    roundHalfEven_mul_right positive]

/-- The magnitude of a double is rounded to the double. -/
theorem nearestRank_unitsOfRank (rank : Nat) : nearestRank (unitsOfRank rank) 1 = rank := by
  rcases nearestRank_cases (unitsOfRank rank) with ⟨below, lower, upper, chosen⟩
  have atLeast := strictMono_unitsOfRank.le_iff_le.mp lower
  have lessThan := strictMono_unitsOfRank.lt_iff_lt.mp upper
  obtain rfl : below = rank := by omega
  omega

/-- A whole number is the double nearest to itself. -/
theorem ofRatio?_of_units {number : Binary64} {whole : Nat}
    (units : number.units = whole * unitsInOne) :
    ofRatio? number.negative whole 1 = some number := by
  rw [ofRatio?, ← units, Binary64.units, nearestRank_unitsOfRank, ofRank?, dif_pos number.rank_lt]

/-- Less than half of a unit is rounded to nothing. -/
theorem nearestRank_eq_zero {numerator denominator : Nat} (small : 2 * numerator < denominator) :
    nearestRank numerator denominator = 0 := by
  have less : numerator < denominator := by omega
  have noShift : Nat.log2 0 - 52 = 0 := by decide
  have rounded : roundHalfEven numerator denominator = 0 := by
    simp only [roundHalfEven, Nat.mod_eq_of_lt less, Nat.div_eq_of_lt less, if_pos small]
  rw [nearestRank, Nat.div_eq_of_lt less, noShift, Nat.shiftLeft_zero, rounded]
  rfl

theorem ofRatio?_zero (negative : Bool) {denominator : Nat} (positive : 0 < denominator) :
    ofRatio? negative 0 denominator = some (zero negative) := by
  have isZero : nearestRank (0 * unitsInOne) denominator = 0 := by
    apply nearestRank_eq_zero
    omega
  rw [ofRatio?, isZero]
  rfl

/-- Sixty-two places stand for more than two hundred and five bits. -/
theorem two_pow_le_ten_pow {bits places : Nat} (enough : 62 * bits ≤ 205 * places) :
    2 ^ bits ≤ 10 ^ places := by
  apply (Nat.pow_le_pow_iff_left (n := 62) (by decide)).mp
  calc (2 ^ bits) ^ 62 = 2 ^ (62 * bits) := by rw [← Nat.pow_mul, Nat.mul_comm]
    _ ≤ 2 ^ (205 * places) := Nat.pow_le_pow_right Nat.two_pos enough
    _ = (2 ^ 205) ^ places := Nat.pow_mul 2 205 places
    _ ≤ (10 ^ 62) ^ places := Nat.pow_le_pow_left (by decide) places
    _ = (10 ^ places) ^ 62 := Nat.pow_right_comm 10 62 places

/-- A decimal without places behind the point is rounded as a whole number. -/
theorem ofDecimal?_natCast (negative : Bool) (digits zeros : Nat) :
    ofDecimal? negative digits zeros = ofRatio? negative (digits * 10 ^ zeros) 1 := by
  rcases Nat.eq_zero_or_pos digits with rfl | positive
  · rw [Nat.zero_mul, ofRatio?_zero negative Nat.one_pos]
    rfl
  · rw [ofDecimal?, if_neg positive.ne']
    by_cases large : 310 ≤ zeros
    · rw [if_pos (by omega), eq_comm, ofRatio?_eq_none_iff]
      apply two_pow_le_roundWhole
      exact (two_pow_le_ten_pow (by omega)).trans (Nat.le_mul_of_pos_left _ positive)
    · rw [if_neg (by omega), if_pos (Int.natCast_nonneg zeros), Int.toNat_natCast]
      rfl

/-- A decimal with places behind the point is rounded as a fraction. -/
theorem ofDecimal?_neg_natCast (negative : Bool) (digits places : Nat) :
    ofDecimal? negative digits (-places) = ofRatio? negative digits (10 ^ places) := by
  have power_pos : 0 < 10 ^ places := Nat.pow_pos (by decide)
  rcases Nat.eq_zero_or_pos digits with rfl | positive
  · rw [ofRatio?_zero negative power_pos]
    rfl
  · rcases Nat.eq_zero_or_pos places with rfl | behind
    · have whole := ofDecimal?_natCast negative digits 0
      rwa [Nat.pow_zero, Nat.mul_one] at whole
    · rw [ofDecimal?, if_neg positive.ne', if_neg (by omega), if_neg (by omega), Int.natAbs_neg,
        Int.natAbs_natCast]
      split
      case isTrue tiny =>
        -- The bits of the digits do not make up for the three bits that each place stands for.
        rcases unitsInOne_eq_shiftLeft with ⟨power, isPower, power_eq⟩
        have little : 2 * (digits * unitsInOne) < 10 ^ places := by
          calc 2 * (digits * unitsInOne) < 2 * (2 ^ (Nat.log2 digits + 1) * unitsInOne) := by
                apply Nat.mul_lt_mul_of_pos_left _ Nat.two_pos
                exact Nat.mul_lt_mul_of_pos_right Nat.lt_log2_self unitsInOne_pos
            _ = 2 ^ (Nat.log2 digits + 2 + power) := by
                rw [isPower, Nat.one_shiftLeft, ← Nat.mul_assoc, ← Nat.pow_succ', ← Nat.pow_add]
            _ ≤ 2 ^ (3 * places) := Nat.pow_le_pow_right Nat.two_pos (by omega)
            _ = 8 ^ places := Nat.pow_mul 2 3 places
            _ ≤ 10 ^ places := Nat.pow_le_pow_left (by decide) places
        rw [ofRatio?, nearestRank_eq_zero little]
        rfl
      case isFalse => rfl

/-- A decimal with nothing but zeros behind the point is rounded as the whole number. -/
theorem ofDecimal?_mul_pow (negative : Bool) (number places : Nat) :
    ofDecimal? negative (number * 10 ^ places) (-places) = ofRatio? negative number 1 := by
  have power_pos : 0 < 10 ^ places := Nat.pow_pos (by decide)
  have scaled := nearestRank_mul_right power_pos (number * unitsInOne) 1
  rw [Nat.mul_right_comm, Nat.one_mul] at scaled
  rw [ofDecimal?_neg_natCast, ofRatio?, ofRatio?, scaled]

theorem negative_of_ofRatio? {negative : Bool} {numerator denominator : Nat} {read : Binary64}
    (isRead : ofRatio? negative numerator denominator = some read) : read.negative = negative := by
  rw [ofRatio?, ofRank?] at isRead
  split at isRead <;> cases isRead
  rfl

theorem negative_of_ofDecimal? {negative : Bool} {digits : Nat} {exponent : Int} {read : Binary64}
    (isRead : ofDecimal? negative digits exponent = some read) : read.negative = negative := by
  rcases exponent.eq_nat_or_neg with ⟨places, rfl | rfl⟩
  · rw [ofDecimal?_natCast] at isRead
    exact negative_of_ofRatio? isRead
  · rw [ofDecimal?_neg_natCast] at isRead
    exact negative_of_ofRatio? isRead

end Binary64

namespace Decimal

/-- Taking off zeros keeps the magnitude. -/
theorem exists_trim (limit : Nat) (decimal : Decimal) :
    ∃ zeros : Nat, (decimal.trim limit).exponent = decimal.exponent + zeros ∧
      (decimal.trim limit).digits * 10 ^ zeros = decimal.digits := by
  induction limit generalizing decimal with
  | zero => exact ⟨0, by simp [trim], by simp [trim]⟩
  | succ limit ih =>
      rw [trim]
      split
      case isTrue trailing =>
        rcases ih ⟨decimal.digits / 10, decimal.exponent + 1⟩ with ⟨zeros, exponent, digits⟩
        refine ⟨zeros + 1, ?_, ?_⟩
        · rw [exponent]
          push_cast
          omega
        · rw [Nat.pow_succ, ← Nat.mul_assoc, digits]
          exact Nat.div_mul_cancel (Nat.dvd_of_mod_eq_zero trailing.2)
      case isFalse => exact ⟨0, by simp, by simp⟩

end Decimal

namespace Binary64

theorem onGrid?_eq_some {tie : TieRule} {number : Binary64} {dropped : Nat} {decimal : Decimal}
    (found : onGrid? tie number dropped = some decimal) :
    decimal.exponent = (dropped : Int) - 1074 ∧
      number.readsBack (decimal.digits * 10 ^ dropped) := by
  rw [onGrid?.eq_def] at found
  extract_lets step below rest nearer farther place at found
  have isStep : step = 10 ^ dropped := rfl
  have isPlace : place = (dropped : Int) - 1074 := rfl
  clear_value step nearer farther place
  subst isStep isPlace
  split at found
  case isTrue nearer =>
    cases found
    exact ⟨rfl, nearer⟩
  case isFalse =>
    split at found
    case isTrue farther =>
      cases found
      exact ⟨rfl, farther⟩
    case isFalse => cases found

theorem readsBack_decimalUnits (number : Binary64) : number.readsBack number.decimalUnits := by
  have anyScale : ∀ scale, 0 < scale → nearestRank (number.units * scale) scale = number.rank := by
    intro scale positive
    have scaled := nearestRank_mul_right positive number.units 1
    rw [Nat.one_mul] at scaled
    rw [scaled]
    exact nearestRank_unitsOfRank number.rank
  have positive : ∀ power, 0 < Nat.pow 5 power := fun power => Nat.pow_pos (by decide)
  exact decide_eq_true (anyScale _ (positive 1074))

/-- The shortest decimal is one found on a grid, or all the digits there are. -/
theorem shortest_cases (tie : TieRule) (number : Binary64) :
    number.shortest tie = ⟨number.decimalUnits, -1074⟩ ∨
      ∃ dropped decimal, onGrid? tie number dropped = some decimal ∧
        number.shortest tie = decimal.trim 17 := by
  -- Unfolding the function where it is applied would make the kernel search the grids.
  suffices general : ∀ choose, choose = shortest →
      (choose tie number = ⟨number.decimalUnits, -1074⟩ ∨
        ∃ dropped decimal, onGrid? tie number dropped = some decimal ∧
          choose tie number = decimal.trim 17) from general _ rfl
  intro choose isShortest
  delta shortest at isShortest
  subst isShortest
  dsimp only
  generalize isFound : List.findSome? _ _ = found
  rcases found with _ | decimal
  · exact Or.inl rfl
  · rcases List.exists_of_findSome?_eq_some isFound with ⟨kept, _, onGrid⟩
    exact Or.inr ⟨_, decimal, onGrid, rfl⟩

/-- The shortest decimal reads back to the number. -/
theorem exists_shortest (tie : TieRule) (number : Binary64) :
    ∃ places : Nat, (number.shortest tie).exponent = (places : Int) - 1074 ∧
      number.readsBack ((number.shortest tie).digits * 10 ^ places) := by
  rcases number.shortest_cases tie with full | ⟨dropped, decimal, onGrid, isTrimmed⟩
  · rw [full]
    refine ⟨0, rfl, ?_⟩
    rw [Nat.pow_zero, Nat.mul_one]
    exact number.readsBack_decimalUnits
  · rcases onGrid?_eq_some onGrid with ⟨exponent, reads⟩
    rcases decimal.exists_trim 17 with ⟨zeros, trimmed, digits⟩
    rw [isTrimmed]
    refine ⟨dropped + zeros, ?_, ?_⟩
    · rw [trimmed, exponent]
      push_cast
      omega
    · rw [Nat.add_comm, Nat.pow_add, ← Nat.mul_assoc, digits]
      exact reads

/-- The power of five is kept a variable, so that it is not computed. -/
theorem exists_rank_of_readsBack {number : Binary64} {amount : Nat}
    (reads : number.readsBack amount) :
    ∃ power, power = 1074 ∧ nearestRank amount (Nat.pow 5 power) = number.rank :=
  ⟨1074, rfl, of_decide_eq_true reads⟩

/-- The shortest decimal of a number is read as the number. -/
theorem ofDecimal?_shortest (tie : TieRule) (number : Binary64) :
    ofDecimal? number.negative (number.shortest tie).digits (number.shortest tie).exponent =
      some number := by
  rcases number.exists_shortest tie with ⟨places, exponent, reads⟩
  rcases exists_rank_of_readsBack reads with ⟨power, power_eq, isRank⟩
  rcases unitsInOne_eq_shiftLeft with ⟨_, isPower, rfl⟩
  rw [← power_eq] at isPower
  have tens : 10 ^ power = unitsInOne * Nat.pow 5 power := by
    rw [isPower, Nat.one_shiftLeft]
    exact Nat.mul_pow 2 5 power
  have fives_pos : 0 < Nat.pow 5 power := Nat.pow_pos (by decide)
  have finite : ofRank? number.negative number.rank = some number := dif_pos number.rank_lt
  rw [exponent, ← finite, ← isRank]
  generalize (number.shortest tie).digits = digits
  by_cases whole : power ≤ places
  · obtain ⟨zeros, rfl⟩ := Nat.exists_eq_add_of_le whole
    have isExponent : ((power + zeros : Nat) : Int) - 1074 = (zeros : Nat) := by omega
    have scaled := nearestRank_mul_right fives_pos (digits * 10 ^ zeros * unitsInOne) 1
    rw [isExponent, ofDecimal?_natCast, ofRatio?, ← scaled, Nat.one_mul, Nat.mul_assoc _ unitsInOne,
      ← tens, Nat.mul_assoc, ← Nat.pow_add, Nat.add_comm]
  · obtain ⟨behind, isBehind⟩ : ∃ behind, power = places + behind := ⟨power - places, by omega⟩
    have isExponent : (places : Int) - 1074 = -(behind : Nat) := by omega
    have scaled := nearestRank_mul_right fives_pos (digits * unitsInOne) (10 ^ behind)
    have tens_pos : 0 < 10 ^ behind := Nat.pow_pos (by decide)
    have scaled' := nearestRank_mul_right tens_pos (digits * 10 ^ places) (Nat.pow 5 power)
    rw [isExponent, ofDecimal?_neg_natCast, ofRatio?, ← scaled, ← scaled',
      Nat.mul_assoc _ unitsInOne, ← tens, Nat.mul_assoc, ← Nat.pow_add, ← isBehind,
      Nat.mul_comm (10 ^ behind)]

end Binary64

namespace DecimalLiteral

theorem toBinary64?_of_zeros (digits : List Char) {zeros : List Char}
    (areZeros : ∀ character ∈ zeros, character = '0') :
    toBinary64? false ⟨digits, zeros, 0⟩ =
      Binary64.ofRatio? false (Nat.ofDigitChars 10 digits 0) 1 := by
  have isValue : DecimalLiteral.digits ⟨digits, zeros, 0⟩ =
      Nat.ofDigitChars 10 digits 0 * 10 ^ zeros.length := by
    rw [List.eq_replicate_of_mem areZeros, DecimalLiteral.digits, Nat.ofDigitChars_append,
      Nat.ofDigitChars_replicate_zero, List.length_replicate, Nat.mul_comm]
  rw [toBinary64?, isValue, Int.zero_sub]
  exact Binary64.ofDecimal?_mul_pow _ _ _

theorem toBinary64?_of_digits (digits : List Char) :
    toBinary64? false ⟨digits, [], 0⟩ = Binary64.ofRatio? false (Nat.ofDigitChars 10 digits 0) 1 :=
  toBinary64?_of_zeros digits (List.forall_mem_nil _)

theorem digits_behind_zeros (count : Nat) (digits : List Char) :
    DecimalLiteral.digits ⟨['0'], List.replicate count '0' ++ digits, 0⟩ =
      Nat.ofDigitChars 10 digits 0 := by
  rw [DecimalLiteral.digits, ← List.append_assoc, List.singleton_append, ← List.replicate_succ,
    Nat.ofDigitChars_append, Nat.ofDigitChars_replicate_zero, Nat.mul_zero]

end DecimalLiteral

end Graft
