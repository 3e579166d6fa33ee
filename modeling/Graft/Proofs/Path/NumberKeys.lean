import Graft.Proofs.Numeric.Decimals
import Graft.Proofs.Path.Numerals
import Graft.Proofs.Path.Position

/-!
# Keys of numbers

The key that a double without a sign spells is a decimal numeral, in whichever way it is laid out,
and the numeral is read as the double. So two doubles with the same key are the same.
-/

namespace Graft

open Graft.Path Grammar

namespace Decimal

variable (decimal : Decimal)

theorem digits_digitChars : Digits decimal.digitChars :=
  fun _ inside => Nat.isDigit_of_mem_toDigits (by decide) (by decide) inside

theorem digitChars_ne_nil : decimal.digitChars ≠ [] := Nat.toDigits_ne_nil

theorem ofDigitChars_digitChars : Nat.ofDigitChars 10 decimal.digitChars 0 = decimal.digits :=
  Nat.ofDigitChars_ten_toDigits

/-- The literal of the digits with the point somewhere between them is read as the decimal. -/
theorem toBinary64?_take_drop {count : Nat} (power : Int)
    (place : power - (decimal.digitChars.drop count).length = decimal.exponent) :
    DecimalLiteral.toBinary64? false
        ⟨decimal.digitChars.take count, decimal.digitChars.drop count, power⟩ =
      Binary64.ofDecimal? false decimal.digits decimal.exponent := by
  rw [DecimalLiteral.toBinary64?, DecimalLiteral.digits, List.take_append_drop,
    decimal.ofDigitChars_digitChars, place]

theorem exponent_signed (power : Int) :
    Exponent ('e' :: (if power < 0 then '-' else '+') :: Nat.toDigits 10 power.natAbs) power := by
  have areDigits : Digits (Nat.toDigits 10 power.natAbs) :=
    fun _ inside => Nat.isDigit_of_mem_toDigits (by decide) (by decide) inside
  split
  case isTrue negative =>
    have signed := Exponent.negative (Or.inl rfl : 'e' = 'e' ∨ 'e' = 'E')
      Nat.toDigits_ne_nil areDigits
    rwa [Nat.ofDigitChars_ten_toDigits, Int.natCast_natAbs, abs_of_neg negative,
      Int.neg_neg] at signed
  case isFalse positive =>
    have signed := Exponent.positive (Or.inl rfl : 'e' = 'e' ∨ 'e' = 'E')
      (Or.inr rfl : ['+'] = [] ∨ ['+'] = ['+']) Nat.toDigits_ne_nil areDigits
    rwa [Nat.ofDigitChars_ten_toDigits, Int.natCast_natAbs, abs_of_nonneg (by omega)] at signed

/-- What is written with an exponent is a numeral for the decimal. -/
theorem exists_numeral_scientific :
    ∃ literal, DecimalNumeral decimal.scientific literal ∧
      literal.toBinary64? false = Binary64.ofDecimal? false decimal.digits decimal.exponent := by
  have leadingDigits : Digits (decimal.digitChars.take 1) :=
    fun _ inside => decimal.digits_digitChars _ (List.mem_of_mem_take inside)
  have otherDigits : Digits (decimal.digitChars.drop 1) :=
    fun _ inside => decimal.digits_digitChars _ (List.mem_of_mem_drop inside)
  have nonempty : decimal.digitChars.take 1 ≠ [] := by simp [decimal.digitChars_ne_nil]
  have noZero : NoLeadingZero (decimal.digitChars.take 1) := by
    rintro ⟨long, _⟩
    exact absurd long (Nat.not_lt.mpr (List.length_take_le 1 _))
  have place : decimal.leadingExponent - (decimal.digitChars.drop 1).length = decimal.exponent := by
    have length_pos := List.length_pos_iff.mpr decimal.digitChars_ne_nil
    rw [leadingExponent, List.length_drop]
    omega
  have isExponent := exponent_signed decimal.leadingExponent
  refine ⟨_, ?_, decimal.toBinary64?_take_drop _ place⟩
  rw [scientific]
  split
  case isTrue oneDigit =>
    rw [List.isEmpty_iff] at oneDigit
    rw [oneDigit, List.append_nil]
    exact .whole nonempty leadingDigits noZero isExponent
  case isFalse =>
    rw [List.append_assoc, List.cons_append]
    exact .point (fun both => nonempty both.1) leadingDigits noZero otherDigits isExponent

variable {decimal} (nonzero : decimal.digits ≠ 0)
include nonzero

theorem noLeadingZero_append_take (count : Nat) (zeros : List Char) :
    NoLeadingZero (decimal.digitChars.take (count + 1) ++ zeros) := by
  rcases toDigits_eq_cons_of_pos (Nat.pos_of_ne_zero nonzero) with ⟨first, rest, isDigits, notZero⟩
  rintro ⟨_, isZero⟩
  rw [digitChars, isDigits] at isZero
  exact notZero (Option.some.inj isZero)

/-- What is written out is a numeral for the decimal. -/
theorem exists_numeral_positional :
    ∃ literal, DecimalNumeral (decimal.positional []) literal ∧
      literal.toBinary64? false = Binary64.ofDecimal? false decimal.digits decimal.exponent := by
  have areDigits := decimal.digits_digitChars
  have length_pos := List.length_pos_iff.mpr decimal.digitChars_ne_nil
  have zeros : ∀ count, Digits (List.replicate count '0') := by
    intro count character inside
    rw [List.eq_of_mem_replicate inside]
    rfl
  rw [positional]
  dsimp only
  split
  case isTrue whole =>
    obtain ⟨count, isCount⟩ := Int.eq_ofNat_of_zero_le whole
    have noZero := noLeadingZero_append_take nonzero decimal.digitChars.length
      (List.replicate count '0')
    rw [List.take_of_length_le (Nat.le_succ _)] at noZero
    have numeral := DecimalNumeral.whole
      (List.append_ne_nil_of_left_ne_nil decimal.digitChars_ne_nil _)
      (List.forall_mem_append.mpr ⟨areDigits, zeros count⟩) noZero .absent
    rw [isCount, Int.toNat_natCast, List.append_nil]
    rw [List.append_nil] at numeral
    refine ⟨_, numeral, ?_⟩
    rw [DecimalLiteral.toBinary64?_of_digits, Binary64.ofDecimal?_natCast, Nat.ofDigitChars_append,
      decimal.ofDigitChars_digitChars, Nat.ofDigitChars_replicate_zero, Nat.mul_comm]
  case isFalse fractional =>
    rw [leadingExponent]
    split
    case isTrue between =>
      -- The point stands behind one of the digits.
      obtain ⟨count, isCount⟩ := Int.eq_ofNat_of_zero_le between
      have count_lt : count < decimal.digitChars.length := by omega
      have numeral := @DecimalNumeral.point (decimal.digitChars.take (count + 1))
        (decimal.digitChars.drop (count + 1)) [] 0 (by simp [decimal.digitChars_ne_nil])
        (fun _ inside => areDigits _ (List.mem_of_mem_take inside))
        (by simpa using noLeadingZero_append_take nonzero count [])
        (fun _ inside => areDigits _ (List.mem_of_mem_drop inside)) .absent
      rw [isCount, Int.toNat_natCast]
      rw [List.append_nil] at numeral
      refine ⟨_, numeral, decimal.toBinary64?_take_drop 0 ?_⟩
      rw [List.length_drop]
      omega
    case isFalse before =>
      generalize isCount :
        (decimal.exponent + ((decimal.digitChars.length : Int) - 1)).natAbs - 1 = count
      have numeral := @DecimalNumeral.point ['0'] (List.replicate count '0' ++ decimal.digitChars)
        [] 0 (by simp) (by simp [Digits]) (by simp [NoLeadingZero])
        (List.forall_mem_append.mpr ⟨zeros count, areDigits⟩) .absent
      rw [List.append_nil] at numeral
      refine ⟨_, numeral, ?_⟩
      have place : 0 - ((List.replicate count '0' ++ decimal.digitChars).length : Int) =
          decimal.exponent := by
        rw [List.length_append, List.length_replicate]
        omega
      rw [DecimalLiteral.toBinary64?, DecimalLiteral.digits_behind_zeros,
        decimal.ofDigitChars_digitChars, place]

end Decimal

namespace Binary64

variable {number : Binary64} (unsigned : number.negative = false)
include unsigned

theorem keyText_of_not_small
    (large : ¬(number.isWhole ∧ number.wholeMagnitude < Nat.pow 10 21)) :
    number.keyText =
      if -6 ≤ (number.shortest .up).leadingExponent ∧
          (number.shortest .up).leadingExponent < 21 then
        (number.shortest .up).positional []
      else (number.shortest .up).scientific := by
  have noSign : ¬(number.negative = true) := by
    rw [unsigned]
    exact Bool.false_ne_true
  rw [keyText, if_neg large]
  dsimp only
  rw [if_neg noSign, List.nil_append, List.nil_append]

/-- The key of a double is a numeral that is read as the double. -/
theorem exists_numeral_keyText :
    ∃ literal, DecimalNumeral number.keyText literal ∧
      literal.toBinary64? false = some number := by
  by_cases small : number.isWhole ∧ number.wholeMagnitude < Nat.pow 10 21
  · have units : number.units = number.wholeMagnitude * unitsInOne :=
      (Nat.div_mul_cancel (Nat.dvd_of_mod_eq_zero (of_decide_eq_true small.1))).symm
    have noZero : NoLeadingZero (Nat.toDigits 10 number.wholeMagnitude) := by
      rintro ⟨long, isZero⟩
      rcases Nat.eq_zero_or_pos number.wholeMagnitude with zero | positive
      · rw [zero] at long
        exact absurd long (by decide)
      · rcases toDigits_eq_cons_of_pos positive with ⟨first, rest, isDigits, notZero⟩
        rw [isDigits] at isZero
        exact notZero (Option.some.inj isZero)
    have numeral := DecimalNumeral.whole Nat.toDigits_ne_nil
      (fun _ inside => Nat.isDigit_of_mem_toDigits (by decide) (by decide) inside) noZero .absent
    have read := ofRatio?_of_units units
    rw [keyText_of_units unsigned units small.2]
    rw [List.append_nil] at numeral
    rw [unsigned] at read
    refine ⟨_, numeral, ?_⟩
    rw [DecimalLiteral.toBinary64?_of_digits, Nat.ofDigitChars_ten_toDigits, read]
  · have read := number.ofDecimal?_shortest .up
    rw [unsigned] at read
    have nonzero : (number.shortest .up).digits ≠ 0 := by
      intro isZero
      rw [isZero] at read
      cases read
      exact small (by decide +kernel)
    rw [keyText_of_not_small unsigned small, ← read]
    split
    case isTrue => exact Decimal.exists_numeral_positional nonzero
    case isFalse => exact Decimal.exists_numeral_scientific _

theorem readDecimal_keyText : readDecimal number.keyText = .ok (some number, []) := by
  rcases exists_numeral_keyText unsigned with ⟨literal, numeral, isRead⟩
  have read : readDecimal (number.keyText ++ []) = .ok (literal.toBinary64? false, []) :=
    numeral.readDecimal (by simp [EndsIdentifier]) (by simp)
  rwa [List.append_nil, isRead] at read

end Binary64

/-- Two literals without a sign stand for the same key just if they are read as the same double, or
are both too large. -/
theorem literalKey_inj {left right : Option Binary64}
    (leftUnsigned : ∀ number, left = some number → number.negative = false)
    (rightUnsigned : ∀ number, right = some number → number.negative = false) :
    literalKey left = literalKey right ↔ left = right := by
  have noNumeral : ∀ {number : Binary64}, number.negative = false →
      String.ofList number.keyText ≠ "Infinity" := by
    intro number unsigned same
    have read := Binary64.readDecimal_keyText unsigned
    rw [← String.toList_ofList (l := number.keyText), same] at read
    have refused : (readDecimal "Infinity".toList).isOk = false := by decide +kernel
    rw [read] at refused
    cases refused
  refine ⟨fun same => ?_, congrArg literalKey⟩
  cases left with
  | none =>
      cases right with
      | none => rfl
      | some number => exact absurd same.symm (noNumeral (rightUnsigned number rfl))
  | some number =>
      cases right with
      | none => exact absurd same (noNumeral (leftUnsigned number rfl))
      | some other =>
          have read := Binary64.readDecimal_keyText (leftUnsigned number rfl)
          rw [String.ofList_injective same, Binary64.readDecimal_keyText (rightUnsigned other rfl)]
            at read
          cases read
          rfl

end Graft
