import Graft.Proofs.Path.Position
import Graft.Proofs.Path.WholeNumerals

/-!
# Literals of small positions

A whole number below `2 ^ 53` is a double as it stands, so that nothing is rounded when its literal
is read: not at the end, and not after any of its digits. Whatever the radix of the literal, and
whatever zeros it has in front or behind its point, it is read as the decimal form of the number,
which is the key of the item at that position.
-/

namespace Graft.Path

open Grammar Binary64

variable {literal : List Char} {number : Nat}

/-- A literal of a whole number: in any radix, or in decimal with a point and nothing but zeros
behind it. -/
inductive WholeLiteral : List Char → Nat → Prop where
  | plain {literal : List Char} {number : Nat} (numeral : WholeNumeral literal number) :
      WholeLiteral literal number
  | pointed {digits zeros : List Char} (nonempty : digits ≠ []) (areDigits : Digits digits)
      (noZero : NoLeadingZero digits) (areZeros : ∀ character ∈ zeros, character = '0') :
      WholeLiteral (digits ++ '.' :: zeros) (Nat.ofDigitChars 10 digits 0)

theorem literalKey_ofRatio?_of_small (small : number < 2 ^ 53) :
    literalKey (ofRatio? false number 1) = toString number := by
  have digits := @Nat.ofDigitChars_ten_toDigits number
  have key := @literalKey_whole (Nat.toDigits 10 number) (by rwa [digits, Nat.one_shiftLeft])
  rw [DecimalLiteral.toBinary64?_of_digits, digits] at key
  rw [key, Nat.toString_eq_repr, Nat.repr_eq_ofList_toDigits]

theorem WholeNumeral.isReadAs (numeral : WholeNumeral literal number) (small : number < 2 ^ 53) :
    IsReadAs literal (toString number) := by
  rw [← literalKey_ofRatio?_of_small small]
  cases numeral with
  | decimal nonempty areDigits noZero =>
      have decimal := DecimalNumeral.whole nonempty areDigits noZero .absent
      rw [List.append_nil] at decimal
      rw [← DecimalLiteral.toBinary64?_of_digits]
      exact (Numeral.decimal decimal).isReadAs
  | @radix mark radix digits isMark nonempty allDigits =>
      rcases exists_width_of_mark isMark with ⟨width, isRadix⟩
      have positive : 0 < radix := isRadix ▸ Nat.two_pow_pos width
      have keepsTies : ¬(LosesTie radix digits ∧ digitsValue radix digits < 2 ^ 1024) := by
        rintro ⟨loses, _⟩
        exact absurd small (Nat.not_lt.mpr (loses.two_pow_le positive))
      rw [← (literalKey_radixValue_eq_iff isRadix allDigits).mpr keepsTies]
      exact (Numeral.radix isMark nonempty allDigits).isReadAs

theorem WholeLiteral.isReadAs (isLiteral : WholeLiteral literal number) (small : number < 2 ^ 53) :
    IsReadAs literal (toString number) := by
  cases isLiteral with
  | plain numeral => exact numeral.isReadAs small
  | @pointed digits zeros nonempty areDigits noZero areZeros =>
      have someDigits : ¬(digits = [] ∧ zeros = []) := fun none => nonempty none.1
      have fractionDigits : Digits zeros := by
        intro character inside
        rw [areZeros character inside]
        rfl
      have decimal := DecimalNumeral.point someDigits areDigits noZero fractionDigits .absent
      rw [List.append_nil] at decimal
      rw [← literalKey_ofRatio?_of_small small,
        ← DecimalLiteral.toBinary64?_of_zeros digits areZeros]
      exact (Numeral.decimal decimal).isReadAs

/-- Every literal of a whole number below `2 ^ 53` is read as the decimal form of the number, and
this key means the position that the number says. -/
theorem wholeLiteral_isReadAs_position (isLiteral : WholeLiteral literal number)
    (small : number < 2 ^ 53) :
    IsReadAs literal (toString number) ∧ arrayIndex? (toString number) = some number := by
  refine ⟨isLiteral.isReadAs small, arrayIndex?_eq_some_iff.mpr ⟨?_, rfl⟩⟩
  exact small.trans (by decide)

/-- The largest number of 53 bits, in hexadecimal with zeros in front and in decimal with zeros
behind its point. -/
theorem wholeLiteral_isReadAs_lastPosition :
    IsReadAs "0X0001FfFfFfFfFfFfF".toList "9007199254740991" ∧
      IsReadAs "9007199254740991.000".toList "9007199254740991" ∧
      arrayIndex? "9007199254740991" = some 9007199254740991 := by
  have hexDigits : ∀ digit ∈ "0001FfFfFfFfFfFfF".toList, IsDigit 16 digit :=
    List.all_eq_true.mp (by decide +kernel)
  have decimalDigits : Digits "9007199254740991".toList := List.all_eq_true.mp (by decide +kernel)
  have hexadecimal : WholeLiteral "0X0001FfFfFfFfFfFfF".toList 9007199254740991 :=
    .plain (@WholeNumeral.radix 'X' 16 "0001FfFfFfFfFfFfF".toList rfl (by decide) hexDigits)
  have pointed : WholeLiteral "9007199254740991.000".toList 9007199254740991 :=
    @WholeLiteral.pointed "9007199254740991".toList "000".toList (by decide) decimalDigits
      (by simp [NoLeadingZero]) (by simp)
  rcases wholeLiteral_isReadAs_position hexadecimal (by decide) with ⟨hexadecimalRead, isPosition⟩
  rcases wholeLiteral_isReadAs_position pointed (by decide) with ⟨pointedRead, _⟩
  exact ⟨hexadecimalRead, pointedRead, isPosition⟩

end Graft.Path
