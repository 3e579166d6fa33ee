import Graft.Path.Basic

/-!
# Positions as keys

A key that spells a position is exactly the decimal form of that position. In one direction the
digits of a number are read back and rebuilt one by one; in the other the decimal form of a number
never begins with a superfluous zero.
-/

namespace Graft

theorem digitChar_of_isDigit {digit : Char} (isDigit : digit.isDigit) :
    digit.toNat - 48 < 10 ∧ Nat.digitChar (digit.toNat - 48) = digit := by
  have bounds : 48 ≤ digit.toNat ∧ digit.toNat ≤ 57 := by
    simpa [Char.isDigit, UInt32.le_iff_toNat_le] using isDigit
  have value_lt : digit.toNat - 48 < 10 := by omega
  refine ⟨value_lt, ?_⟩
  apply Char.toNat_inj.mp
  rw [Nat.toNat_digitChar_of_lt_ten value_lt]
  omega

/-- Digits read after a positive number are the digits that follow it in decimal. -/
theorem toDigits_ofDigitChars_of_pos {digits : List Char} (allDigits : digits.all Char.isDigit)
    {number : Nat} (positive : 0 < number) :
    Nat.toDigits 10 (Nat.ofDigitChars 10 digits number) = Nat.toDigits 10 number ++ digits := by
  induction digits generalizing number with
  | nil => simp
  | cons digit rest ih =>
      simp only [List.all_cons, Bool.and_eq_true] at allDigits
      rcases digitChar_of_isDigit allDigits.1 with ⟨value_lt, rebuilt⟩
      have extended := Nat.toDigits_append_toDigits (b := 10) (by decide) positive value_lt
      rw [Nat.toDigits_of_lt_base value_lt, rebuilt] at extended
      calc
        Nat.toDigits 10 (Nat.ofDigitChars 10 (digit :: rest) number)
          = Nat.toDigits 10 (10 * number + (digit.toNat - 48)) ++ rest := by
            rw [Nat.ofDigitChars_cons]
            exact ih allDigits.2 (by omega)
        _ = Nat.toDigits 10 number ++ digit :: rest := by rw [← extended]; simp

/-- The characters of a canonical decimal are the decimal form of the number they spell. -/
theorem toDigits_ofDigitChars_of_canonical {characters : List Char}
    (canonical : isCanonicalDecimal characters) :
    Nat.toDigits 10 (Nat.ofDigitChars 10 characters 0) = characters := by
  match characters, canonical with
  | [digit], canonical =>
      rcases digitChar_of_isDigit canonical with ⟨value_lt, rebuilt⟩
      rw [Nat.ofDigitChars_cons, Nat.ofDigitChars_nil]
      simpa [Nat.toDigits_of_lt_base value_lt] using rebuilt
  | first :: second :: rest, canonical =>
      simp only [isCanonicalDecimal, Bool.and_eq_true, decide_eq_true_eq] at canonical
      rcases canonical with ⟨⟨firstDigit, firstNonzero⟩, restDigits⟩
      rcases digitChar_of_isDigit firstDigit with ⟨value_lt, rebuilt⟩
      have positive : 0 < first.toNat - 48 := by
        apply Nat.pos_of_ne_zero
        intro zero
        rw [zero] at rebuilt
        exact firstNonzero rebuilt.symm
      rw [Nat.ofDigitChars_cons]
      simp only [Nat.mul_zero, Nat.zero_add]
      have digits := toDigits_ofDigitChars_of_pos restDigits positive
      rw [Nat.toDigits_of_lt_base value_lt, rebuilt] at digits
      simpa using digits

theorem toDigits_eq_cons_of_pos {number : Nat} (positive : 0 < number) :
    ∃ first rest, Nat.toDigits 10 number = first :: rest ∧ first ≠ '0' := by
  induction number using Nat.strongRecOn with
  | ind number ih =>
      by_cases small : number < 10
      · refine ⟨Nat.digitChar number, [], Nat.toDigits_of_lt_base small, ?_⟩
        intro zero
        have value := congrArg Char.toNat zero
        rw [Nat.toNat_digitChar_of_lt_ten small] at value
        simp at value
        omega
      · rcases ih (number / 10) (by omega) (by omega) with ⟨first, rest, digits, nonzero⟩
        refine ⟨first, rest ++ [Nat.digitChar (number % 10)], ?_, nonzero⟩
        rw [Nat.toDigits_of_base_le (by decide) (by omega), digits]
        rfl

theorem isCanonicalDecimal_toDigits (number : Nat) :
    isCanonicalDecimal (Nat.toDigits 10 number) := by
  rcases Nat.eq_zero_or_pos number with zero | positive
  · subst zero
    decide
  · rcases toDigits_eq_cons_of_pos positive with ⟨first, rest, digits, nonzero⟩
    have allDigits : ∀ character ∈ first :: rest, character.isDigit := by
      intro character inside
      rw [← digits] at inside
      exact Nat.isDigit_of_mem_toDigits (by decide) (by decide) inside
    rw [digits]
    cases rest with
    | nil => exact allDigits first (by simp)
    | cons second rest =>
        simp only [isCanonicalDecimal, Bool.and_eq_true, decide_eq_true_eq, List.all_eq_true]
        refine ⟨⟨allDigits first (by simp), nonzero⟩, ?_⟩
        intro character inside
        exact allDigits character (List.mem_cons_of_mem _ inside)

theorem arrayIndex?_eq_some_iff {key : String} {position : Nat} :
    arrayIndex? key = some position ↔ position < UInt64.size ∧ key = toString position := by
  constructor
  · intro spelled
    simp only [arrayIndex?] at spelled
    split at spelled
    case isTrue canonical =>
      split at spelled
      case isTrue fits =>
        cases spelled
        refine ⟨fits, ?_⟩
        apply String.toList_inj.mp
        rw [Nat.toString_eq_repr, Nat.toList_repr]
        exact (toDigits_ofDigitChars_of_canonical canonical).symm
      case isFalse => simp at spelled
    case isFalse => simp at spelled
  · rintro ⟨fits, rfl⟩
    have characters : (toString position).toList = Nat.toDigits 10 position := by
      rw [Nat.toString_eq_repr, Nat.toList_repr]
    have canonical := isCanonicalDecimal_toDigits position
    simp only [arrayIndex?, characters, canonical, if_true, Nat.ofDigitChars_ten_toDigits]
    exact if_pos fits

@[simp]
theorem arrayIndex?_repr {position : Nat} (fits : position < UInt64.size) :
    arrayIndex? position.repr = some position :=
  arrayIndex?_eq_some_iff.mpr ⟨fits, rfl⟩

/-- Two keys never mean the same position. -/
theorem key_eq_of_arrayIndex? {left right : String} {position : Nat}
    (leftSpells : arrayIndex? left = some position)
    (rightSpells : arrayIndex? right = some position) : left = right := by
  rw [(arrayIndex?_eq_some_iff.mp leftSpells).2, (arrayIndex?_eq_some_iff.mp rightSpells).2]

theorem position_eq_of_toString_eq {left right : Nat} (leftFits : left < UInt64.size)
    (rightFits : right < UInt64.size) (same : toString left = toString right) : left = right := by
  have isLeft : arrayIndex? (toString left) = some left :=
    arrayIndex?_eq_some_iff.mpr ⟨leftFits, rfl⟩
  have isRight : arrayIndex? (toString right) = some right :=
    arrayIndex?_eq_some_iff.mpr ⟨rightFits, rfl⟩
  rw [same, isRight] at isLeft
  exact (Option.some.inj isLeft).symm

end Graft
