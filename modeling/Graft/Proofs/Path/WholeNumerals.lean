import Graft.Proofs.Path.Acceptance
import Graft.Proofs.Path.NumberKeys
import Mathlib.Data.List.Induction

/-!
# Whole numbers in different radices

A whole number in brackets is written in decimal, or in radix 16, 8 or 2. A decimal is rounded to
the nearest double once. The digits of another radix are added to a double one by one, and the
double is rounded after each. Both come to the same unless the digits in front are a tie that is
rounded down before a later digit could have tipped it.
-/

namespace Graft.Path

open Grammar Binary64

/-- What the digits of an integer come to when the number is rounded after each of them. -/
def roundedValue (radix : Nat) (digits : List Char) : Nat :=
  digits.foldl (fun value digit => roundWhole (appendDigit radix value digit)) 0

/-- Digits in front count half of a bit more than an even number of 53 bits, and the digits behind
them are not only zeros. -/
def LosesTie (radix : Nat) (digits : List Char) : Prop :=
  ∃ front back, front ++ back = digits ∧ TiesDown (digitsValue radix front) ∧
    digitsValue radix back ≠ 0

variable {radix width : Nat} {digits front back : List Char}

theorem roundedValue_append_singleton (radix : Nat) (digits : List Char) (digit : Char) :
    roundedValue radix (digits ++ [digit]) =
      roundWhole (appendDigit radix (roundedValue radix digits) digit) := by
  rw [roundedValue, List.foldl_append]
  rfl

theorem roundWhole_roundedValue (radix : Nat) (digits : List Char) :
    roundWhole (roundedValue radix digits) = roundedValue radix digits := by
  induction digits using List.reverseRecOn with
  | nil => exact roundWhole_of_excessBits_eq_zero rfl
  | append_singleton digits digit =>
      rw [roundedValue_append_singleton, roundWhole_roundWhole]

/-- The double that digits added one by one come to. -/
theorem radixValue_eq (positive : 0 < radix) (digits : List Char) :
    radixValue radix digits = ofRatio? false (roundedValue radix digits) 1 := by
  induction digits using List.reverseRecOn with
  | nil =>
      have noUnits : (Binary64.zero false).units = 0 * unitsInOne := (Nat.zero_mul _).symm
      exact (ofRatio?_of_units noUnits).symm
  | append_singleton digits digit ih =>
      rw [radixValue] at ih ⊢
      rw [List.foldl_append, ih, roundedValue_append_singleton,
        ofRatio?_congr (roundWhole_roundWhole _)]
      rcases isRead : ofRatio? false (roundedValue radix digits) 1 with _ | read
      · -- What is too large stays too large.
        rw [ofRatio?_eq_none_iff] at isRead
        apply Eq.symm
        apply ofRatio?_eq_none_iff.mpr
        apply isRead.trans
        apply monotone_roundWhole
        exact (Nat.le_mul_of_pos_right _ positive).trans (Nat.le_add_right _ _)
      · have magnitude := wholeMagnitude_of_ofRatio? isRead
        rw [roundWhole_roundedValue] at magnitude
        rw [List.foldl_cons, List.foldl_nil, Option.bind_some, magnitude]

section PowerOfTwo

variable (isRadix : radix = 2 ^ width)
include isRadix

theorem radix_pow_eq (count : Nat) : radix ^ count = 2 ^ (width * count) := by
  rw [isRadix, ← Nat.pow_mul]

theorem not_losesTie_of_append {digit : Char} (keeps : ¬LosesTie radix (digits ++ [digit])) :
    ¬LosesTie radix digits := by
  rintro ⟨front, back, rfl, ties, tips⟩
  refine keeps ⟨front, back ++ [digit], (List.append_assoc _ _ _).symm, ties, ?_⟩
  have positive : 0 < radix ^ [digit].length := by
    rw [isRadix]
    exact Nat.pow_pos (Nat.two_pow_pos width)
  rw [digitsValue_append]
  exact (Nat.add_pos_left (Nat.mul_pos (Nat.pos_of_ne_zero tips) positive) _).ne'

/-- Where no tie is lost, rounding on the way makes no difference. -/
theorem roundedValue_of_not_losesTie (allDigits : ∀ digit ∈ digits, IsDigit radix digit)
    (keeps : ¬LosesTie radix digits) :
    roundedValue radix digits = roundWhole (digitsValue radix digits) := by
  induction digits using List.reverseRecOn with
  | nil => exact (roundWhole_of_excessBits_eq_zero rfl).symm
  | append_singleton digits digit ih =>
      have lastDigit := digitsValue_lt (List.forall_mem_append.mp allDigits).2
      have front := ih (List.forall_mem_append.mp allDigits).1
        (not_losesTie_of_append isRadix keeps)
      have untipped : ¬(TiesDown (digitsValue radix digits) ∧ digitsValue radix [digit] ≠ 0) := by
        rintro ⟨ties, tips⟩
        exact keeps ⟨digits, [digit], rfl, ties, tips⟩
      have appended : ∀ number, appendDigit radix number digit =
          number * radix + digitsValue radix [digit] := by
        intro number
        simp [digitsValue, appendDigit]
      rw [roundedValue_append_singleton, appended, front, digitsValue_append, List.length_singleton,
        Nat.pow_one]
      rw [List.length_singleton, Nat.pow_one] at lastDigit
      generalize digitsValue radix digits = number at *
      generalize digitsValue radix [digit] = tail at *
      subst isRadix
      by_cases short : excessBits number = 0
      · rw [roundWhole_of_excessBits_eq_zero short]
      · rw [roundWhole_roundWhole_append short lastDigit,
          (roundWhole_append_iff short lastDigit).mpr untipped]

/-- Digits that are a tie have not lost another one. -/
theorem not_losesTie_of_tiesDown (allDigits : ∀ digit ∈ digits, IsDigit radix digit)
    (ties : TiesDown (digitsValue radix digits)) : ¬LosesTie radix digits := by
  rintro ⟨front, back, rfl, earlier, tips⟩
  have back_lt := digitsValue_lt (List.forall_mem_append.mp allDigits).2
  rw [digitsValue_append, radix_pow_eq isRadix] at ties
  rw [radix_pow_eq isRadix] at back_lt
  exact tips (earlier.eq_zero_of_append back_lt ties)

/-- The digits behind a tie that is rounded down are lost. -/
theorem roundedValue_of_tiesDown (allDigits : ∀ digit ∈ front ++ back, IsDigit radix digit)
    (ties : TiesDown (digitsValue radix front)) :
    roundedValue radix (front ++ back) =
      roundWhole (digitsValue radix front) * radix ^ back.length := by
  rcases List.forall_mem_append.mp allDigits with ⟨frontDigits, backDigits⟩
  induction back using List.reverseRecOn with
  | nil =>
      rw [List.append_nil, List.length_nil, Nat.pow_zero, Nat.mul_one]
      exact roundedValue_of_not_losesTie isRadix frontDigits
        (not_losesTie_of_tiesDown isRadix frontDigits ties)
  | append_singleton back digit ih =>
      rw [← List.append_assoc] at allDigits ⊢
      rcases List.forall_mem_append.mp backDigits with ⟨restDigits, isDigit⟩
      rcases Option.isSome_iff_exists.mp (isDigit digit List.mem_cons_self) with ⟨value, isValue⟩
      have value_lt : value < 2 ^ (width * (back.length + 1)) := by
        rw [← radix_pow_eq isRadix]
        exact (Text.lt_of_digitValue? isValue).trans_le (Nat.le_self_pow (Nat.succ_ne_zero _) radix)
      rw [roundedValue_append_singleton, ih (List.forall_mem_append.mp allDigits).1 restDigits,
        appendDigit_of_digitValue? isValue, List.length_append, List.length_singleton,
          Nat.mul_assoc,
        ← Nat.pow_succ, radix_pow_eq isRadix]
      exact roundWhole_roundWhole_append ties.excessBits_ne_zero value_lt

/-- What digits that lose a tie come to: too little, but no less than a power of two that they
reach. -/
theorem LosesTie.roundedValue_spec (allDigits : ∀ digit ∈ digits, IsDigit radix digit)
    (loses : LosesTie radix digits) :
    roundedValue radix digits ≤ digitsValue radix digits ∧
      roundedValue radix digits ≠ roundWhole (digitsValue radix digits) ∧
      ∀ power, 2 ^ power ≤ digitsValue radix digits → 2 ^ power ≤ roundedValue radix digits := by
  rcases loses with ⟨front, back, rfl, ties, tips⟩
  have back_lt := digitsValue_lt (List.forall_mem_append.mp allDigits).2
  rw [roundedValue_of_tiesDown isRadix allDigits ties, digitsValue_append, radix_pow_eq isRadix]
  rw [radix_pow_eq isRadix] at back_lt
  refine ⟨?_, ?_, fun power => ties.two_pow_le back_lt⟩
  · exact (Nat.mul_le_mul_right _ ties.roundWhole_le).trans (Nat.le_add_right _ _)
  · intro same
    exact (roundWhole_append_iff ties.excessBits_ne_zero back_lt).mp same.symm ⟨ties, tips⟩

/-- Digits come to the key of the number they spell, unless they lose a tie and stay finite. -/
theorem literalKey_radixValue_eq_iff (allDigits : ∀ digit ∈ digits, IsDigit radix digit) :
    literalKey (radixValue radix digits) =
        literalKey (ofRatio? false (digitsValue radix digits) 1) ↔
      ¬(LosesTie radix digits ∧ digitsValue radix digits < 2 ^ 1024) := by
  have positive : 0 < radix := isRadix ▸ Nat.two_pow_pos width
  rw [radixValue_eq positive,
    literalKey_inj (fun _ => negative_of_ofRatio?) fun _ => negative_of_ofRatio?]
  by_cases loses : LosesTie radix digits
  · rcases loses.roundedValue_spec isRadix allDigits with ⟨lost_le, differs, reaches⟩
    constructor
    · rintro same ⟨_, small⟩
      rcases isRead : ofRatio? false (roundedValue radix digits) 1 with _ | read
      · rw [ofRatio?_eq_none_iff, roundWhole_roundedValue] at isRead
        exact absurd (lost_le.trans_lt small) (Nat.not_lt.mpr isRead)
      · have magnitude := wholeMagnitude_of_ofRatio? isRead
        rw [roundWhole_roundedValue] at magnitude
        exact differs (magnitude.symm.trans (wholeMagnitude_of_ofRatio? (same ▸ isRead)))
    · intro notSmall
      have large : 2 ^ 1024 ≤ digitsValue radix digits :=
        Nat.le_of_not_lt (not_and.mp notSmall loses)
      rw [ofRatio?_eq_none_iff.mpr (two_pow_le_roundWhole large)]
      apply ofRatio?_eq_none_iff.mpr
      rw [roundWhole_roundedValue]
      exact reaches 1024 large
  · refine iff_of_true ?_ (not_and.mpr fun lost => absurd lost loses)
    apply ofRatio?_congr
    rw [roundWhole_roundedValue, roundedValue_of_not_losesTie isRadix allDigits loses]

end PowerOfTwo

/-- A whole number in decimal, or in the digits of another radix after its mark. -/
inductive WholeNumeral : List Char → Nat → Prop where
  | decimal {digits : List Char} (nonempty : digits ≠ []) (areDigits : Digits digits)
      (noZero : NoLeadingZero digits) : WholeNumeral digits (Nat.ofDigitChars 10 digits 0)
  | radix {mark : Char} {radix : Nat} {digits : List Char} (isMark : radixOfMark? mark = some radix)
      (nonempty : digits ≠ []) (allDigits : ∀ digit ∈ digits, IsDigit radix digit) :
      WholeNumeral ('0' :: mark :: digits) (digitsValue radix digits)

theorem exists_width_of_mark {mark : Char} {radix : Nat} (isMark : radixOfMark? mark = some radix) :
    ∃ width, radix = 2 ^ width := by
  unfold radixOfMark? at isMark
  split at isMark
  · exact ⟨4, (Option.some.inj isMark).symm⟩
  · exact ⟨4, (Option.some.inj isMark).symm⟩
  · exact ⟨3, (Option.some.inj isMark).symm⟩
  · exact ⟨3, (Option.some.inj isMark).symm⟩
  · exact ⟨1, (Option.some.inj isMark).symm⟩
  · exact ⟨1, (Option.some.inj isMark).symm⟩
  · cases isMark

/-- A literal in another radix than ten whose digits lose a tie, of a number that is not too large
for a double. -/
def Misrounds (literal : List Char) : Prop :=
  ∃ mark radix digits, literal = '0' :: mark :: digits ∧ radixOfMark? mark = some radix ∧
    LosesTie radix digits ∧ digitsValue radix digits < 2 ^ 1024

/-- A number below `2 ^ 53` loses no tie. -/
theorem LosesTie.two_pow_le (positive : 0 < radix) (loses : LosesTie radix digits) :
    2 ^ 53 ≤ digitsValue radix digits := by
  rcases loses with ⟨front, back, rfl, ties, _⟩
  have log := ties.excessBits_ne_zero
  have nonzero : digitsValue radix front ≠ 0 := by
    intro isZero
    rw [isZero] at log
    exact log rfl
  calc 2 ^ 53 ≤ digitsValue radix front := by
        apply (Nat.le_log2 nonzero).mp
        rw [excessBits] at log
        omega
    _ ≤ digitsValue radix front * radix ^ back.length :=
        Nat.le_mul_of_pos_right _ (Nat.pow_pos positive)
    _ ≤ digitsValue radix (front ++ back) := by
        rw [digitsValue_append]
        exact Nat.le_add_right _ _

theorem not_misrounds_of_noLeadingZero {literal : List Char} (areDigits : Digits literal)
    (noZero : NoLeadingZero literal) : ¬Misrounds literal := by
  rintro ⟨mark, radix, digits, rfl, _⟩
  exact noZero ⟨by simp, rfl⟩

/-- A whole number is read as the key of the nearest double, however it is written, unless it is
misrounded on the way. -/
theorem wholeNumeral_isReadAs {literal : List Char} {number : Nat}
    (numeral : WholeNumeral literal number) :
    ∃ key, IsReadAs literal key ∧
      (key = literalKey (ofRatio? false number 1) ↔ ¬Misrounds literal) := by
  cases numeral with
  | decimal nonempty areDigits noZero =>
      have decimal := DecimalNumeral.whole nonempty areDigits noZero .absent
      rw [List.append_nil] at decimal
      refine ⟨_, (Numeral.decimal decimal).isReadAs, ?_⟩
      rw [DecimalLiteral.toBinary64?_of_digits]
      exact iff_of_true rfl (not_misrounds_of_noLeadingZero areDigits noZero)
  | @radix mark radix digits isMark nonempty allDigits =>
      rcases exists_width_of_mark isMark with ⟨width, isRadix⟩
      refine ⟨_, (Numeral.radix isMark nonempty allDigits).isReadAs, ?_⟩
      rw [literalKey_radixValue_eq_iff isRadix allDigits, not_iff_not]
      constructor
      · rintro ⟨loses, small⟩
        exact ⟨mark, radix, digits, rfl, isMark, loses, small⟩
      · rintro ⟨_, _, _, same, isMark', loses, small⟩
        cases same
        cases isMark.symm.trans isMark'
        exact ⟨loses, small⟩

theorem wholeNumeral_isReadAs_sixteen :
    WholeNumeral ['0', 'X', '0', '0', '1', '0'] 16 ∧
      IsReadAs ['0', 'X', '0', '0', '1', '0'] "16" := by
  have numeral : WholeNumeral ['0', 'X', '0', '0', '1', '0'] 16 :=
    @WholeNumeral.radix 'X' 16 ['0', '0', '1', '0'] rfl (by simp) (by simp [IsDigit]; decide)
  have exactly : ¬Misrounds ['0', 'X', '0', '0', '1', '0'] := by
    rintro ⟨_, _, _, same, isMark, loses, _⟩
    cases same
    cases isMark
    exact absurd (loses.two_pow_le (by decide)) (by decide)
  rcases wholeNumeral_isReadAs numeral with ⟨key, isRead, isKey⟩
  have isSixteen : literalKey (ofRatio? false 16 1) = "16" := by decide +kernel
  rw [isKey.mpr exactly, isSixteen] at isRead
  exact ⟨numeral, isRead⟩

/-- The number `2 ^ 57 + 17` is a little more than half-way between two doubles. Without its last
hexadecimal digit it would be half-way. -/
theorem readBracket_lostTie :
    WholeNumeral "0x200000000000011".toList 144115188075855889 ∧
      WholeNumeral "144115188075855889".toList 144115188075855889 ∧
      readBracket "0x200000000000011]".toList = .ok ("144115188075855872", []) ∧
      readBracket "144115188075855889]".toList = .ok ("144115188075855904", []) := by
  have hexDigits : ∀ digit ∈ "200000000000011".toList, IsDigit 16 digit :=
    List.all_eq_true.mp (by decide +kernel)
  have decimalDigits : Digits "144115188075855889".toList := List.all_eq_true.mp (by decide +kernel)
  refine ⟨?_, ?_, ?_, ?_⟩
  · exact @WholeNumeral.radix 'x' 16 "200000000000011".toList rfl (by decide) hexDigits
  · exact .decimal (by decide) decimalDigits (by simp [NoLeadingZero])
  · decide +kernel
  · decide +kernel

end Graft.Path
