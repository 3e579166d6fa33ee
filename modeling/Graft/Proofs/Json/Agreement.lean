import Graft.Json.Equality
import Graft.Proofs.Numeric.Nearest

/-!
# Numbers that compare as the same

Two integers compare as the same exactly if they are equal, and so do two doubles. An integer is not
compared with a double but the double nearest to it is, so a double compares as the same as each
integer that is rounded to it. Two numbers that are both doubles as they stand, which every integer
up to `2 ^ 53` is, are not confused.
-/

namespace Graft.Number

/-- The exact value of a number. -/
def value : Number → ℚ
  | .integer whole _ _ => whole
  | .float double => double.value

/-- Whether a number is of the integer kind. -/
def IsInteger : Number → Prop
  | .integer _ _ _ => True
  | .float _ => False

/-- Equal numbers, or an integer and the double nearest to it. -/
inductive Agree : Number → Number → Prop where
  | equal {left right : Number} (same : left.value = right.value) : Agree left right
  | rounded {whole : Int} {lower : leastSigned ≤ whole} {upper : whole < unsignedCount}
      {double : Binary64} (nearest : double.IsNearest whole) :
      Agree (.integer whole lower upper) (.float double)
  | ofRounded {whole : Int} {lower : leastSigned ≤ whole} {upper : whole < unsignedCount}
      {double : Binary64} (nearest : double.IsNearest whole) :
      Agree (.float double) (.integer whole lower upper)

variable {left right : Number}

theorem Agree.symm (agree : left.Agree right) : right.Agree left := by
  cases agree with
  | equal same => exact .equal same.symm
  | rounded nearest => exact .ofRounded nearest
  | ofRounded nearest => exact .rounded nearest

/-- Numbers that agree are rounded to the same double. -/
theorem Agree.isNearest_iff (agree : left.Agree right) (double : Binary64) :
    double.IsNearest left.value ↔ double.IsNearest right.value := by
  have same_of_nearest : ∀ {whole : Int} {nearest : Binary64}, nearest.IsNearest whole →
      (double.IsNearest whole ↔ double.IsNearest nearest.value) := by
    intro whole nearest isNearest
    constructor
    · intro also
      exact Binary64.isNearest_of_value_eq (also.value_eq isNearest)
    · intro also
      exact isNearest.congr ((Binary64.isNearest_of_value_eq rfl).value_eq also)
  cases agree with
  | equal same => rw [same]
  | rounded nearest => exact same_of_nearest nearest
  | ofRounded nearest => exact (same_of_nearest nearest).symm

theorem toBinary64?_float (double : Binary64) : (float double).toBinary64? = some double := by
  rw [toBinary64?]

/-- Every integer has a nearest double, by which it is compared. -/
theorem exists_toBinary64? (whole : Int) (lower : leastSigned ≤ whole)
    (upper : whole < unsignedCount) :
    ∃ double, (integer whole lower upper).toBinary64? = some double ∧ double.IsNearest whole := by
  have small : whole.natAbs ≤ 2 ^ 64 := by
    have least : leastSigned = -2 ^ 63 := by decide
    have past : unsignedCount = 2 ^ 64 := by decide
    omega
  rcases Binary64.exists_ofInt? small with ⟨double, rounded⟩
  refine ⟨double, ?_, Binary64.isNearest_of_ofInt? rounded⟩
  rw [toBinary64?]
  exact rounded

/-- As soon as a double takes part, the doubles nearest to both numbers are compared. -/
theorem sameValue_of_toBinary64? {leftDouble rightDouble : Binary64}
    (notBoth : ¬(left.IsInteger ∧ right.IsInteger)) (isLeft : left.toBinary64? = some leftDouble)
    (isRight : right.toBinary64? = some rightDouble) :
    left.sameValue right ↔ leftDouble.value = rightDouble.value := by
  rw [sameValue, isLeft, isRight, Binary64.sameValue_iff]
  rintro _ _ _ _ _ _ rfl rfl
  exact notBoth ⟨trivial, trivial⟩

theorem agree_iff_of_isNearest {whole : Int} {lower : leastSigned ≤ whole}
    {upper : whole < unsignedCount} {rounded : Binary64} (nearest : rounded.IsNearest whole)
    (double : Binary64) :
    (integer whole lower upper).Agree (float double) ↔ rounded.value = double.value := by
  constructor
  · intro agree
    exact ((agree.isNearest_iff rounded).mp nearest).value_eq (Binary64.isNearest_of_value_eq rfl)
  · intro same
    exact .rounded (nearest.congr same)

/-- Two numbers compare as the same exactly if they are equal, or one is an integer and the other
the double nearest to it. -/
theorem sameValue_iff_agree : left.sameValue right ↔ left.Agree right := by
  cases left with
  | integer whole lower upper =>
      cases right with
      | integer other otherLower otherUpper =>
          rw [sameValue, decide_eq_true_iff]
          constructor
          · rintro rfl
            exact .equal rfl
          · rintro ⟨same⟩
            exact Int.cast_injective same
      | float double =>
          rcases exists_toBinary64? whole lower upper with ⟨rounded, isRounded, nearest⟩
          rw [sameValue_of_toBinary64? And.right isRounded (toBinary64?_float double),
            agree_iff_of_isNearest nearest]
  | float double =>
      cases right with
      | integer whole lower upper =>
          rcases exists_toBinary64? whole lower upper with ⟨rounded, isRounded, nearest⟩
          rw [sameValue_of_toBinary64? And.left (toBinary64?_float double) isRounded, eq_comm]
          exact (agree_iff_of_isNearest nearest double).symm.trans ⟨Agree.symm, Agree.symm⟩
      | float other =>
          rw [sameValue_of_toBinary64? And.left
            (toBinary64?_float double) (toBinary64?_float other)]
          constructor
          · intro same
            exact .equal same
          · rintro ⟨same⟩
            exact same

/-- Whether a number is a double as it stands. -/
def IsExact (number : Number) : Prop := ∃ double : Binary64, double.value = number.value

theorem Agree.value_eq_of_isInteger (agree : left.Agree right) (isLeft : left.IsInteger)
    (isRight : right.IsInteger) : left.value = right.value := by
  cases agree with
  | equal same => exact same
  | rounded nearest => cases isRight
  | ofRounded nearest => cases isLeft

theorem isExact_float (double : Binary64) : (float double).IsExact := ⟨double, rfl⟩

theorem isExact_of_natAbs_lt {whole : Int} (lower : leastSigned ≤ whole)
    (upper : whole < unsignedCount) (small : whole.natAbs < 1 <<< 53) :
    (integer whole lower upper).IsExact := by
  rcases Binary64.ofRatio?_whole (decide (whole < 0)) small with ⟨double, _, sign, units⟩
  refine ⟨double, Binary64.value_eq_intCast_iff.mpr ?_⟩
  rw [Binary64.mul_unitsInOne, Binary64.signedUnits, sign, units]
  simp only [decide_eq_true_eq]

/-- Numbers that are rounded to the same double are equal if they are doubles as they stand. -/
theorem value_eq_of_isExact (exactLeft : left.IsExact) (exactRight : right.IsExact)
    (sameNearest : ∀ double : Binary64,
      double.IsNearest left.value ↔ double.IsNearest right.value) :
    left.value = right.value := by
  rcases exactLeft with ⟨leftDouble, isLeft⟩
  rcases exactRight with ⟨rightDouble, isRight⟩
  rw [← isLeft, ← isRight]
  exact ((sameNearest leftDouble).mp (Binary64.isNearest_of_value_eq isLeft)).value_eq
    (Binary64.isNearest_of_value_eq isRight)

end Graft.Number
