import Graft.Proofs.Json.Correspondence

/-!
# What the comparison by value tells apart

A JSON value denotes its numbers exactly, its arrays item by item and its objects as sets of
members. The comparison of the rules finds every two values that denote the same to be the same. It
goes beyond that only where an integer stands opposite a double: two integers that are rounded to
one double are both the same as it, but not as each other. On values whose integers are all doubles
as they stand it is the equality of what they denote.
-/

namespace Graft.Json

/-- The same but for the order of members, with numbers that are exactly equal. -/
def DenotesSame (left right : Json) : Prop :=
  left.Corresponds (fun first second => first.value = second.value) right

/-- A property of every number in a value. -/
inductive EachNumber (holds : Number → Prop) : Json → Prop where
  | null : EachNumber holds .null
  | bool (value : Bool) : EachNumber holds (.bool value)
  | number {number : Number} (here : holds number) : EachNumber holds (.number number)
  | string (text : String) : EachNumber holds (.string text)
  | array {items : List Json} (each : ∀ item ∈ items, EachNumber holds item) :
      EachNumber holds (.array ⟨items⟩)
  | object {members : List (String × Json)} (each : ∀ member ∈ members, EachNumber holds member.2) :
      EachNumber holds (.object members)

variable {left middle right : Json}

/-- Numbers may be compared another way if that makes no difference to the numbers of these
values. -/
theorem Corresponds.mono {agree agree' : Number → Number → Prop} {holds : Number → Prop}
    (eachLeft : left.EachNumber holds) (eachRight : right.EachNumber holds)
    (stronger : ∀ first second, holds first → holds second → agree first second →
      agree' first second)
    (corresponds : left.Corresponds agree right) : left.Corresponds agree' right := by
  induction corresponds with
  | null => exact .null
  | bool value => exact .bool value
  | number agrees =>
      cases eachLeft with
      | number holdsLeft =>
          cases eachRight with
          | number holdsRight => exact .number (stronger _ _ holdsLeft holdsRight agrees)
  | string text => exact .string text
  | array sameLength each below =>
      cases eachLeft with
      | array eachLeft =>
          cases eachRight with
          | array eachRight =>
              apply Corresponds.array sameLength
              intro position leftItem rightItem isLeft isRight
              apply below position leftItem rightItem isLeft isRight
              · exact eachLeft _ (List.mem_of_getElem? isLeft)
              · exact eachRight _ (List.mem_of_getElem? isRight)
  | object sameNames each below =>
      cases eachLeft with
      | object eachLeft =>
          cases eachRight with
          | object eachRight =>
              apply Corresponds.object sameNames
              intro name leftValue rightValue isLeft isRight
              apply below name leftValue rightValue isLeft isRight
              · exact eachLeft _ isLeft
              · exact eachRight _ isRight

theorem DenotesSame.agree (same : left.DenotesSame right) :
    left.Corresponds Number.Agree right := by
  have backwards : right.Corresponds Number.Agree left := by
    apply same.symm
    intro first second equal
    exact .equal equal.symm
  exact backwards.symm fun _ _ => Number.Agree.symm

/-- Where no number is rounded, or no double takes part, values that compare as the same denote the
same. -/
theorem DenotesSame.of_sameValue (distinctLeft : left.DistinctNames)
    (distinctRight : right.DistinctNames)
    (unrounded : left.EachNumber Number.IsExact ∧ right.EachNumber Number.IsExact ∨
      left.EachNumber Number.IsInteger ∧ right.EachNumber Number.IsInteger)
    (same : left.sameValue right) : left.DenotesSame right := by
  have corresponds := (sameValue_iff_corresponds distinctLeft distinctRight).mp same
  rcases unrounded with ⟨exactLeft, exactRight⟩ | ⟨integersLeft, integersRight⟩
  · apply corresponds.mono exactLeft exactRight
    intro first second isExact isExact' agree
    exact Number.value_eq_of_isExact isExact isExact' agree.isNearest_iff
  · apply corresponds.mono integersLeft integersRight
    intro first second isInteger isInteger' agree
    exact agree.value_eq_of_isInteger isInteger isInteger'

/-- On the way from one value to another all numbers that agree are rounded to one double. -/
theorem DenotesSame.of_sameValue_trans (distinctLeft : left.DistinctNames)
    (distinctMiddle : middle.DistinctNames) (distinctRight : right.DistinctNames)
    (exactLeft : left.EachNumber Number.IsExact) (exactRight : right.EachNumber Number.IsExact)
    (toMiddle : left.sameValue middle) (fromMiddle : middle.sameValue right) :
    left.DenotesSame right := by
  rw [sameValue_iff_corresponds distinctLeft distinctMiddle] at toMiddle
  rw [sameValue_iff_corresponds distinctMiddle distinctRight] at fromMiddle
  have sameNearest : left.Corresponds (fun first second => ∀ double : Binary64,
      double.IsNearest first.value ↔ double.IsNearest second.value) right := by
    apply toMiddle.trans _ fromMiddle
    intro first second third agree agree' double
    exact (agree.isNearest_iff double).trans (agree'.isNearest_iff double)
  apply sameNearest.mono exactLeft exactRight
  intro first second
  exact Number.value_eq_of_isExact

/-- The comparison by value finds two values to be the same if they correspond, with numbers that
are equal or an integer and the double that it is rounded to. So it misses nothing that denotes the
same, and it is reflexive and symmetric. If all numbers are doubles as they stand, or all are
integers, then it finds nothing else to be the same. If all are doubles it is transitive as well,
whatever it goes through. -/
theorem sameValue_up_to_rounding (distinctLeft : left.DistinctNames)
    (distinctMiddle : middle.DistinctNames) (distinctRight : right.DistinctNames) :
    (left.sameValue right ↔ left.Corresponds Number.Agree right) ∧
      (left.DenotesSame right → left.sameValue right) ∧
      left.sameValue left ∧
      (left.sameValue right → right.sameValue left) ∧
      (left.EachNumber Number.IsExact ∧ right.EachNumber Number.IsExact ∨
          left.EachNumber Number.IsInteger ∧ right.EachNumber Number.IsInteger →
        (left.sameValue right ↔ left.DenotesSame right)) ∧
      (left.EachNumber Number.IsExact → right.EachNumber Number.IsExact →
        left.sameValue middle → middle.sameValue right → left.sameValue right) := by
  have found := sameValue_iff_corresponds distinctLeft distinctRight
  have complete : left.DenotesSame right → left.sameValue right := by
    intro same
    exact found.mpr same.agree
  refine ⟨found, complete, ?_, ?_, ?_, ?_⟩
  · exact distinctLeft.sameValue_self
  · exact distinctLeft.sameValue_symm distinctRight
  · intro unrounded
    exact ⟨.of_sameValue distinctLeft distinctRight unrounded, complete⟩
  · intro exactLeft exactRight toMiddle fromMiddle
    apply complete
    exact .of_sameValue_trans distinctLeft distinctMiddle distinctRight exactLeft exactRight
      toMiddle fromMiddle

def boxOfWidth (width : Number) : Json := .object [("width", .number width)]

def four : Number := .integer 4 (by decide) (by decide)

def fourDouble : Number := .float ⟨false, 1025 <<< 52, by decide⟩

theorem sameValue_up_to_rounding_four :
    (boxOfWidth four).DistinctNames ∧ (boxOfWidth fourDouble).DistinctNames ∧
      (boxOfWidth four).EachNumber Number.IsExact ∧
      (boxOfWidth fourDouble).EachNumber Number.IsExact ∧
      (boxOfWidth four).DenotesSame (boxOfWidth fourDouble) ∧
      (boxOfWidth four).sameValue (boxOfWidth fourDouble) ∧
      (boxOfWidth fourDouble).sameValue (boxOfWidth four) := by
  have distinct : ∀ width, (boxOfWidth width).DistinctNames := by
    intro width
    apply DistinctNames.object (by simp)
    intro member isMember
    cases List.mem_singleton.mp isMember
    exact .scalar rfl
  have exact_of_width : ∀ {width}, width.IsExact →
      (boxOfWidth width).EachNumber Number.IsExact := by
    intro width isExact
    apply EachNumber.object
    intro member isMember
    cases List.mem_singleton.mp isMember
    exact .number isExact
  have exactFour : (boxOfWidth four).EachNumber Number.IsExact :=
    exact_of_width (Number.isExact_of_natAbs_lt _ _ (by decide))
  have exactDouble : (boxOfWidth fourDouble).EachNumber Number.IsExact :=
    exact_of_width (Number.isExact_float _)
  have same : (boxOfWidth four).DenotesSame (boxOfWidth fourDouble) := by
    apply Corresponds.object
    · intro name
      rfl
    · intro name leftValue rightValue isLeft isRight
      cases List.mem_singleton.mp isLeft
      cases List.mem_singleton.mp isRight
      exact .number (Binary64.value_eq_intCast_iff.mpr (by decide +kernel)).symm
  rcases sameValue_up_to_rounding (distinct four) (distinct four) (distinct fourDouble) with
    ⟨_, _, _, symmetric, exactly, _⟩
  have found := (exactly (Or.inl ⟨exactFour, exactDouble⟩)).mpr same
  exact ⟨distinct _, distinct _, exactFour, exactDouble, same, found, symmetric found⟩

/-- The integer `2 ^ 53`. -/
def lastInteger : Number := .integer 9007199254740992 (by decide) (by decide)

/-- The integer `2 ^ 53 + 1`, which lies half-way between two doubles. -/
def betweenDoubles : Number := .integer 9007199254740993 (by decide) (by decide)

/-- The double `2 ^ 53`. -/
def lastDouble : Binary64 := ⟨false, 1076 <<< 52, by decide⟩

/-- Two integers compare as the same as a double that only one of them is, but not as each other. -/
theorem sameValue_lastDouble :
    (Json.number betweenDoubles).sameValue (.number (.float lastDouble)) ∧
      ¬(Json.number betweenDoubles).DenotesSame (.number (.float lastDouble)) ∧
      (Json.number (.float lastDouble)).sameValue (.number lastInteger) ∧
      ¬(Json.number betweenDoubles).sameValue (.number lastInteger) := by
  have rounded : Binary64.ofInt? 9007199254740993 = some lastDouble :=
    Binary64.ofInt?_eq_some_iff.mpr ⟨rfl, by decide +kernel⟩
  have isLast : lastDouble.value = lastInteger.value :=
    Binary64.value_eq_intCast_iff.mpr (by decide +kernel)
  refine ⟨?_, ?_, ?_, ?_⟩
  · rw [sameValue, Number.sameValue_iff_agree]
    exact .rounded (Binary64.isNearest_of_ofInt? rounded)
  · rw [DenotesSame, corresponds_number_iff]
    intro same
    have units := Binary64.value_eq_intCast_iff.mp same.symm
    revert units
    decide +kernel
  · rw [sameValue, Number.sameValue_iff_agree]
    exact .equal isLast
  · rw [sameValue]
    decide

end Graft.Json
