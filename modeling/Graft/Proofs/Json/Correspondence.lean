import Graft.Proofs.Json.Agreement
import Graft.Proofs.Json.Rearranged
import Graft.Rule.Value
import Mathlib.Data.List.Perm.Subperm

/-!
# Values that correspond place by place

Two values correspond if they differ at most in their numbers and in the order of object members.
The comparison of the rules walks the members of its left operand alone. That suffices because both
objects have the same number of distinct names, so the comparison is a correspondence after all, and
neither the order of its operands nor that of any members matters.
-/

namespace Graft

namespace Json

/-- The names in each object, at any depth, are distinct. -/
inductive DistinctNames : Json → Prop where
  | scalar {node : Json} (noContainer : node.isContainer = false) : DistinctNames node
  | array {items : List Json} (each : ∀ item ∈ items, DistinctNames item) :
      DistinctNames (.array ⟨items⟩)
  | object {members : List (String × Json)} (distinct : (members.map Prod.fst).Nodup)
      (each : ∀ member ∈ members, DistinctNames member.2) : DistinctNames (.object members)

theorem distinctNames_array_iff {items : List Json} :
    DistinctNames (.array ⟨items⟩) ↔ ∀ item ∈ items, DistinctNames item := by
  constructor
  · rintro (noContainer | each)
    · cases noContainer
    · exact each
  · exact .array

theorem distinctNames_object_iff {members : List (String × Json)} :
    DistinctNames (.object members) ↔
      (members.map Prod.fst).Nodup ∧ ∀ member ∈ members, DistinctNames member.2 := by
  constructor
  · rintro (noContainer | _ | ⟨distinct, each⟩)
    · cases noContainer
    · exact ⟨distinct, each⟩
  · rintro ⟨distinct, each⟩
    exact .object distinct each

theorem Regular.distinctNames {node : Json} (regular : node.Regular) : node.DistinctNames := by
  induction regular with
  | scalar noContainer => exact .scalar noContainer
  | array fits each below => exact .array below
  | object distinct each below => exact .object distinct below

/-- The same value but for the order of members, with numbers that agree. -/
inductive Corresponds (agree : Number → Number → Prop) : Json → Json → Prop where
  | null : Corresponds agree .null .null
  | bool (value : Bool) : Corresponds agree (.bool value) (.bool value)
  | number {left right : Number} (agrees : agree left right) :
      Corresponds agree (.number left) (.number right)
  | string (text : String) : Corresponds agree (.string text) (.string text)
  | array {left right : List Json} (sameLength : left.length = right.length)
      (each : ∀ (position : Nat) leftItem rightItem, left[position]? = some leftItem →
        right[position]? = some rightItem → Corresponds agree leftItem rightItem) :
      Corresponds agree (.array ⟨left⟩) (.array ⟨right⟩)
  | object {left right : List (String × Json)}
      (sameNames : ∀ name, name ∈ left.map Prod.fst ↔ name ∈ right.map Prod.fst)
      (each : ∀ name leftValue rightValue, (name, leftValue) ∈ left →
        (name, rightValue) ∈ right → Corresponds agree leftValue rightValue) :
      Corresponds agree (.object left) (.object right)

variable {agree : Number → Number → Prop}

theorem corresponds_number_iff {left right : Number} :
    (Json.number left).Corresponds agree (.number right) ↔ agree left right := by
  constructor
  · rintro ⟨⟩
    assumption
  · exact .number

theorem corresponds_array_iff {left right : List Json} :
    (Json.array ⟨left⟩).Corresponds agree (.array ⟨right⟩) ↔
      left.length = right.length ∧
        ∀ (position : Nat) leftItem rightItem, left[position]? = some leftItem →
          right[position]? = some rightItem → Corresponds agree leftItem rightItem := by
  constructor
  · rintro (_ | _ | _ | _ | ⟨sameLength, each⟩)
    exact ⟨sameLength, each⟩
  · rintro ⟨sameLength, each⟩
    exact .array sameLength each

theorem corresponds_object_iff {left right : List (String × Json)} :
    (Json.object left).Corresponds agree (.object right) ↔
      (∀ name, name ∈ left.map Prod.fst ↔ name ∈ right.map Prod.fst) ∧
        ∀ name leftValue rightValue, (name, leftValue) ∈ left → (name, rightValue) ∈ right →
          Corresponds agree leftValue rightValue := by
  constructor
  · rintro (_ | _ | _ | _ | _ | ⟨sameNames, each⟩)
    exact ⟨sameNames, each⟩
  · rintro ⟨sameNames, each⟩
    exact .object sameNames each

theorem DistinctNames.corresponds_refl {node : Json} (distinct : node.DistinctNames)
    (reflexive : ∀ number, agree number number) : node.Corresponds agree node := by
  induction distinct with
  | @scalar node noContainer =>
      cases node with
      | null => exact .null
      | bool value => exact .bool value
      | number value => exact .number (reflexive value)
      | string text => exact .string text
      | array items => cases noContainer
      | object members => cases noContainer
  | @array items each below =>
      apply Corresponds.array rfl
      intro position left right isLeft isRight
      rw [isLeft] at isRight
      cases isRight
      exact below left (List.mem_of_getElem? isLeft)
  | @object members names each below =>
      apply Corresponds.object fun name => Iff.rfl
      intro name left right isLeft isRight
      cases value_eq_of_mem names isLeft isRight
      exact below _ isLeft

theorem Corresponds.symm {agree' : Number → Number → Prop} {left right : Json}
    (symmetric : ∀ first second, agree first second → agree' second first)
    (corresponds : left.Corresponds agree right) : right.Corresponds agree' left := by
  induction corresponds with
  | null => exact .null
  | bool value => exact .bool value
  | number agrees => exact .number (symmetric _ _ agrees)
  | string text => exact .string text
  | array sameLength each below =>
      apply Corresponds.array sameLength.symm
      intro position rightItem leftItem isRight isLeft
      exact below position leftItem rightItem isLeft isRight
  | object sameNames each below =>
      apply Corresponds.object fun name => (sameNames name).symm
      intro name rightValue leftValue isRight isLeft
      exact below name leftValue rightValue isLeft isRight

theorem Corresponds.trans {agree' agree'' : Number → Number → Prop} {left middle right : Json}
    (transitive : ∀ first second third, agree first second → agree' second third →
      agree'' first third)
    (first : left.Corresponds agree middle) (second : middle.Corresponds agree' right) :
    left.Corresponds agree'' right := by
  induction first generalizing right with
  | null => cases second with | null => exact .null
  | bool value => cases second with | bool => exact .bool value
  | number agrees =>
      cases second with
      | number agrees' => exact .number (transitive _ _ _ agrees agrees')
  | string text => cases second with | string => exact .string text
  | @array left middle sameLength each below =>
      cases second with
      | @array _ right sameLength' each' =>
          apply Corresponds.array (sameLength.trans sameLength')
          intro position leftItem rightItem isLeft isRight
          have inside : position < middle.length := by
            rw [← sameLength]
            exact (List.getElem?_eq_some_iff.mp isLeft).1
          have isMiddle := List.getElem?_eq_getElem inside
          exact below position leftItem _ isLeft isMiddle
            (each' position _ rightItem isMiddle isRight)
  | @object left middle sameNames each below =>
      cases second with
      | @object _ right sameNames' each' =>
          apply Corresponds.object fun name => (sameNames name).trans (sameNames' name)
          intro name leftValue rightValue isLeft isRight
          rcases List.mem_map.mp ((sameNames name).mp (List.mem_map_of_mem isLeft)) with
            ⟨⟨_, middleValue⟩, isMiddle, rfl⟩
          exact below _ leftValue middleValue isLeft isMiddle
            (each' _ middleValue rightValue isMiddle isRight)

theorem sameItems_iff {left right : List Json} :
    sameItems left right ↔ left.length = right.length ∧
      ∀ (position : Nat) leftItem rightItem, left[position]? = some leftItem →
        right[position]? = some rightItem → leftItem.sameValue rightItem := by
  induction left generalizing right with
  | nil => cases right <;> simp [sameItems]
  | cons item items ih =>
      cases right with
      | nil => simp [sameItems]
      | cons other others =>
          rw [sameItems, Bool.and_eq_true, ih, List.length_cons, List.length_cons,
            Nat.add_right_cancel_iff]
          constructor
          · rintro ⟨first, sameLength, rest⟩
            refine ⟨sameLength, ?_⟩
            rintro (_ | position) leftItem rightItem isLeft isRight
            · cases isLeft
              cases isRight
              exact first
            · exact rest position leftItem rightItem isLeft isRight
          · rintro ⟨sameLength, each⟩
            exact ⟨each 0 item other rfl rfl, sameLength, fun position => each (position + 1)⟩

theorem sameMembers_iff {left right : List (String × Json)} :
    sameMembers left right ↔ ∀ name value, (name, value) ∈ left →
      ∃ other, right.lookup name = some other ∧ value.sameValue other := by
  induction left with
  | nil => simp [sameMembers]
  | cons member rest ih =>
      rcases member with ⟨first, firstValue⟩
      rw [sameMembers, Bool.and_eq_true, ih]
      constructor
      · rintro ⟨here, others⟩ name value inside
        rcases List.mem_cons.mp inside with isFirst | later
        · cases isFirst
          rcases found : right.lookup first with _ | other
          · rw [found] at here
            cases here
          · rw [found] at here
            exact ⟨other, rfl, here⟩
        · exact others name value later
      · intro each
        rcases each first firstValue List.mem_cons_self with ⟨other, found, same⟩
        rw [found]
        refine ⟨same, ?_⟩
        intro name value later
        exact each name value (List.mem_cons_of_mem _ later)

/-- If every name on the left is on the right as well, then equal numbers of distinct names leave
none over. -/
theorem mem_iff_of_forall_mem {left right : List String} (distinct : left.Nodup)
    (sameLength : left.length = right.length) (inside : ∀ name ∈ left, name ∈ right)
    (name : String) : name ∈ left ↔ name ∈ right :=
  ((distinct.subperm inside).perm_of_length_le sameLength.ge).mem_iff

theorem length_eq_of_mem_iff {left right : List String} (distinctLeft : left.Nodup)
    (distinctRight : right.Nodup) (same : ∀ name, name ∈ left ↔ name ∈ right) :
    left.length = right.length :=
  ((List.perm_ext_iff_of_nodup distinctLeft distinctRight).mpr same).length_eq

/-- To look up the members on the left is enough if there are equally many on the right. -/
theorem forall_lookup_iff {left right : List (String × Json)} {relates : Json → Json → Prop}
    (distinctLeft : (left.map Prod.fst).Nodup) (distinctRight : (right.map Prod.fst).Nodup) :
    (left.length = right.length ∧ ∀ name value, (name, value) ∈ left →
        ∃ other, right.lookup name = some other ∧ relates value other) ↔
      (∀ name, name ∈ left.map Prod.fst ↔ name ∈ right.map Prod.fst) ∧
        ∀ name value other, (name, value) ∈ left → (name, other) ∈ right → relates value other := by
  simp only [lookup_eq_some_iff_mem distinctRight]
  constructor
  · rintro ⟨sameLength, found⟩
    have inside : ∀ name ∈ left.map Prod.fst, name ∈ right.map Prod.fst := by
      intro name isName
      rcases List.mem_map.mp isName with ⟨⟨_, value⟩, isMember, rfl⟩
      rcases found _ value isMember with ⟨other, isOther, _⟩
      exact List.mem_map.mpr ⟨_, isOther, rfl⟩
    refine ⟨mem_iff_of_forall_mem distinctLeft (by simpa using sameLength) inside, ?_⟩
    intro name value other isMember isOther
    rcases found name value isMember with ⟨other', isOther', related⟩
    cases value_eq_of_mem distinctRight isOther isOther'
    exact related
  · rintro ⟨sameNames, related⟩
    refine ⟨by simpa using length_eq_of_mem_iff distinctLeft distinctRight sameNames, ?_⟩
    intro name value isMember
    rcases List.mem_map.mp ((sameNames name).mp (List.mem_map_of_mem isMember)) with
      ⟨⟨_, other⟩, isOther, rfl⟩
    exact ⟨other, isOther, related _ value other isMember isOther⟩

/-- Two values are the same by value if they correspond, with numbers that agree. -/
theorem sameValue_iff_corresponds {left right : Json} (distinctLeft : left.DistinctNames)
    (distinctRight : right.DistinctNames) :
    left.sameValue right ↔ left.Corresponds Number.Agree right := by
  induction distinctLeft generalizing right with
  | @scalar node noContainer =>
      cases node with
      | array items => cases noContainer
      | object members => cases noContainer
      | null => cases right <;> grind [sameValue, Corresponds]
      | bool value => cases right <;> grind [sameValue, Corresponds]
      | number value => cases right <;> grind [sameValue, Corresponds, Number.sameValue_iff_agree]
      | string text => cases right <;> grind [sameValue, Corresponds]
  | @array items each below =>
      cases right with
      | array others =>
          rcases others with ⟨others⟩
          rw [sameValue, sameItems_iff, corresponds_array_iff]
          apply and_congr_right
          intro _
          apply forall₅_congr
          intro position leftItem rightItem isLeft isRight
          exact below leftItem (List.mem_of_getElem? isLeft)
            (distinctNames_array_iff.mp distinctRight _ (List.mem_of_getElem? isRight))
      | null => exact ⟨nofun, nofun⟩
      | bool value => exact ⟨nofun, nofun⟩
      | number value => exact ⟨nofun, nofun⟩
      | string text => exact ⟨nofun, nofun⟩
      | object members => exact ⟨nofun, nofun⟩
  | @object members distinct each below =>
      cases right with
      | object others =>
          rcases distinctNames_object_iff.mp distinctRight with ⟨distinctOthers, eachOther⟩
          rw [sameValue, Bool.and_eq_true, decide_eq_true_iff, sameMembers_iff,
            corresponds_object_iff, forall_lookup_iff distinct distinctOthers]
          apply and_congr_right
          intro _
          apply forall₅_congr
          intro name value other isMember isOther
          exact below _ isMember (eachOther _ isOther)
      | null => exact ⟨nofun, nofun⟩
      | bool value => exact ⟨nofun, nofun⟩
      | number value => exact ⟨nofun, nofun⟩
      | string text => exact ⟨nofun, nofun⟩
      | array items => exact ⟨nofun, nofun⟩

theorem DistinctNames.sameValue_self {node : Json} (distinct : node.DistinctNames) :
    node.sameValue node :=
  (sameValue_iff_corresponds distinct distinct).mpr (distinct.corresponds_refl fun _ => .equal rfl)

theorem Rearranged.distinctNames {left right : Json} (rearranged : left.Rearranged right)
    (distinct : left.DistinctNames) : right.DistinctNames := by
  induction rearranged with
  | refl node => exact distinct
  | @array left right sameLength each below =>
      apply DistinctNames.array
      intro item inside
      rcases List.getElem?_of_mem inside with ⟨position, isRight⟩
      have isLeft : position < left.length := by
        rw [sameLength]
        exact (List.getElem?_eq_some_iff.mp isRight).1
      exact below position _ item (List.getElem?_eq_getElem isLeft) isRight
        (distinctNames_array_iff.mp distinct _ (List.getElem_mem isLeft))
  | @object left right sameNames each below =>
      rcases distinctNames_object_iff.mp distinct with ⟨distinctLeft, eachLeft⟩
      apply DistinctNames.object (sameNames.nodup_iff.mp distinctLeft)
      rintro ⟨name, value⟩ isRight
      rcases List.mem_map.mp (sameNames.mem_iff.mpr (List.mem_map_of_mem isRight)) with
        ⟨⟨_, other⟩, isLeft, rfl⟩
      exact below _ other value isLeft isRight (eachLeft _ isLeft)

/-- A rearranged value corresponds to the value it was made of, with the same numbers. -/
theorem Rearranged.corresponds {left right : Json} (rearranged : left.Rearranged right)
    (distinct : left.DistinctNames) : left.Corresponds Eq right := by
  induction rearranged with
  | refl node => exact distinct.corresponds_refl fun _ => rfl
  | array sameLength each below =>
      apply Corresponds.array sameLength
      intro position leftItem rightItem isLeft isRight
      exact below position leftItem rightItem isLeft isRight
        (distinctNames_array_iff.mp distinct _ (List.mem_of_getElem? isLeft))
  | object sameNames each below =>
      apply Corresponds.object fun name => sameNames.mem_iff
      intro name leftValue rightValue isLeft isRight
      exact below name leftValue rightValue isLeft isRight
        ((distinctNames_object_iff.mp distinct).2 _ isLeft)

variable {left right left' right' : Json}

/-- Operands that correspond to others with the same numbers may be replaced by them. -/
theorem Corresponds.congr (sameLeft : left.Corresponds Eq left')
    (sameRight : right.Corresponds Eq right') (corresponds : left.Corresponds agree right) :
    left'.Corresponds agree right' := by
  have backLeft : left'.Corresponds Eq left := sameLeft.symm fun _ _ => Eq.symm
  have throughLeft : left'.Corresponds agree right := by
    apply backLeft.trans _ corresponds
    rintro first _ third rfl agrees
    exact agrees
  apply throughLeft.trans _ sameRight
  rintro first second _ agrees rfl
  exact agrees

theorem DistinctNames.sameValue_symm (distinctLeft : left.DistinctNames)
    (distinctRight : right.DistinctNames) (same : left.sameValue right) :
    right.sameValue left := by
  rw [sameValue_iff_corresponds distinctRight distinctLeft]
  apply ((sameValue_iff_corresponds distinctLeft distinctRight).mp same).symm
  intro first second
  exact Number.Agree.symm

/-- A comparison does not depend on the order of members on either side. -/
theorem sameValue_congr (distinctLeft : left.DistinctNames) (distinctRight : right.DistinctNames)
    (leftMoved : left.Rearranged left') (rightMoved : right.Rearranged right') :
    left'.sameValue right' = left.sameValue right := by
  have sameLeft := leftMoved.corresponds distinctLeft
  have sameRight := rightMoved.corresponds distinctRight
  rw [Bool.eq_iff_iff, sameValue_iff_corresponds distinctLeft distinctRight,
    sameValue_iff_corresponds (leftMoved.distinctNames distinctLeft)
      (rightMoved.distinctNames distinctRight)]
  constructor
  · apply Corresponds.congr
    · exact sameLeft.symm fun _ _ => Eq.symm
    · exact sameRight.symm fun _ _ => Eq.symm
  · exact Corresponds.congr sameLeft sameRight

/-- The comparison by value gives the same for its operands in either order, and for operands whose
members are rearranged; a value is the same as its rearrangements. So a rule for one value does to
every leaf what the rule for a rearrangement of that value does. -/
theorem sameValue_ignores_order (distinctLeft : left.DistinctNames)
    (distinctRight : right.DistinctNames) (leftMoved : left.Rearranged left')
    (rightMoved : right.Rearranged right') :
    left.sameValue right = right.sameValue left ∧
      left'.sameValue right' = left.sameValue right ∧
      left.sameValue left' ∧
      (∀ replacement, (ValueRule.replace right' replacement).apply left =
        (ValueRule.replace right replacement).apply left) ∧
      (ValueRule.skip right').apply left = (ValueRule.skip right).apply left := by
  have onlyRight : left.sameValue right' = left.sameValue right :=
    sameValue_congr distinctLeft distinctRight (.refl left) rightMoved
  refine ⟨?_, ?_, ?_, ?_, ?_⟩
  · rw [Bool.eq_iff_iff]
    exact ⟨distinctLeft.sameValue_symm distinctRight, distinctRight.sameValue_symm distinctLeft⟩
  · exact sameValue_congr distinctLeft distinctRight leftMoved rightMoved
  · rw [sameValue_congr distinctLeft distinctLeft (.refl left) leftMoved]
    exact distinctLeft.sameValue_self
  · intro replacement
    rw [ValueRule.apply, ValueRule.apply, onlyRight]
  · rw [ValueRule.apply, ValueRule.apply, onlyRight]

def boxMembers : List (String × Json) :=
  [("width", .number (.integer 3 (by decide) (by decide))), ("lid", .null)]

theorem sameValue_ignores_order_box :
    (Json.object boxMembers).DistinctNames ∧
      (Json.object boxMembers).Rearranged (.object boxMembers.reverse) ∧
      (Json.object boxMembers).sameValue (.object boxMembers.reverse) ∧
      (ValueRule.skip (.object boxMembers.reverse)).apply (.object boxMembers) =
        (ValueRule.skip (.object boxMembers)).apply (.object boxMembers) := by
  have distinct : (Json.object boxMembers).DistinctNames := by
    apply Regular.distinctNames
    decide
  have moved : (Json.object boxMembers).Rearranged (.object boxMembers.reverse) :=
    .of_perm (by decide) boxMembers.reverse_perm.symm
  rcases sameValue_ignores_order distinct distinct moved moved with ⟨_, _, same, _, skips⟩
  exact ⟨distinct, moved, same, skips⟩

end Json

end Graft
