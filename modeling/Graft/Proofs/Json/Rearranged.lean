import Graft.Proofs.Tree.Fates

/-!
# Equality up to the order of members

Two values are rearrangements of each other if they differ at most in the order in which objects
have their members. When every leaf of a regular tree stays or is rewritten with its own value, the
image of the tree is a rearrangement of it.
-/

namespace Graft.Json

/-- The same value but for the order of members, at any depth. -/
inductive Rearranged : Json → Json → Prop where
  | refl (node : Json) : Rearranged node node
  | array {left right : List Json} (sameLength : left.length = right.length)
      (each : ∀ (position : Nat) leftItem rightItem, left[position]? = some leftItem →
        right[position]? = some rightItem → Rearranged leftItem rightItem) :
      Rearranged (.array ⟨left⟩) (.array ⟨right⟩)
  | object {left right : List (String × Json)}
      (sameNames : (left.map Prod.fst).Perm (right.map Prod.fst))
      (each : ∀ name leftValue rightValue, (name, leftValue) ∈ left →
        (name, rightValue) ∈ right → Rearranged leftValue rightValue) :
      Rearranged (.object left) (.object right)

theorem Rearranged.isArray_eq {left right : Json} (rearranged : left.Rearranged right) :
    left.isArray = right.isArray := by
  cases rearranged <;> rfl

theorem Rearranged.item {left right : List Json}
    (rearranged : (Json.array ⟨left⟩).Rearranged (.array ⟨right⟩)) {position : Nat}
    {leftItem rightItem : Json} (isLeft : left[position]? = some leftItem)
    (isRight : right[position]? = some rightItem) : leftItem.Rearranged rightItem := by
  cases rearranged with
  | refl =>
      rw [isLeft] at isRight
      cases isRight
      exact .refl leftItem
  | array sameLength each => exact each position leftItem rightItem isLeft isRight

theorem Rearranged.member {left right : List (String × Json)}
    (rearranged : (Json.object left).Rearranged (.object right))
    (distinct : (left.map Prod.fst).Nodup) {name : String} {leftValue rightValue : Json}
    (isLeft : (name, leftValue) ∈ left) (isRight : (name, rightValue) ∈ right) :
    leftValue.Rearranged rightValue := by
  cases rearranged with
  | refl =>
      cases value_eq_of_mem distinct isLeft isRight
      exact .refl leftValue
  | object sameNames each => exact each name leftValue rightValue isLeft isRight

theorem Rearranged.of_perm {members others : List (String × Json)}
    (distinct : (members.map Prod.fst).Nodup) (moved : members.Perm others) :
    (Json.object members).Rearranged (.object others) := by
  apply Rearranged.object (moved.map Prod.fst)
  intro name leftValue rightValue isLeft isRight
  cases value_eq_of_mem distinct isLeft (moved.mem_iff.mpr isRight)
  exact .refl leftValue

/-- No leaf gets another value. -/
def KeepsValues (fate : KeyPath → Json → Fate) : Prop :=
  ∀ path value, fate path value = .stays ∨ fate path value = .becomes value

theorem rearranged_itemImage {fate : KeyPath → Json → Fate} (keeps : KeepsValues fate)
    {key : String} {item : Json}
    (below : item.Rearranged (leafImage (fun path => fate (key :: path)) item)) :
    item.Rearranged (itemImage fate key item) := by
  unfold itemImage
  split
  · rcases keeps [key] item with stays | becomes
    · rw [stays]
      exact .refl item
    · rw [becomes]
      exact .refl item
  · exact below

theorem exists_of_mem_imageMembers {fate : KeyPath → Json → Fate} (keeps : KeepsValues fate)
    {members : List (String × Json)} {name : String} {image : Json}
    (inside : (name, image) ∈
      stayingMembers fate members ++ members.filterMap (rewrittenMember? fate)) :
    ∃ value, (name, value) ∈ members ∧
      (image = value ∨ image = leafImage (fun path => fate (name :: path)) value) := by
  rw [stayingMembers_eq_filterMap, List.mem_append, List.mem_filterMap, List.mem_filterMap]
    at inside
  rcases inside with ⟨member, isMember, stays⟩ | ⟨⟨other, value⟩, isMember, rewritten⟩
  · rcases stayingMember?_spec stays with ⟨rfl, sameValue⟩
    exact ⟨member.2, isMember, sameValue⟩
  · simp only [rewrittenMember?] at rewritten
    split at rewritten
    · split at rewritten
      case h_1 revised becomes =>
        rcases keeps [other] value with stays | same
        · rw [stays] at becomes
          cases becomes
        · rw [same] at becomes
          cases becomes
          cases rewritten
          exact ⟨_, isMember, Or.inl rfl⟩
      case h_2 => cases rewritten
    · cases rewritten

theorem perm_names_imageMembers {fate : KeyPath → Json → Fate} (keeps : KeepsValues fate)
    (members : List (String × Json)) :
    (members.map Prod.fst).Perm
      ((stayingMembers fate members ++ members.filterMap (rewrittenMember? fate)).map
        Prod.fst) := by
  induction members with
  | nil => exact .refl _
  | cons member rest ih =>
      rcases member with ⟨name, value⟩
      have moveBack : (name :: rest.map Prod.fst).Perm
          ((stayingMembers fate rest ++ (name, value) ::
            rest.filterMap (rewrittenMember? fate)).map Prod.fst) := by
        rw [List.map_append, List.map_cons]
        refine (List.Perm.cons name ?_).trans List.perm_middle.symm
        rwa [← List.map_append]
      rw [stayingMembers, List.filterMap_cons, rewrittenMember?]
      by_cases isLeaf : value.isLeaf
      · rcases keeps [name] value with stays | becomes
        · simpa [isLeaf, stays] using ih
        · simpa [isLeaf, becomes] using moveBack
      · simpa [isLeaf] using ih

theorem Regular.rearranged_leafImage {node : Json} (regular : node.Regular)
    {fate : KeyPath → Json → Fate} (keeps : KeepsValues fate) :
    node.Rearranged (leafImage fate node) := by
  induction regular generalizing fate with
  | @scalar node noContainer =>
      cases node with
      | array items => cases noContainer
      | object members => cases noContainer
      | null => exact .refl _
      | bool value => exact .refl _
      | number value => exact .refl _
      | string text => exact .refl _
  | @array items fits each below =>
      rw [leafImage, itemImages_eq_mapIdx]
      refine .array (by simp) ?_
      intro position leftItem rightItem isLeft isRight
      rw [List.getElem?_mapIdx, isLeft, Option.map_some, Option.some.injEq] at isRight
      subst isRight
      exact rearranged_itemImage keeps
        (below leftItem (List.mem_of_getElem? isLeft) fun path => keeps _)
  | @object members distinct each below =>
      rw [leafImage]
      refine .object (perm_names_imageMembers keeps members) ?_
      intro name leftValue rightValue isLeft isRight
      rcases exists_of_mem_imageMembers keeps isRight with ⟨value, isMember, image⟩
      cases value_eq_of_mem distinct isLeft isMember
      rcases image with rfl | rfl
      · exact .refl _
      · exact below _ isMember fun path => keeps _

end Graft.Json
