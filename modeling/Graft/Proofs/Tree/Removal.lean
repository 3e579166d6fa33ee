import Graft.Proofs.Tree.Agreement

/-!
# What taking out does

A member that is taken out is gone, and an item that is taken out leaves `null`. Nothing else
changes, so the removal does not show along a path that is apart from the removed one.
-/

namespace Graft.Json

theorem lookup_eraseMember_of_ne {name other : String} (differs : other ≠ name)
    (members : List (String × Json)) :
    (eraseMember name members).lookup other = members.lookup other := by
  induction members with
  | nil => rfl
  | cons member rest ih =>
      rcases member with ⟨first, value⟩
      by_cases isFirst : first = name
      · subst isFirst
        simp [eraseMember, List.lookup_cons, beq_eq_false_iff_ne.mpr differs]
      · simp only [eraseMember] at ih
        simp [eraseMember, isFirst, List.lookup_cons, ih]

/-- Taking out a child tells what it was and leaves the other children alone. Out of an array it
leaves `null` behind. -/
theorem takeChild_spec (key : String) (node : Json) :
    (takeChild key node).1.isArray = node.isArray ∧
      (∀ other, other ≠ key → (takeChild key node).1.child? other = node.child? other) ∧
      (takeChild key node).2 = (node.child? key).map (fun child => ⟨child, node.isArray⟩) ∧
      (node.isArray →
        (takeChild key node).1.child? key = (node.child? key).map fun _ => .null) := by
  cases node with
  | object members =>
      rcases found : members.lookup key with _ | child
      · simp [takeChild, child?, found, isArray]
      · simp only [takeChild, child?, found, isArray]
        refine ⟨trivial, fun other differs => lookup_eraseMember_of_ne differs members, rfl, ?_⟩
        intro impossible
        cases impossible
  | array items =>
      rcases spelled : arrayIndex? key with _ | position
      · simp [takeChild, child?, spelled, isArray]
      · rcases changeItem_spec position (fun item => (Json.null, item)) items with
          ⟨self, others, told⟩
        simp only [takeChild, child?, spelled, isArray, Option.bind_some, told]
        refine ⟨trivial, ?_, by cases items[position]? <;> rfl, fun _ => self⟩
        intro other differs
        rcases otherSpelled : arrayIndex? other with _ | otherPosition
        · rfl
        · apply others
          rintro rfl
          exact differs (key_eq_of_arrayIndex? otherSpelled spelled)
  | null => simp [takeChild, child?, isArray]
  | bool value => simp [takeChild, child?, isArray]
  | number value => simp [takeChild, child?, isArray]
  | string text => simp [takeChild, child?, isArray]

/-- A removal does not show along a path that is apart from the removed one. -/
theorem AgreeAlong.takeChild {key : String} {parent other : KeyPath} {node found : Json}
    (apart : KeyPath.Apart (parent ++ [key]) other) (leads : node.get? other = some found) :
    AgreeAlong other node (changeAt (takeChild key) parent node).1 := by
  induction parent generalizing other node with
  | nil =>
      rcases other with _ | ⟨otherKey, otherRest⟩
      · exact absurd apart.symm (KeyPath.not_apart_nil _)
      · rcases takeChild_spec key node with ⟨sameKind, others, _⟩
        have differs : otherKey ≠ key := by
          rcases KeyPath.apart_cons_iff.mp apart with differs | restApart
          · exact Ne.symm differs
          · exact absurd restApart (KeyPath.not_apart_nil otherRest)
        exact .of_child?_eq sameKind (others otherKey differs) leads
  | cons first parent ih =>
      rcases other with _ | ⟨otherKey, otherRest⟩
      · exact absurd apart.symm (KeyPath.not_apart_nil _)
      · rw [changeAt]
        refine AgreeAlong.changeChild leads ?_
        intro same child isChild
        subst same
        have restApart : KeyPath.Apart (parent ++ [key]) otherRest := by
          rcases KeyPath.apart_cons_iff.mp apart with differs | restApart
          · exact absurd rfl differs
          · exact restApart
        rw [get?_cons, isChild] at leads
        exact ih restApart leads

/-- A removal tells the node that was there, and leaves a slot if it was in an array; a slot holds
`null`. -/
theorem changeAt_takeChild_spec {key : String} {parent : KeyPath} {node found : Json}
    (leads : node.get? (parent ++ [key]) = some found) :
    (changeAt (takeChild key) parent node).2 =
        some ⟨found, (node.get? parent).any isArray⟩ ∧
      ((node.get? parent).any isArray →
        (changeAt (takeChild key) parent node).1.get? (parent ++ [key]) = some .null) := by
  induction parent generalizing node with
  | nil =>
      rcases takeChild_spec key node with ⟨_, _, told, slot⟩
      rw [List.nil_append, get?_cons] at leads
      rcases Option.bind_eq_some_iff.mp leads with ⟨child, isChild, same⟩
      cases same
      refine ⟨by rw [changeAt, told, isChild]; rfl, ?_⟩
      intro inArray
      rw [changeAt, List.nil_append, get?_cons, slot inArray, isChild]
      rfl
  | cons first parent ih =>
      rw [List.cons_append, get?_cons] at leads
      rcases Option.bind_eq_some_iff.mp leads with ⟨child, isChild, leadsOn⟩
      rcases changeChild_spec first (changeAt (takeChild key) parent) node with ⟨_, self, _, told⟩
      rcases ih leadsOn with ⟨taken, slot⟩
      rw [get?_cons, isChild]
      refine ⟨by simp [changeAt, told, isChild, taken], ?_⟩
      intro isSlot
      rw [changeAt, List.cons_append, get?_cons, self, isChild]
      exact slot isSlot

end Graft.Json
