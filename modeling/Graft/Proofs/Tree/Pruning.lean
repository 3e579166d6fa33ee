import Graft.Proofs.Tree.Compaction
import Graft.Proofs.Tree.Fates

/-!
# Trees without some of their leaves

Pruning drops leaves from a tree and keeps the containers that held them, also when nothing is left
in them. Leaves that go make room for this in two steps: a member is dropped at once, while an item
leaves `null` behind and is dropped when the tree is compacted.
-/

namespace Graft.Json

mutual

/-- A tree without the leaves that go. -/
def prune (goes : KeyPath → Json → Bool) : Json → Json
  | .array ⟨items⟩ => .array ⟨pruneItems goes 0 items⟩
  | .object members => .object (pruneMembers goes members)
  | node => node

/-- The items of an array without the leaves that go; the first item has the given position. -/
def pruneItems (goes : KeyPath → Json → Bool) (position : Nat) : List Json → List Json
  | [] => []
  | item :: rest =>
      (if item.isLeaf then if goes [toString position] item then [] else [item]
      else [prune (fun path => goes (toString position :: path)) item]) ++
        pruneItems goes (position + 1) rest

/-- The members of an object without the leaves that go. -/
def pruneMembers (goes : KeyPath → Json → Bool) : List (String × Json) → List (String × Json)
  | [] => []
  | (name, value) :: rest =>
      (if value.isLeaf then if goes [name] value then [] else [(name, value)]
      else [(name, prune (fun path => goes (name :: path)) value)]) ++
        pruneMembers goes rest

end

/-- The fates of leaves some of which go while the others stay. -/
def goneIf (goes : KeyPath → Json → Bool) (path : KeyPath) (value : Json) : Fate :=
  if goes path value then .goes else .stays

theorem filterMap_rewrittenMember?_goneIf (goes : KeyPath → Json → Bool)
    (members : List (String × Json)) :
    members.filterMap (rewrittenMember? (goneIf goes)) = [] := by
  apply List.filterMap_eq_nil_iff.mpr
  intro member _
  simp only [rewrittenMember?, goneIf]
  cases goes [member.1] member.2 <;> simp

theorem leafImage_goneIf_object (goes : KeyPath → Json → Bool) (members : List (String × Json)) :
    leafImage (goneIf goes) (.object members) = .object (stayingMembers (goneIf goes) members) := by
  rw [leafImage, filterMap_rewrittenMember?_goneIf, List.append_nil]

theorem Regular.leafImage_goneIf {node : Json} (regular : node.Regular)
    (goes : KeyPath → Json → Bool) : (leafImage (goneIf goes) node).Regular := by
  induction regular generalizing goes with
  | @scalar node noContainer =>
      cases node with
      | array items => cases noContainer
      | object members => cases noContainer
      | null => exact .scalar rfl
      | bool value => exact .scalar rfl
      | number value => exact .scalar rfl
      | string text => exact .scalar rfl
  | @array items fits each ih =>
      rw [leafImage, itemImages_eq_mapIdx]
      refine .array (by simpa using fits) ?_
      intro image inside
      rcases List.mem_mapIdx.mp inside with ⟨position, bound, rfl⟩
      have isItem : items[position] ∈ items := List.getElem_mem bound
      unfold itemImage goneIf
      split
      · cases goes [toString (0 + position)] items[position] with
        | false => exact each _ isItem
        | true => exact .scalar rfl
      · exact ih _ isItem _
  | @object members distinct each ih =>
      rw [leafImage_goneIf_object, stayingMembers_eq_filterMap]
      refine .object ?_ ?_
      · have names : members.Pairwise fun left right => left.1 ≠ right.1 :=
          List.pairwise_map.mp distinct
        apply List.pairwise_map.mpr
        apply names.filterMap
        intro left right differs leftImage isLeft rightImage isRight
        rw [(stayingMember?_spec isLeft).1, (stayingMember?_spec isRight).1]
        exact differs
      · intro image inside
        rcases List.mem_filterMap.mp inside with ⟨member, isMember, stays⟩
        rcases (stayingMember?_spec stays).2 with same | below
        · rw [same]
          exact each member isMember
        · rw [below]
          exact ih member isMember fun path => goes (member.1 :: path)

theorem compact_of_isLeaf {node : Json} (isLeaf : node.isLeaf) (dropped : KeyPath → Nat → Bool) :
    compact dropped node = node := by
  cases node with
  | array items =>
      rcases items with ⟨_ | ⟨item, items⟩⟩
      · rfl
      · cases isLeaf
  | object members =>
      rcases members with _ | ⟨member, members⟩
      · rfl
      · cases isLeaf
  | null => rfl
  | bool value => rfl
  | number value => rfl
  | string text => rfl

theorem compactItems_itemImages {goes : KeyPath → Json → Bool} {dropped : KeyPath → Nat → Bool}
    {start : Nat} {items : List Json}
    (slots : ∀ (offset : Nat) item, items[offset]? = some item →
      dropped [] (start + offset) = (item.isLeaf && goes [toString (start + offset)] item))
    (below : ∀ (offset : Nat) item, items[offset]? = some item →
      compact (fun path => dropped (toString (start + offset) :: path))
          (leafImage (goneIf fun path => goes (toString (start + offset) :: path)) item) =
        prune (fun path => goes (toString (start + offset) :: path)) item) :
    compactItems dropped start (itemImages (goneIf goes) start items) =
      pruneItems goes start items := by
  induction items generalizing start with
  | nil => rfl
  | cons item rest ih =>
      have first := slots 0 item rfl
      have firstBelow := below 0 item rfl
      rw [Nat.add_zero] at first firstBelow
      have others : compactItems dropped (start + 1) (itemImages (goneIf goes) (start + 1) rest) =
          pruneItems goes (start + 1) rest := by
        apply ih
        · intro offset other found
          rw [Nat.add_assoc, Nat.add_comm 1]
          exact slots (offset + 1) other found
        · intro offset other found
          rw [Nat.add_assoc, Nat.add_comm 1]
          exact below (offset + 1) other found
      rw [itemImages, compactItems, pruneItems, others, first]
      congr 1
      by_cases isLeaf : item.isLeaf
      · simp only [isLeaf, Bool.true_and, if_true, goneIf]
        cases goes [toString start] item with
        | false => simp [compact_of_isLeaf isLeaf]
        | true => rfl
      · simp only [isLeaf, Bool.false_and, Bool.false_eq_true, if_false]
        exact congrArg (fun image => [image]) firstBelow

theorem compactMembers_stayingMembers {goes : KeyPath → Json → Bool}
    {dropped : KeyPath → Nat → Bool} {members : List (String × Json)}
    (below : ∀ name value, (name, value) ∈ members →
      compact (fun path => dropped (name :: path))
          (leafImage (goneIf fun path => goes (name :: path)) value) =
        prune (fun path => goes (name :: path)) value) :
    compactMembers dropped (stayingMembers (goneIf goes) members) = pruneMembers goes members := by
  induction members with
  | nil => rfl
  | cons member rest ih =>
      rcases member with ⟨name, value⟩
      have firstBelow := below name value List.mem_cons_self
      have others : compactMembers dropped (stayingMembers (goneIf goes) rest) =
          pruneMembers goes rest :=
        ih fun later laterValue inside => below later laterValue (List.mem_cons_of_mem _ inside)
      rw [compactMembers_eq_map] at others ⊢
      rw [stayingMembers, pruneMembers, List.map_append, others]
      congr 1
      by_cases isLeaf : value.isLeaf
      · simp only [isLeaf, if_true, goneIf]
        cases goes [name] value with
        | false => simp [compact_of_isLeaf isLeaf]
        | true => rfl
      · simp only [isLeaf, Bool.false_eq_true, if_false]
        exact congrArg (fun image => [(name, image)]) firstBelow

/-- Compacting the image of a tree prunes the tree, if just the items of arrays that went are
dropped. -/
theorem Regular.compact_leafImage_goneIf {node : Json} (regular : node.Regular)
    {goes : KeyPath → Json → Bool} {dropped : KeyPath → Nat → Bool}
    (slots : ∀ array items, node.get? array = some (.array ⟨items⟩) →
      ∀ (position : Nat) item, items[position]? = some item →
        dropped array position = (item.isLeaf && goes (array.child (toString position)) item)) :
    compact dropped (leafImage (goneIf goes) node) = prune goes node := by
  induction regular generalizing goes dropped with
  | @scalar node noContainer =>
      cases node with
      | array items => cases noContainer
      | object members => cases noContainer
      | null => rfl
      | bool value => rfl
      | number value => rfl
      | string text => rfl
  | @array items fits each ih =>
      rw [leafImage, compact, prune]
      congr 2
      apply compactItems_itemImages
      · intro offset item found
        rw [Nat.zero_add]
        exact slots [] items rfl offset item found
      · intro offset item found
        have inside : offset < items.length := (List.getElem?_eq_some_iff.mp found).1
        have isChild := (child?_array (by omega)).trans found
        rw [Nat.zero_add]
        apply ih item (List.mem_of_getElem? found)
        intro array inner leads
        apply slots (toString offset :: array) inner
        rw [get?_cons, isChild]
        exact leads
  | @object members distinct each ih =>
      rw [leafImage_goneIf_object, compact, prune]
      congr 1
      apply compactMembers_stayingMembers
      intro name value inside
      apply ih (name, value) inside
      intro array inner leads
      apply slots (name :: array) inner
      have isChild : (Json.object members).child? name = some value :=
        (lookup_eq_some_iff_mem distinct).mpr inside
      rw [get?_cons, isChild]
      exact leads

end Graft.Json
