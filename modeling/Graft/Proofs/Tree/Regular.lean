import Graft.Proofs.Tree.Leaves

/-!
# Regular trees

A tree is regular if the names in each object are distinct and all positions fit a 64-bit word. The
trees that a run is given are regular: an object holds one member of each name, and an array has no
more items than a word can count. Each leaf of a regular tree is found at its path, each leaf that a
path finds is listed, and the paths of two leaves are apart.
-/

namespace Graft.Json

open KeyPath (Apart)

/-- The names in each object are distinct, and every position fits a 64-bit word. -/
inductive Regular : Json → Prop where
  | scalar {node : Json} (noContainer : node.isContainer = false) : Regular node
  | array {items : List Json} (fits : items.length ≤ UInt64.size)
      (each : ∀ item ∈ items, Regular item) : Regular (.array ⟨items⟩)
  | object {members : List (String × Json)} (distinct : (members.map Prod.fst).Nodup)
      (each : ∀ member ∈ members, Regular member.2) : Regular (.object members)

theorem regular_array_iff {items : List Json} :
    Regular (.array ⟨items⟩) ↔ items.length ≤ UInt64.size ∧ ∀ item ∈ items, Regular item := by
  constructor
  · rintro (noContainer | ⟨fits, each⟩)
    · cases noContainer
    · exact ⟨fits, each⟩
  · rintro ⟨fits, each⟩
    exact .array fits each

theorem regular_object_iff {members : List (String × Json)} :
    Regular (.object members) ↔
      (members.map Prod.fst).Nodup ∧ ∀ member ∈ members, Regular member.2 := by
  constructor
  · rintro (noContainer | _ | ⟨distinct, each⟩)
    · cases noContainer
    · exact ⟨distinct, each⟩
  · rintro ⟨distinct, each⟩
    exact .object distinct each

mutual

/-- Decides whether a tree is regular. -/
def decRegular : (node : Json) → Decidable (Regular node)
  | .null | .bool _ | .number _ | .string _ => isTrue (.scalar rfl)
  | .array ⟨items⟩ =>
      let _ := decRegularItems items
      decidable_of_iff _ regular_array_iff.symm
  | .object members =>
      let _ := decRegularMembers members
      decidable_of_iff _ regular_object_iff.symm

/-- Decides whether all items are regular. -/
def decRegularItems : (items : List Json) → Decidable (∀ item ∈ items, Regular item)
  | [] => isTrue (by simp)
  | item :: items =>
      let _ := decRegular item
      let _ := decRegularItems items
      decidable_of_iff _ List.forall_mem_cons.symm

/-- Decides whether the values of all members are regular. -/
def decRegularMembers : (members : List (String × Json)) →
    Decidable (∀ member ∈ members, Regular member.2)
  | [] => isTrue (by simp)
  | (_, value) :: members =>
      let _ := decRegular value
      let _ := decRegularMembers members
      decidable_of_iff _ List.forall_mem_cons.symm

end

instance (node : Json) : Decidable (Regular node) := decRegular node

theorem Regular.fits {items : List Json} (regular : Regular (.array ⟨items⟩)) :
    items.length ≤ UInt64.size :=
  (regular_array_iff.mp regular).1

theorem Regular.distinct {members : List (String × Json)} (regular : Regular (.object members)) :
    (members.map Prod.fst).Nodup :=
  (regular_object_iff.mp regular).1

theorem lookup_eq_some_iff_mem {members : List (String × Json)}
    (distinct : (members.map Prod.fst).Nodup) {name : String} {value : Json} :
    members.lookup name = some value ↔ (name, value) ∈ members := by
  induction members with
  | nil => simp
  | cons member rest ih =>
      rcases member with ⟨first, firstValue⟩
      simp only [List.map_cons, List.nodup_cons] at distinct
      rcases distinct with ⟨notLater, restDistinct⟩
      rw [List.lookup_cons, List.mem_cons, Prod.mk.injEq]
      by_cases isFirst : name = first
      · subst isFirst
        have notInRest : (name, value) ∉ rest := by
          intro later
          exact notLater (List.mem_map_of_mem later)
        simp [notInRest, eq_comm]
      · simp [beq_eq_false_iff_ne.mpr isFirst, isFirst, ih restDistinct]

theorem value_eq_of_mem {members : List (String × Json)} (distinct : (members.map Prod.fst).Nodup)
    {name : String} {first second : Json} (isFirst : (name, first) ∈ members)
    (isSecond : (name, second) ∈ members) : first = second := by
  rw [← lookup_eq_some_iff_mem distinct] at isFirst isSecond
  exact Option.some.inj (isFirst.symm.trans isSecond)

theorem Regular.child {node child : Json} {key : String} (regular : Regular node)
    (isChild : node.child? key = some child) : Regular child := by
  cases regular with
  | scalar noContainer =>
      rw [isContainer_of_child? isChild] at noContainer
      cases noContainer
  | @array items fits each =>
      rcases Option.bind_eq_some_iff.mp isChild with ⟨position, _, found⟩
      exact each child (List.mem_of_getElem? (by simpa using found))
  | object distinct each =>
      exact each _ ((lookup_eq_some_iff_mem distinct).mp isChild)

theorem Regular.get? {node inner : Json} {path : KeyPath} (regular : Regular node)
    (leads : node.get? path = some inner) : Regular inner := by
  induction path generalizing node with
  | nil =>
      cases leads
      exact regular
  | cons key rest ih =>
      rw [get?_cons] at leads
      rcases Option.bind_eq_some_iff.mp leads with ⟨child, isChild, leadsOn⟩
      exact ih (regular.child isChild) leadsOn

theorem child?_array {items : List Json} {position : Nat} (fits : position < UInt64.size) :
    (Json.array ⟨items⟩).child? (toString position) = items[position]? := by
  have spelled : arrayIndex? (toString position) = some position := arrayIndex?_repr fits
  rw [child?, spelled]
  simp

theorem mem_childLeaves {key : String} {child : Json} {path : KeyPath} {value : Json} :
    (path, value) ∈ childLeaves key child ↔
      if child.isLeaf then path = [key] ∧ value = child
      else ∃ rest, path = key :: rest ∧ (rest, value) ∈ child.relativeLeaves := by
  unfold childLeaves
  split
  · simp
  · simp only [List.mem_map, Prod.mk.injEq, Prod.exists]
    constructor
    · rintro ⟨rest, _, inside, rfl, rfl⟩
      exact ⟨rest, rfl, inside⟩
    · rintro ⟨rest, rfl, inside⟩
      exact ⟨rest, value, inside, rfl, rfl⟩

theorem mem_itemLeaves {leaf : KeyPath × Json} {start : Nat} {items : List Json} :
    leaf ∈ itemLeaves start items ↔
      ∃ offset item, items[offset]? = some item ∧
        leaf ∈ childLeaves (toString (start + offset)) item := by
  induction items generalizing start with
  | nil => simp [itemLeaves]
  | cons item items ih =>
      rw [itemLeaves_cons, List.mem_append, ih]
      constructor
      · rintro (here | ⟨offset, other, found, later⟩)
        · exact ⟨0, item, rfl, here⟩
        · refine ⟨offset + 1, other, found, ?_⟩
          rwa [← Nat.add_assoc, Nat.add_right_comm]
      · rintro ⟨_ | offset, other, found, inside⟩
        · cases found
          exact Or.inl inside
        · refine Or.inr ⟨offset, other, found, ?_⟩
          rwa [Nat.add_right_comm, Nat.add_assoc]

theorem mem_memberLeaves {leaf : KeyPath × Json} {members : List (String × Json)} :
    leaf ∈ memberLeaves members ↔ ∃ member ∈ members, leaf ∈ childLeaves member.1 member.2 := by
  induction members with
  | nil => simp [memberLeaves]
  | cons member members ih =>
      rw [memberLeaves_cons, List.mem_append, ih]
      simp

theorem Regular.mem_relativeLeaves {node : Json} (regular : Regular node)
    {leaf : KeyPath × Json} :
    leaf ∈ node.relativeLeaves ↔
      ∃ key child, node.child? key = some child ∧ leaf ∈ childLeaves key child := by
  cases regular with
  | scalar noContainer =>
      cases node <;> simp [isContainer] at noContainer <;> simp [relativeLeaves, child?]
  | @array items fits each =>
      rw [relativeLeaves, mem_itemLeaves]
      constructor
      · rintro ⟨offset, item, found, inside⟩
        have bound : offset < items.length := (List.getElem?_eq_some_iff.mp found).1
        rw [Nat.zero_add] at inside
        exact ⟨toString offset, item, (child?_array (by omega)).trans found, inside⟩
      · rintro ⟨key, child, isChild, inside⟩
        rcases Option.bind_eq_some_iff.mp isChild with ⟨position, spelled, found⟩
        rcases arrayIndex?_eq_some_iff.mp spelled with ⟨_, rfl⟩
        exact ⟨position, child, by simpa using found, by rwa [Nat.zero_add]⟩
  | object distinct each =>
      rw [relativeLeaves, mem_memberLeaves]
      simp only [child?, lookup_eq_some_iff_mem distinct, Prod.exists]

theorem not_mem_relativeLeaves_nil {node value : Json} (regular : Regular node) :
    ([], value) ∉ node.relativeLeaves := by
  intro inside
  rcases regular.mem_relativeLeaves.mp inside with ⟨key, child, _, inChild⟩
  rw [mem_childLeaves] at inChild
  split at inChild
  · rcases inChild with ⟨impossible, _⟩
    cases impossible
  · rcases inChild with ⟨_, impossible, _⟩
    cases impossible

/-- The listed leaves of a regular tree are the leaves that paths find below its root. -/
theorem Regular.mem_relativeLeaves_iff {node : Json} (regular : Regular node) {path : KeyPath}
    {value : Json} :
    (path, value) ∈ node.relativeLeaves ↔
      path ≠ [] ∧ node.get? path = some value ∧ value.isLeaf := by
  induction path generalizing node with
  | nil => simp [not_mem_relativeLeaves_nil regular]
  | cons key rest ih =>
      rw [regular.mem_relativeLeaves, get?_cons]
      have below : ∀ child, node.child? key = some child →
          ((key :: rest, value) ∈ childLeaves key child ↔
            child.get? rest = some value ∧ value.isLeaf) := by
        intro child isChild
        rw [mem_childLeaves]
        split
        case isTrue isLeaf =>
          rcases rest with _ | ⟨next, others⟩
          · simp only [true_and, get?_nil, Option.some.injEq]
            constructor
            · rintro rfl
              exact ⟨rfl, isLeaf⟩
            · rintro ⟨rfl, _⟩
              rfl
          · simp [get?_cons, child?_of_isLeaf isLeaf]
        case isFalse notLeaf =>
          simp only [List.cons.injEq, true_and, exists_eq_left', ih (regular.child isChild)]
          constructor
          · exact And.right
          · rintro ⟨leads, isLeaf⟩
            refine ⟨?_, leads, isLeaf⟩
            rintro rfl
            cases leads
            exact notLeaf isLeaf
      constructor
      · rintro ⟨otherKey, child, isChild, inside⟩
        have sameKey : otherKey = key := by
          rw [mem_childLeaves] at inside
          split at inside
          · cases inside.1
            rfl
          · rcases inside with ⟨_, same, _⟩
            cases same
            rfl
        subst sameKey
        rcases (below child isChild).mp inside with ⟨leads, isLeaf⟩
        rw [isChild]
        exact ⟨by simp, leads, isLeaf⟩
      · rintro ⟨_, leads, isLeaf⟩
        rcases Option.bind_eq_some_iff.mp leads with ⟨child, isChild, leadsOn⟩
        exact ⟨key, child, isChild, (below child isChild).mpr ⟨leadsOn, isLeaf⟩⟩

theorem pairwise_childLeaves {key : String} {child : Json}
    (below : child.relativeLeaves.Pairwise fun left right => Apart left.1 right.1) :
    (childLeaves key child).Pairwise fun left right => Apart left.1 right.1 := by
  unfold childLeaves
  split
  · exact List.pairwise_singleton _ _
  · apply List.Pairwise.map _ ?_ below
    intro left right apart
    exact KeyPath.apart_cons_iff.mpr (Or.inr apart)

theorem exists_eq_cons_of_mem_childLeaves {key : String} {child : Json} {leaf : KeyPath × Json}
    (inside : leaf ∈ childLeaves key child) : ∃ rest, leaf.1 = key :: rest := by
  rw [mem_childLeaves] at inside
  split at inside
  · exact ⟨[], inside.1⟩
  · rcases inside with ⟨rest, same, _⟩
    exact ⟨rest, same⟩

/-- Leaves of children with different keys are apart. -/
theorem apart_of_mem_childLeaves {leftKey rightKey : String} {leftChild rightChild : Json}
    {left right : KeyPath × Json} (differs : leftKey ≠ rightKey)
    (inLeft : left ∈ childLeaves leftKey leftChild)
    (inRight : right ∈ childLeaves rightKey rightChild) : Apart left.1 right.1 := by
  rcases exists_eq_cons_of_mem_childLeaves inLeft with ⟨leftRest, isLeft⟩
  rcases exists_eq_cons_of_mem_childLeaves inRight with ⟨rightRest, isRight⟩
  rw [isLeft, isRight]
  exact KeyPath.apart_cons_iff.mpr (Or.inl differs)

theorem Regular.pairwise_apart {node : Json} (regular : Regular node) :
    node.relativeLeaves.Pairwise fun left right => Apart left.1 right.1 := by
  induction regular with
  | @scalar node noContainer =>
      cases node <;> simp [isContainer] at noContainer <;> simp [relativeLeaves]
  | @array items fits each ih =>
      have apart : ∀ start, start + items.length ≤ UInt64.size →
          (itemLeaves start items).Pairwise fun left right => Apart left.1 right.1 := by
        clear fits each
        induction items with
        | nil =>
            intro start _
            exact List.Pairwise.nil
        | cons item items itemsIh =>
            intro start fits
            rcases List.forall_mem_cons.mp ih with ⟨ofItem, ofItems⟩
            simp only [List.length_cons] at fits
            rw [itemLeaves_cons, List.pairwise_append]
            refine ⟨pairwise_childLeaves ofItem, itemsIh ofItems (start + 1) (by omega), ?_⟩
            intro left inLeft right inRight
            rcases mem_itemLeaves.mp inRight with ⟨offset, other, found, inOther⟩
            have bound : offset < items.length := (List.getElem?_eq_some_iff.mp found).1
            refine apart_of_mem_childLeaves ?_ inLeft inOther
            intro same
            have sameStart := position_eq_of_toString_eq (by omega) (by omega) same
            omega
      rw [relativeLeaves]
      exact apart 0 (by omega)
  | @object members distinct each ih =>
      rw [relativeLeaves]
      clear each
      induction members with
      | nil => exact List.Pairwise.nil
      | cons member members membersIh =>
          rcases List.forall_mem_cons.mp ih with ⟨ofMember, ofMembers⟩
          simp only [List.map_cons, List.nodup_cons] at distinct
          rw [memberLeaves_cons, List.pairwise_append]
          refine ⟨pairwise_childLeaves ofMember, membersIh distinct.2 ofMembers, ?_⟩
          intro left inLeft right inRight
          rcases mem_memberLeaves.mp inRight with ⟨other, inside, inOther⟩
          refine apart_of_mem_childLeaves ?_ inLeft inOther
          intro same
          apply distinct.1
          rw [same]
          exact List.mem_map_of_mem inside

/-- No path is listed twice. -/
theorem Regular.nodup_leafPaths {root : Json} (regular : root.Regular) : root.leafPaths.Nodup := by
  rw [leafPaths, leaves_eq_relativeLeaves]
  apply List.pairwise_map.mpr
  apply regular.pairwise_apart.imp
  intro left right apart same
  rw [same] at apart
  exact apart.1 List.prefix_rfl

end Graft.Json
