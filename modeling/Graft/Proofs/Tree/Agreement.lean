import Graft.Proofs.Path.Position
import Graft.Tree.Store

/-!
# Agreement of two trees along a path

Two trees agree along a path if both have every node on the way, the nodes above the last one are
arrays in both or in neither, and the last node is the same. What a change does elsewhere does not
show along the path: the path leads to the same node and takes the same positions in arrays.
-/

namespace Graft

namespace KeyPath

/-- Neither path leads to the other's node or to a node above it. -/
def Apart (left right : KeyPath) : Prop := ¬left <+: right ∧ ¬right <+: left

theorem Apart.symm {left right : KeyPath} (apart : Apart left right) : Apart right left :=
  ⟨apart.2, apart.1⟩

theorem not_apart_nil (path : KeyPath) : ¬Apart [] path := by
  rintro ⟨notAbove, _⟩
  exact notAbove List.nil_prefix

theorem apart_cons_iff {left right : String} {leftRest rightRest : KeyPath} :
    Apart (left :: leftRest) (right :: rightRest) ↔ left ≠ right ∨ Apart leftRest rightRest := by
  by_cases same : left = right
  · subst same
    simp [Apart, List.cons_prefix_cons]
  · simp [Apart, List.cons_prefix_cons, same, Ne.symm same]

theorem isAtOrAbove_iff {upper path : KeyPath} : upper.isAtOrAbove path ↔ upper <+: path :=
  List.isPrefixOf_iff_prefix

theorem isAtOrAbove_eq_false_iff {upper path : KeyPath} :
    upper.isAtOrAbove path = false ↔ ¬upper <+: path := by
  rw [← Bool.not_eq_true, isAtOrAbove_iff]

/-- What is listed at or below the child under a key, by its path from the child. -/
def below? {α : Type} (key : String) (listed : KeyPath × α) : Option (KeyPath × α) :=
  match listed.1 with
  | [] => none
  | first :: rest => if first = key then some (rest, listed.2) else none

theorem below?_eq_some_iff {α : Type} {key : String} {listed below : KeyPath × α} :
    below? key listed = some below ↔ listed = (key :: below.1, below.2) := by
  rcases listed with ⟨_ | ⟨first, rest⟩, told⟩
  · simp [below?]
  · rcases below with ⟨path, other⟩
    simp [below?, and_assoc]

/-- All that is listed at or below the child under a key, by the paths from the child. -/
def listBelow {α : Type} (key : String) (listed : List (KeyPath × α)) : List (KeyPath × α) :=
  listed.filterMap (below? key)

variable {α : Type} {key first : String} {rest : KeyPath} {told : α} {listed : List (KeyPath × α)}

theorem mem_listBelow {below : KeyPath × α} :
    below ∈ listBelow key listed ↔ (key :: below.1, below.2) ∈ listed := by
  simp only [listBelow, List.mem_filterMap, below?_eq_some_iff, exists_eq_right]

theorem listBelow_cons_self :
    listBelow key ((key :: rest, told) :: listed) = (rest, told) :: listBelow key listed := by
  simp [listBelow, below?]

theorem listBelow_cons_of_ne (differs : first ≠ key) :
    listBelow key ((first :: rest, told) :: listed) = listBelow key listed := by
  simp [listBelow, below?, differs]

end KeyPath

namespace Json

/-- Whether a value is an array. -/
def isArray : Json → Bool
  | .array _ => true
  | _ => false

@[simp]
theorem get?_nil (node : Json) : node.get? [] = some node := rfl

theorem get?_cons (node : Json) (key : String) (rest : KeyPath) :
    node.get? (key :: rest) = (node.child? key).bind fun child => child.get? rest := by
  rw [get?]
  cases node.child? key <;> rfl

theorem get?_append (node : Json) (upper lower : KeyPath) :
    node.get? (upper ++ lower) = (node.get? upper).bind fun inner => inner.get? lower := by
  induction upper generalizing node with
  | nil => simp
  | cons key upper ih =>
      rw [List.cons_append, get?_cons, get?_cons]
      cases node.child? key with
      | none => rfl
      | some child => exact ih child

theorem isContainer_of_child? {node child : Json} {key : String}
    (found : node.child? key = some child) : node.isContainer := by
  cases node <;> simp_all [child?, isContainer]

theorem child?_of_isLeaf {node : Json} (isLeaf : node.isLeaf) (key : String) :
    node.child? key = none := by
  cases node with
  | object members =>
      have empty : members = [] := by simpa [Json.isLeaf] using isLeaf
      simp [child?, empty]
  | array items =>
      have empty : items = #[] := by simpa [Json.isLeaf] using isLeaf
      simp [child?, empty]
  | null => rfl
  | bool value => rfl
  | number value => rfl
  | string text => rfl

theorem eq_of_prefix_of_isLeaf {root leaf found : Json} {path lower : KeyPath}
    (leads : root.get? path = some leaf) (isLeaf : leaf.isLeaf) (above : path <+: lower)
    (leadsOn : root.get? lower = some found) : lower = path := by
  rcases above with ⟨rest, rfl⟩
  rw [get?_append, leads] at leadsOn
  rcases rest with _ | ⟨key, rest⟩
  · simp
  · simp [get?_cons, child?_of_isLeaf isLeaf] at leadsOn

theorem changeMember_spec {α : Type} (name : String) (change : Json → Json × α)
    (members : List (String × Json)) :
    (changeMember name change members).1.lookup name =
        (members.lookup name).map (fun child => (change child).1) ∧
      (∀ other, other ≠ name →
        (changeMember name change members).1.lookup other = members.lookup other) ∧
      (changeMember name change members).2 =
        (members.lookup name).map (fun child => (change child).2) := by
  induction members with
  | nil => simp [changeMember]
  | cons member rest ih =>
      rcases member with ⟨first, value⟩
      by_cases isFirst : first = name
      · subst isFirst
        refine ⟨by simp [changeMember], ?_, by simp [changeMember]⟩
        intro other differs
        simp [changeMember, List.lookup_cons, beq_eq_false_iff_ne.mpr differs]
      · have missed : (name == first) = false := beq_eq_false_iff_ne.mpr (Ne.symm isFirst)
        rcases ih with ⟨self, others, told⟩
        simp only [changeMember, isFirst, if_false, List.lookup_cons, missed]
        refine ⟨self, ?_, told⟩
        intro other differs
        rw [others other differs]

theorem changeItem_spec {α : Type} (position : Nat) (change : Json → Json × α)
    (items : Array Json) :
    (changeItem position change items).1[position]? =
        (items[position]?).map (fun child => (change child).1) ∧
      (∀ other, other ≠ position →
        (changeItem position change items).1[other]? = items[other]?) ∧
      (changeItem position change items).2 =
        (items[position]?).map (fun child => (change child).2) := by
  unfold changeItem
  split
  case isTrue inside =>
    refine ⟨?_, ?_, ?_⟩
    · simp [inside]
    · intro other differs
      simp [Array.getElem?_setIfInBounds_ne (Ne.symm differs),
        Array.getElem?_set_ne _ (Ne.symm differs)]
    · simp [inside]
  case isFalse outside => simp [Array.getElem?_eq_none (Nat.le_of_not_lt outside)]

/-- A change of one child replaces that child, leaves the other children alone and keeps the kind of
their parent. -/
theorem changeChild_spec {α : Type} (key : String) (change : Json → Json × α) (node : Json) :
    (changeChild key change node).1.isArray = node.isArray ∧
      (changeChild key change node).1.child? key =
        (node.child? key).map (fun child => (change child).1) ∧
      (∀ other, other ≠ key →
        (changeChild key change node).1.child? other = node.child? other) ∧
      (changeChild key change node).2 =
        (node.child? key).map (fun child => (change child).2) := by
  cases node with
  | object members =>
      rcases changeMember_spec key change members with ⟨self, others, told⟩
      exact ⟨rfl, self, others, told⟩
  | array items =>
      rcases spelled : arrayIndex? key with _ | position
      · simp [changeChild, child?, spelled]
      · rcases changeItem_spec position change items with ⟨self, others, told⟩
        simp only [changeChild, child?, spelled, Option.bind_some]
        refine ⟨rfl, self, ?_, told⟩
        intro other differs
        rcases otherSpelled : arrayIndex? other with _ | otherPosition
        · rfl
        · apply others
          rintro rfl
          exact differs (key_eq_of_arrayIndex? otherSpelled spelled)
  | null => simp [changeChild, child?]
  | bool value => simp [changeChild, child?]
  | number value => simp [changeChild, child?]
  | string text => simp [changeChild, child?]

/-- Both trees lead along the path, through nodes of the same kinds, to the same node. -/
def AgreeAlong : KeyPath → Json → Json → Prop
  | [], left, right => left = right
  | key :: rest, left, right =>
      left.isArray = right.isArray ∧
        ∃ leftChild rightChild, left.child? key = some leftChild ∧
          right.child? key = some rightChild ∧ AgreeAlong rest leftChild rightChild

theorem AgreeAlong.refl {path : KeyPath} {node found : Json}
    (leads : node.get? path = some found) : AgreeAlong path node node := by
  induction path generalizing node with
  | nil => rfl
  | cons key rest ih =>
      rw [get?_cons] at leads
      rcases Option.bind_eq_some_iff.mp leads with ⟨child, isChild, leadsOn⟩
      exact ⟨rfl, child, child, isChild, isChild, ih leadsOn⟩

/-- Trees whose roots have the same kind and the same first child agree below it. -/
theorem AgreeAlong.of_child?_eq {key : String} {rest : KeyPath} {left right found : Json}
    (sameKind : right.isArray = left.isArray) (sameChild : right.child? key = left.child? key)
    (leads : left.get? (key :: rest) = some found) : AgreeAlong (key :: rest) left right := by
  rw [get?_cons] at leads
  rcases Option.bind_eq_some_iff.mp leads with ⟨child, isChild, leadsOn⟩
  exact ⟨sameKind.symm, child, child, isChild, sameChild.trans isChild, .refl leadsOn⟩

theorem AgreeAlong.get?_eq {path : KeyPath} {left right : Json}
    (agree : AgreeAlong path left right) : right.get? path = left.get? path := by
  induction path generalizing left right with
  | nil => simpa using agree.symm
  | cons key rest ih =>
      rcases agree with ⟨_, leftChild, rightChild, isLeft, isRight, below⟩
      rw [get?_cons, get?_cons, isLeft, isRight]
      exact ih below

/-- Whether a path leads to an item of an array. -/
def inArray (node : Json) (path : KeyPath) : Bool := (node.get? path.dropLast).any isArray

theorem AgreeAlong.inArray_eq {path : KeyPath} {left right : Json} (nonempty : path ≠ [])
    (agree : AgreeAlong path left right) : right.inArray path = left.inArray path := by
  induction path generalizing left right with
  | nil => exact absurd rfl nonempty
  | cons key rest ih =>
      rcases agree with ⟨sameKind, leftChild, rightChild, isLeft, isRight, below⟩
      rcases rest with _ | ⟨next, rest⟩
      · exact sameKind.symm
      · have belowSame := ih (by simp) below
        simp only [inArray, List.dropLast_cons_cons, get?_cons, isLeft, isRight] at belowSame ⊢
        exact belowSame

theorem arraySteps_cons (location : KeyPath) (key : String) (rest : KeyPath) (node : Json) :
    arraySteps location (key :: rest) node =
      (if node.isArray then (arrayIndex? key).toList.map (location, ·) else []) ++
        ((node.child? key).map (arraySteps (location.child key) rest)).getD [] := by
  simp only [arraySteps]
  generalize node.child? key = child
  cases child <;> cases node <;> cases arrayIndex? key <;> rfl

theorem AgreeAlong.arraySteps_eq {path : KeyPath} {left right : Json} (location : KeyPath)
    (agree : AgreeAlong path left right) :
    arraySteps location path right = arraySteps location path left := by
  induction path generalizing location left right with
  | nil => rfl
  | cons key rest ih =>
      rcases agree with ⟨sameKind, leftChild, rightChild, isLeft, isRight, below⟩
      rw [arraySteps_cons, arraySteps_cons, isLeft, isRight, sameKind]
      simp only [Option.map_some, Option.getD_some]
      rw [ih (location.child key) below]

/-- A change of one child does not show along a path to another child; along a path into the child
it shows as what it does there. -/
theorem AgreeAlong.changeChild {α : Type} {key : String} {change : Json → Json × α}
    {node found : Json} {other : String} {rest : KeyPath}
    (leads : node.get? (other :: rest) = some found)
    (below : key = other → ∀ child, node.child? other = some child →
      AgreeAlong rest child (change child).1) :
    AgreeAlong (other :: rest) node (changeChild key change node).1 := by
  rcases changeChild_spec key change node with ⟨sameKind, self, others, _⟩
  by_cases isKey : key = other
  · subst isKey
    rw [get?_cons] at leads
    rcases Option.bind_eq_some_iff.mp leads with ⟨child, isChild, _⟩
    refine ⟨sameKind.symm, child, (change child).1, isChild, ?_, below rfl child isChild⟩
    rw [self, isChild]
    rfl
  · exact .of_child?_eq sameKind (others other (Ne.symm isKey)) leads

end Json

end Graft
