import Graft.Proofs.Json.Rearranged
import Graft.Proofs.Tree.Origins

/-!
# Storing in different orders

Two lists of leaves interchange if, for every path, both store the same leaves in the same order at
the path and above it. The nodes that are made on the way may differ while the lists are stored, and
one list may fail where the other does not. But if both can be stored, they make the same tree up to
the order of members.

What is stored below a child depends on the child and on the leaves below it alone. A child that is
missing begins as the container that its first leaf asks for; that both lists can be stored means
that all leaves ask for the same kind of container.
-/

namespace Graft.Json

open KeyPath (listBelow listBelow_cons_of_ne listBelow_cons_self mem_listBelow)

variable {location : KeyPath} {node grown : Json}

/-- What a missing node is created as when leaves are stored below it. -/
def beginning : List (KeyPath × Json) → Json
  | [] => .null
  | leaf :: _ => fresh leaf.1

/-- Leaves that can be stored below padding can be stored there as if nothing was there. -/
theorem storeAll_beginning_of_null {leaves : List (KeyPath × Json)}
    (stored : storeAll location leaves .null = (grown, .ok ())) :
    storeAll location leaves (beginning leaves) = (grown, .ok ()) := by
  rcases leaves with _ | ⟨⟨_ | ⟨key, rest⟩, value⟩, leaves⟩
  · exact stored
  · exact stored
  · rw [storeAll, store_of_refusal? rfl] at stored
    cases stored

theorem exists_store_of_storeAll_cons {key : String} {rest : KeyPath} {value : Json}
    {leaves : List (KeyPath × Json)}
    (stored : storeAll location ((key :: rest, value) :: leaves) node = (grown, .ok ())) :
    node.refusal? location key = none ∧ ∃ child changed replaced,
      store (fun _ => false) value (location.child key) rest ((node.child? key).getD (fresh rest)) =
          (child, .ok replaced) ∧
        EntersChild key child node changed ∧
        storeAll location leaves changed = (grown, .ok ()) := by
  rcases storeAll_cons_eq_ok_iff.mp stored with ⟨changed, replaced, isStored, others⟩
  rcases accepts : node.refusal? location key with _ | error
  · refine ⟨rfl, ?_⟩
    rcases store_of_not_refused (fun _ => false) value location rest accepts with
      ⟨_, entering, enters⟩
    have same := isStored.symm.trans entering
    simp only [entered, Bool.and_false, Bool.false_eq_true, if_false] at same enters
    rcases Prod.mk.inj same with ⟨rfl, outcome⟩
    exact ⟨_, changed, replaced, Prod.ext rfl outcome.symm, enters, others⟩
  · rw [store_of_refusal? accepts] at isStored
    cases isStored

/-- A child of a grown node is what its leaves make of the old child, or of a new one. -/
theorem storeAll_listBelow {leaves : List (KeyPath × Json)} {key : String} {child : Json}
    (belowRoot : ∀ leaf ∈ leaves, leaf.1 ≠ [])
    (stored : storeAll location leaves node = (grown, .ok ()))
    (isChild : grown.child? key = some child) :
    storeAll (location.child key) (listBelow key leaves)
        ((node.child? key).getD (beginning (listBelow key leaves))) = (child, .ok ()) := by
  induction leaves generalizing node with
  | nil =>
      cases stored
      rw [isChild]
      rfl
  | cons leaf leaves ih =>
      rcases leaf with ⟨_ | ⟨first, rest⟩, value⟩
      · exact absurd rfl (belowRoot _ List.mem_cons_self)
      · rcases List.forall_mem_cons.mp belowRoot with ⟨_, othersBelow⟩
        rcases exists_store_of_storeAll_cons stored with
          ⟨_, entered, changed, replaced, isStored, enters, others⟩
        have further := ih othersBelow others
        by_cases isFirst : first = key
        · subst isFirst
          rw [enters.self] at further
          rw [listBelow_cons_self]
          exact storeAll_cons_eq_ok_iff.mpr ⟨entered, replaced, isStored, further⟩
        · rw [listBelow_cons_of_ne isFirst]
          rcases old : node.child? key with _ | oldChild
          · rcases enters.padded key (Ne.symm isFirst) old with stillMissing | isNull
            · rw [stillMissing] at further
              exact further
            · rw [isNull] at further
              exact storeAll_beginning_of_null further
          · rw [enters.kept key (Ne.symm isFirst) oldChild old] at further
            exact further

/-- An object gets a member for each name under which a leaf is stored. -/
theorem storeAll_object {leaves : List (KeyPath × Json)} {members : List (String × Json)}
    (belowRoot : ∀ leaf ∈ leaves, leaf.1 ≠ []) (distinct : (members.map Prod.fst).Nodup)
    (stored : storeAll location leaves (.object members) = (grown, .ok ())) :
    ∃ grownMembers, grown = .object grownMembers ∧ (grownMembers.map Prod.fst).Nodup ∧
      ∀ name, name ∈ grownMembers.map Prod.fst ↔
        name ∈ members.map Prod.fst ∨ ∃ leaf ∈ leaves, leaf.1.head? = some name := by
  induction leaves generalizing members with
  | nil =>
      cases stored
      exact ⟨members, rfl, distinct, by simp⟩
  | cons leaf leaves ih =>
      rcases leaf with ⟨_ | ⟨first, rest⟩, value⟩
      · exact absurd rfl (belowRoot _ List.mem_cons_self)
      · rcases List.forall_mem_cons.mp belowRoot with ⟨_, othersBelow⟩
        rcases storeAll_cons_eq_ok_iff.mp stored with ⟨changed, replaced, isStored, others⟩
        rw [store] at isStored
        rcases Prod.mk.inj isStored with ⟨rfl, _⟩
        rcases ih othersBelow (nodup_map_fst_enterMember distinct) others with
          ⟨grownMembers, isGrown, grownDistinct, names⟩
        refine ⟨grownMembers, isGrown, grownDistinct, ?_⟩
        intro name
        rw [names, mem_map_fst_enterMember]
        simp [or_assoc, eq_comm]

theorem exists_position_of_store_array {key : String} {rest : KeyPath} {value changed : Json}
    {items : Array Json} {replaced : Bool}
    (stored : store (fun _ => false) value location (key :: rest) (.array items) =
      (changed, .ok replaced)) :
    ∃ position changedItems, arrayIndex? key = some position ∧ changed = .array changedItems ∧
      changedItems.size = max items.size (position + 1) := by
  simp only [store] at stored
  rcases spelled : arrayIndex? key with _ | position
  · rw [spelled] at stored
    cases stored
  · rw [spelled] at stored
    simp only at stored
    split at stored
    case isTrue => cases stored
    case isFalse =>
      rcases Prod.mk.inj stored with ⟨rfl, _⟩
      exact ⟨position, _, rfl, rfl, size_enterItem position _ _ items⟩

/-- An array takes only positions, and grows no further than to the last position taken. -/
theorem storeAll_array {leaves : List (KeyPath × Json)} {items : Array Json}
    (belowRoot : ∀ leaf ∈ leaves, leaf.1 ≠ [])
    (stored : storeAll location leaves (.array items) = (grown, .ok ())) :
    ∃ grownItems, grown = .array grownItems ∧
      (∀ leaf ∈ leaves, ∃ position, leaf.1.head?.bind arrayIndex? = some position) ∧
      ∀ bound, grownItems.size ≤ bound ↔ items.size ≤ bound ∧
        ∀ leaf ∈ leaves, ∀ position, leaf.1.head?.bind arrayIndex? = some position →
          position < bound := by
  induction leaves generalizing items with
  | nil =>
      cases stored
      exact ⟨items, rfl, by simp, by simp⟩
  | cons leaf leaves ih =>
      rcases leaf with ⟨_ | ⟨first, rest⟩, value⟩
      · exact absurd rfl (belowRoot _ List.mem_cons_self)
      · rcases List.forall_mem_cons.mp belowRoot with ⟨_, othersBelow⟩
        rcases storeAll_cons_eq_ok_iff.mp stored with ⟨changed, replaced, isStored, others⟩
        rcases exists_position_of_store_array isStored with
          ⟨position, changedItems, spelled, rfl, changedSize⟩
        rcases ih othersBelow others with ⟨grownItems, isGrown, positions, size⟩
        refine ⟨grownItems, isGrown, ?_, ?_⟩
        · exact List.forall_mem_cons.mpr ⟨⟨position, spelled⟩, positions⟩
        · intro bound
          rw [size, changedSize, List.forall_mem_cons]
          simp only [List.head?_cons, Option.bind_some, spelled, Option.some.injEq, forall_eq']
          rw [← and_assoc]
          apply and_congr_left
          intro _
          omega

/-- The leaves that are stored at a path or above it. -/
def leavesAbove (path : KeyPath) (leaves : List (KeyPath × Json)) : List (KeyPath × Json) :=
  leaves.filter fun leaf => leaf.1.isAtOrAbove path

/-- For every path, both lists store the same leaves at the path and above it, in the same order. -/
def Interchange (left right : List (KeyPath × Json)) : Prop :=
  ∀ path, leavesAbove path left = leavesAbove path right

theorem mem_leavesAbove {path : KeyPath} {leaves : List (KeyPath × Json)} {leaf : KeyPath × Json} :
    leaf ∈ leavesAbove path leaves ↔ leaf ∈ leaves ∧ leaf.1 <+: path := by
  rw [leavesAbove, List.mem_filter, KeyPath.isAtOrAbove_iff]

theorem leavesAbove_append (path : KeyPath) (first second : List (KeyPath × Json)) :
    leavesAbove path (first ++ second) = leavesAbove path first ++ leavesAbove path second :=
  List.filter_append _ _

/-- Two leaves that are stored at a path or above it are not apart. -/
theorem not_apart_of_mem_leavesAbove {path : KeyPath} {first second : List (KeyPath × Json)}
    {leaf other : KeyPath × Json} (inFirst : leaf ∈ leavesAbove path first)
    (inSecond : other ∈ leavesAbove path second) : ¬KeyPath.Apart leaf.1 other.1 := by
  rintro ⟨notAbove, notBelow⟩
  rcases List.prefix_or_prefix_of_prefix (mem_leavesAbove.mp inFirst).2
    (mem_leavesAbove.mp inSecond).2 with above | below
  · exact notAbove above
  · exact notBelow below

/-- Leaves whose paths are pairwise apart interchange with the same leaves in any order. -/
theorem interchange_of_perm {left right : List (KeyPath × Json)} (perm : left.Perm right)
    (apart : left.Pairwise fun earlier later => KeyPath.Apart earlier.1 later.1) :
    Interchange left right := by
  intro path
  have permAbove : (leavesAbove path left).Perm (leavesAbove path right) := perm.filter _
  have apartAbove : (leavesAbove path left).Pairwise fun earlier later =>
      KeyPath.Apart earlier.1 later.1 := apart.filter _
  rcases isLeft : leavesAbove path left with _ | ⟨leaf, _ | ⟨other, others⟩⟩
  · rw [isLeft] at permAbove
    exact permAbove.nil_eq
  · rw [isLeft] at permAbove
    exact permAbove.singleton_eq
  · rw [isLeft] at apartAbove
    have inLeft : leaf ∈ leavesAbove path left := by simp [isLeft]
    have otherInLeft : other ∈ leavesAbove path left := by simp [isLeft]
    exact absurd ((List.pairwise_cons.mp apartAbove).1 other List.mem_cons_self)
      (not_apart_of_mem_leavesAbove inLeft otherInLeft)

/-- Leaves that are apart from other leaves may come before or after those. -/
theorem interchange_append_comm {first second : List (KeyPath × Json)}
    (apart : ∀ leaf ∈ first, ∀ other ∈ second, KeyPath.Apart leaf.1 other.1)
    (before after : List (KeyPath × Json)) :
    Interchange (before ++ (first ++ (second ++ after)))
      (before ++ (second ++ (first ++ after))) := by
  intro path
  simp only [leavesAbove_append]
  rcases inFirst : leavesAbove path first with _ | ⟨leaf, others⟩
  · rfl
  · rcases inSecond : leavesAbove path second with _ | ⟨other, _⟩
    · rfl
    · have isFirst : leaf ∈ leavesAbove path first := by simp [inFirst]
      have isSecond : other ∈ leavesAbove path second := by simp [inSecond]
      exact absurd
        (apart leaf (mem_leavesAbove.mp isFirst).1 other (mem_leavesAbove.mp isSecond).1)
        (not_apart_of_mem_leavesAbove isFirst isSecond)

theorem Interchange.mem_iff {left right : List (KeyPath × Json)}
    (interchange : Interchange left right) {leaf : KeyPath × Json} :
    leaf ∈ left ↔ leaf ∈ right := by
  calc
    leaf ∈ left ↔ leaf ∈ leavesAbove leaf.1 left := by simp [mem_leavesAbove]
    _ ↔ leaf ∈ leavesAbove leaf.1 right := by rw [interchange]
    _ ↔ leaf ∈ right := by simp [mem_leavesAbove]

theorem Interchange.eq_nil_iff {left right : List (KeyPath × Json)}
    (interchange : Interchange left right) : left = [] ↔ right = [] := by
  simp only [List.eq_nil_iff_forall_not_mem, interchange.mem_iff]

theorem leavesAbove_listBelow (key : String) (path : KeyPath) (leaves : List (KeyPath × Json)) :
    leavesAbove path (listBelow key leaves) = listBelow key (leavesAbove (key :: path) leaves) := by
  rw [leavesAbove, leavesAbove, listBelow, listBelow, List.filter_filterMap, List.filterMap_filter]
  congr 1
  funext leaf
  rcases leaf with ⟨_ | ⟨first, rest⟩, value⟩
  · simp [KeyPath.below?]
  · by_cases isFirst : first = key
    · simp [KeyPath.below?, isFirst, KeyPath.isAtOrAbove, Option.filter]
    · simp [KeyPath.below?, isFirst]

theorem Interchange.listBelow {left right : List (KeyPath × Json)}
    (interchange : Interchange left right) (key : String) :
    Interchange (listBelow key left) (listBelow key right) := by
  intro path
  rw [leavesAbove_listBelow, leavesAbove_listBelow, interchange]

/-! ### Trees that both lists make -/

/-- Wherever both lists can be stored, below a node that is there or in place of a missing one, they
make the same tree up to the order of members. -/
def Confluent (left right : List (KeyPath × Json)) : Prop :=
  ∀ (location : KeyPath) (start : Option Json) (leftGrown rightGrown : Json),
    (∀ node, start = some node → Regular node) →
    storeAll location left (start.getD (beginning left)) = (leftGrown, .ok ()) →
    storeAll location right (start.getD (beginning right)) = (rightGrown, .ok ()) →
      leftGrown.Rearranged rightGrown

theorem storeAll_of_isContainer_eq_false {leaves : List (KeyPath × Json)}
    (belowRoot : ∀ leaf ∈ leaves, leaf.1 ≠ []) (noContainer : node.isContainer = false)
    (stored : storeAll location leaves node = (grown, .ok ())) : grown = node := by
  rcases leaves with _ | ⟨⟨_ | ⟨key, rest⟩, value⟩, leaves⟩
  · cases stored
    rfl
  · exact absurd rfl (belowRoot _ List.mem_cons_self)
  · have accepts := (exists_store_of_storeAll_cons stored).1
    rw [isContainer_of_refusal?_eq_none accepts] at noContainer
    cases noContainer

section

variable {left right : List (KeyPath × Json)} {leftGrown rightGrown : Json}

/-- Interchanging leaves that are stored below one node make rearranged trees of it if they do so of
its children. -/
theorem rearranged_of_storeAll (regular : node.Regular)
    (belowRoot : ∀ leaf ∈ left, leaf.1 ≠ []) (interchange : Interchange left right)
    (below : ∀ key, Confluent (listBelow key left) (listBelow key right))
    (storedLeft : storeAll location left node = (leftGrown, .ok ()))
    (storedRight : storeAll location right node = (rightGrown, .ok ())) :
    leftGrown.Rearranged rightGrown := by
  have rightBelowRoot : ∀ leaf ∈ right, leaf.1 ≠ [] :=
    fun leaf inside => belowRoot leaf (interchange.mem_iff.mpr inside)
  have children : ∀ key leftChild rightChild, leftGrown.child? key = some leftChild →
      rightGrown.child? key = some rightChild → leftChild.Rearranged rightChild := by
    intro key leftChild rightChild isLeft isRight
    exact below key (location.child key) (node.child? key) leftChild rightChild
      (fun child isChild => regular.child isChild)
      (storeAll_listBelow belowRoot storedLeft isLeft)
      (storeAll_listBelow rightBelowRoot storedRight isRight)
  rcases container : node.isContainer with _ | _
  · rw [storeAll_of_isContainer_eq_false belowRoot container storedLeft,
      storeAll_of_isContainer_eq_false rightBelowRoot container storedRight]
    exact .refl node
  · cases node with
    | object members =>
        rcases storeAll_object belowRoot regular.distinct storedLeft with
          ⟨leftMembers, rfl, leftDistinct, leftNames⟩
        rcases storeAll_object rightBelowRoot regular.distinct storedRight with
          ⟨rightMembers, rfl, rightDistinct, rightNames⟩
        refine .object ?_ ?_
        · apply (List.perm_ext_iff_of_nodup leftDistinct rightDistinct).mpr
          intro name
          simp only [leftNames, rightNames, interchange.mem_iff]
        · intro name leftValue rightValue isLeft isRight
          exact children name leftValue rightValue
            ((lookup_eq_some_iff_mem leftDistinct).mpr isLeft)
            ((lookup_eq_some_iff_mem rightDistinct).mpr isRight)
    | array items =>
        rcases items with ⟨items⟩
        rcases storeAll_array belowRoot storedLeft with ⟨⟨leftItems⟩, rfl, _, leftSize⟩
        rcases storeAll_array rightBelowRoot storedRight with ⟨⟨rightItems⟩, rfl, _, rightSize⟩
        simp only [List.size_toArray] at leftSize rightSize
        simp only [interchange.mem_iff] at leftSize
        have sameLength : leftItems.length = rightItems.length := by
          apply Nat.le_antisymm
          · exact (leftSize _).mpr ((rightSize _).mp (Nat.le_refl _))
          · exact (rightSize _).mpr ((leftSize _).mp (Nat.le_refl _))
        have fits : leftItems.length ≤ UInt64.size := by
          refine (leftSize _).mpr ⟨regular.fits, ?_⟩
          intro leaf _ position isPosition
          rcases Option.bind_eq_some_iff.mp isPosition with ⟨key, _, spelled⟩
          exact (arrayIndex?_eq_some_iff.mp spelled).1
        refine .array sameLength ?_
        intro position leftItem rightItem isLeft isRight
        have inside : position < leftItems.length := (List.getElem?_eq_some_iff.mp isLeft).1
        exact children (toString position) leftItem rightItem
          ((child?_array (by omega)).trans isLeft) ((child?_array (by omega)).trans isRight)
    | null => cases container
    | bool value => cases container
    | number value => cases container
    | string text => cases container

theorem isSome_arrayIndex?_of_storeAll {items : Array Json} {leaf : KeyPath × Json} {key : String}
    {rest : KeyPath} (belowRoot : ∀ leaf ∈ left, leaf.1 ≠ [])
    (stored : storeAll location left (.array items) = (leftGrown, .ok ())) (inside : leaf ∈ left)
    (isPath : leaf.1 = key :: rest) : (arrayIndex? key).isSome := by
  rcases storeAll_array belowRoot stored with ⟨_, _, positions, _⟩
  rcases positions leaf inside with ⟨position, spelled⟩
  rw [isPath] at spelled
  exact Option.isSome_iff_exists.mpr ⟨position, spelled⟩

/-- A missing node begins in the same way for both lists, for an array would take no name. -/
theorem beginning_eq (belowRoot : ∀ leaf ∈ left, leaf.1 ≠ []) (interchange : Interchange left right)
    (storedLeft : storeAll location left (beginning left) = (leftGrown, .ok ()))
    (storedRight : storeAll location right (beginning right) = (rightGrown, .ok ())) :
    beginning left = beginning right := by
  have rightBelowRoot : ∀ leaf ∈ right, leaf.1 ≠ [] :=
    fun leaf inside => belowRoot leaf (interchange.mem_iff.mpr inside)
  rcases left with _ | ⟨⟨_ | ⟨leftKey, leftRest⟩, leftValue⟩, leftLeaves⟩
  · rw [interchange.eq_nil_iff.mp rfl]
  · exact absurd rfl (belowRoot _ List.mem_cons_self)
  · rcases right with _ | ⟨⟨_ | ⟨rightKey, rightRest⟩, rightValue⟩, rightLeaves⟩
    · cases interchange.eq_nil_iff.mpr rfl
    · exact absurd rfl (rightBelowRoot _ List.mem_cons_self)
    · have inLeft := interchange.mem_iff.mpr
        (List.mem_cons_self (a := (rightKey :: rightRest, rightValue)))
      have inRight := interchange.mem_iff.mp
        (List.mem_cons_self (a := (leftKey :: leftRest, leftValue)))
      simp only [beginning, fresh, containerFor] at storedLeft storedRight ⊢
      by_cases leftSpelled : (arrayIndex? leftKey).isSome
      · rw [if_pos leftSpelled] at storedLeft ⊢
        rw [if_pos (isSome_arrayIndex?_of_storeAll belowRoot storedLeft inLeft rfl)]
      · rw [if_neg leftSpelled]
        by_cases rightSpelled : (arrayIndex? rightKey).isSome
        · rw [if_pos rightSpelled] at storedRight
          exact absurd
            (isSome_arrayIndex?_of_storeAll rightBelowRoot storedRight inRight rfl) leftSpelled
        · rw [if_neg rightSpelled]

theorem confluent_of_belowRoot (belowRoot : ∀ leaf ∈ left, leaf.1 ≠ [])
    (interchange : Interchange left right)
    (below : ∀ key, Confluent (listBelow key left) (listBelow key right)) :
    Confluent left right := by
  intro location start leftGrown rightGrown regular storedLeft storedRight
  rcases start with _ | node
  · rw [Option.getD_none] at storedLeft storedRight
    rw [← beginning_eq belowRoot interchange storedLeft storedRight] at storedRight
    have newRegular : (beginning left).Regular := by
      cases left with
      | nil => exact .scalar rfl
      | cons leaf leaves => exact regular_fresh leaf.1
    exact rearranged_of_storeAll newRegular belowRoot interchange below storedLeft storedRight
  · exact rearranged_of_storeAll (regular node rfl) belowRoot interchange below storedLeft
      storedRight

theorem exists_last_of_mem {property : KeyPath × Json → Prop} {leaves : List (KeyPath × Json)}
    (found : ∃ leaf ∈ leaves, property leaf) :
    ∃ before leaf after, leaves = before ++ leaf :: after ∧ property leaf ∧
      ∀ later ∈ after, ¬property later := by
  induction leaves with
  | nil => simp at found
  | cons leaf leaves ih =>
      by_cases later : ∃ leaf ∈ leaves, property leaf
      · rcases ih later with ⟨before, last, after, rfl, isLast, noLater⟩
        exact ⟨leaf :: before, last, after, rfl, isLast, noLater⟩
      · refine ⟨[], leaf, leaves, rfl, ?_, ?_⟩
        · simpa [later] using found
        · simpa using later

theorem eq_of_last_eq {property : KeyPath × Json → Prop} {before after otherBefore otherAfter :
    List (KeyPath × Json)} {leaf other : KeyPath × Json}
    (same : before ++ leaf :: after = otherBefore ++ other :: otherAfter) (isLast : property leaf)
    (otherIsLast : property other) (noLater : ∀ later ∈ after, ¬property later)
    (noOtherLater : ∀ later ∈ otherAfter, ¬property later) : leaf = other ∧ after = otherAfter := by
  rcases List.append_eq_append_iff.mp same with ⟨between, _, isTail⟩ | ⟨between, _, isTail⟩
  · rcases between with _ | ⟨first, between⟩
    · exact List.cons.inj isTail
    · rw [(List.cons.inj isTail).2] at noLater
      exact absurd otherIsLast (noLater other (by simp))
  · rcases between with _ | ⟨first, between⟩
    · rcases List.cons.inj isTail with ⟨isLeaf, isAfter⟩
      exact ⟨isLeaf.symm, isAfter.symm⟩
    · rw [(List.cons.inj isTail).2] at noOtherLater
      exact absurd isLast (noOtherLater leaf (by simp))

/-- If a leaf is stored at the root, the last such leaf is the same in both lists, and what comes
after it interchanges. -/
theorem Interchange.exists_after_root (interchange : Interchange left right)
    (atRoot : ∃ leaf ∈ left, leaf.1 = []) :
    ∃ value leftBefore leftAfter rightBefore rightAfter,
      left = leftBefore ++ ([], value) :: leftAfter ∧
        right = rightBefore ++ ([], value) :: rightAfter ∧
        (∀ later ∈ leftAfter, later.1 ≠ []) ∧ Interchange leftAfter rightAfter := by
  have rightAtRoot : ∃ leaf ∈ right, leaf.1 = [] := by
    rcases atRoot with ⟨leaf, inside, isRoot⟩
    exact ⟨leaf, interchange.mem_iff.mp inside, isRoot⟩
  rcases exists_last_of_mem atRoot with
    ⟨leftBefore, ⟨_, leftValue⟩, leftAfter, rfl, rfl, noLeftLater⟩
  rcases exists_last_of_mem rightAtRoot with
    ⟨rightBefore, ⟨_, rightValue⟩, rightAfter, rfl, rfl, noRightLater⟩
  have sameAfter : ∀ path, (([], leftValue) : KeyPath × Json) = ([], rightValue) ∧
      leavesAbove path leftAfter = leavesAbove path rightAfter := by
    intro path
    have rootAbove : ∀ value leaves, leavesAbove path (([], value) :: leaves) =
        ([], value) :: leavesAbove path leaves := fun _ _ => rfl
    have same := interchange path
    rw [leavesAbove_append, leavesAbove_append, rootAbove, rootAbove] at same
    exact @eq_of_last_eq (fun leaf => leaf.1 = []) _ _ _ _ _ _ same rfl rfl
      (fun later inside => noLeftLater later (mem_leavesAbove.mp inside).1)
      (fun later inside => noRightLater later (mem_leavesAbove.mp inside).1)
  cases (sameAfter []).1
  exact ⟨leftValue, leftBefore, leftAfter, rightBefore, rightAfter, rfl, rfl, noLeftLater,
    fun path => (sameAfter path).2⟩

theorem storeAll_after_root {before after : List (KeyPath × Json)} {value : Json}
    (stored : storeAll location (before ++ ([], value) :: after) node = (grown, .ok ())) :
    storeAll location after value = (grown, .ok ()) := by
  rcases storeAll_append_eq_ok_iff.mp stored with ⟨middle, _, storedRest⟩
  rcases storeAll_cons_eq_ok_iff.mp storedRest with ⟨changed, replaced, isStored, others⟩
  cases isStored
  exact others

/-- What comes before a leaf that is stored at the root does not matter. -/
theorem confluent_of_after_root
    {leftBefore leftAfter rightBefore rightAfter : List (KeyPath × Json)} {value : Json}
    (valueRegular : leftAfter ≠ [] → value.Regular)
    (interchange : Interchange leftAfter rightAfter) (after : Confluent leftAfter rightAfter) :
    Confluent (leftBefore ++ ([], value) :: leftAfter)
      (rightBefore ++ ([], value) :: rightAfter) := by
  intro location start leftGrown rightGrown _ storedLeft storedRight
  have leftRest := storeAll_after_root storedLeft
  have rightRest := storeAll_after_root storedRight
  by_cases nothing : leftAfter = []
  · rw [nothing] at leftRest
    rw [interchange.eq_nil_iff.mp nothing] at rightRest
    cases leftRest
    cases rightRest
    exact .refl value
  · have isRegular : ∀ node, some value = some node → node.Regular := by
      rintro node isValue
      cases isValue
      exact valueRegular nothing
    exact after location (some value) leftGrown rightGrown isRegular leftRest rightRest

/-- Leaves are stored inside the value of an earlier leaf only if that value is regular. -/
def StoredInRegular (leaves : List (KeyPath × Json)) : Prop :=
  leaves.Pairwise fun earlier later => earlier.1 <+: later.1 → earlier.2.Regular

theorem storedInRegular_of_pairwise_apart {leaves : List (KeyPath × Json)}
    (apart : leaves.Pairwise fun earlier later => KeyPath.Apart earlier.1 later.1) :
    StoredInRegular leaves :=
  apart.imp fun isApart above => absurd above isApart.1

theorem StoredInRegular.listBelow {leaves : List (KeyPath × Json)}
    (regular : StoredInRegular leaves) (key : String) :
    StoredInRegular (listBelow key leaves) := by
  apply List.Pairwise.filterMap _ _ regular
  intro earlier later isRegular earlierBelow isEarlier laterBelow isLater above
  rw [KeyPath.below?_eq_some_iff.mp isEarlier, KeyPath.below?_eq_some_iff.mp isLater] at isRegular
  exact isRegular (List.cons_prefix_cons.mpr ⟨rfl, above⟩)

theorem exists_forall_length_lt (leaves : List (KeyPath × Json)) :
    ∃ bound, ∀ leaf ∈ leaves, leaf.1.length < bound := by
  induction leaves with
  | nil => exact ⟨0, by simp⟩
  | cons leaf leaves ih =>
      rcases ih with ⟨bound, below⟩
      refine ⟨max bound (leaf.1.length + 1), List.forall_mem_cons.mpr ⟨by omega, ?_⟩⟩
      intro other inside
      have := below other inside
      omega

/-- Lists that interchange make the same trees up to the order of members, wherever both can be
stored. -/
theorem Interchange.confluent (interchange : Interchange left right)
    (regular : StoredInRegular left) : Confluent left right := by
  rcases exists_forall_length_lt left with ⟨bound, short⟩
  induction bound generalizing left right with
  | zero =>
      have nothing : left = [] :=
        List.eq_nil_iff_forall_not_mem.mpr fun leaf inside => Nat.not_lt_zero _ (short leaf inside)
      rw [nothing, interchange.eq_nil_iff.mp nothing]
      intro location start leftGrown rightGrown _ storedLeft storedRight
      rw [storedLeft] at storedRight
      cases storedRight
      exact .refl leftGrown
  | succ bound ih =>
      have ofBelowRoot : ∀ {left right : List (KeyPath × Json)}, Interchange left right →
          StoredInRegular left → (∀ leaf ∈ left, leaf.1.length < bound + 1) →
          (∀ leaf ∈ left, leaf.1 ≠ []) → Confluent left right := by
        intro left right interchange regular short belowRoot
        apply confluent_of_belowRoot belowRoot interchange
        intro key
        apply ih (interchange.listBelow key) (regular.listBelow key)
        intro leaf inside
        have := short _ (mem_listBelow.mp inside)
        simpa using this
      by_cases atRoot : ∃ leaf ∈ left, leaf.1 = []
      · rcases interchange.exists_after_root atRoot with
          ⟨value, leftBefore, leftAfter, rightBefore, rightAfter, rfl, rfl, belowRoot, after⟩
        rcases List.pairwise_append.mp regular with ⟨_, rootRegular, _⟩
        rcases List.pairwise_cons.mp rootRegular with ⟨valueRegular, afterRegular⟩
        apply confluent_of_after_root ?_ after
        · apply ofBelowRoot after afterRegular ?_ belowRoot
          intro leaf inside
          exact short leaf (by simp [inside])
        · intro something
          rcases List.exists_mem_of_ne_nil _ something with ⟨later, inside⟩
          exact valueRegular later inside List.nil_prefix
      · apply ofBelowRoot interchange regular short
        intro leaf inside isRoot
        exact atRoot ⟨leaf, inside, isRoot⟩

/-- Where leaves can be stored in either of two orders that interchange, they make the same tree up
to the order of members. -/
theorem Interchange.rearranged (interchange : Interchange left right)
    (inRegular : StoredInRegular left) (regular : node.Regular)
    (storedLeft : storeAll location left node = (leftGrown, .ok ()))
    (storedRight : storeAll location right node = (rightGrown, .ok ())) :
    leftGrown.Rearranged rightGrown := by
  have isRegular : ∀ start, some node = some start → start.Regular := by
    rintro start isNode
    cases isNode
    exact regular
  exact interchange.confluent inRegular location (some node) leftGrown rightGrown isRegular
    storedLeft storedRight

end

end Graft.Json
