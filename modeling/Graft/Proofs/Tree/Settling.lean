import Graft.Proofs.Tree.Fates
import Graft.Proofs.Tree.Removal
import Graft.Proofs.Tree.Store

/-!
# Settling by removal and writing

Taking the leaf at a path out of a tree and then storing a value at the same path settles its fate:
all nodes above the leaf are there, so that storing enters them and creates nothing. It does not
show along a path that is apart from the leaf.
-/

namespace Graft.Json

open KeyPath (Apart)

theorem changeMember_congr {α β : Type} {name : String} {first : Json → Json × α}
    {second : Json → Json × β} {members : List (String × Json)}
    (same : ∀ child, members.lookup name = some child → (first child).1 = (second child).1) :
    (changeMember name first members).1 = (changeMember name second members).1 := by
  induction members with
  | nil => rfl
  | cons member rest ih =>
      rcases member with ⟨other, value⟩
      simp only [changeMember]
      by_cases isName : other = name
      · subst isName
        simp [same value (by simp)]
      · have missed : (name == other) = false := beq_eq_false_iff_ne.mpr (Ne.symm isName)
        rw [List.lookup_cons, missed] at same
        simp [isName, ih same]

/-- A change of a child is what it does to this child; what it tells does not matter. -/
theorem changeChild_congr {α β : Type} {key : String} {first : Json → Json × α}
    {second : Json → Json × β} {node : Json}
    (same : ∀ child, node.child? key = some child → (first child).1 = (second child).1) :
    (changeChild key first node).1 = (changeChild key second node).1 := by
  cases node with
  | object members =>
      simp only [changeChild]
      rw [changeMember_congr same]
  | array items =>
      simp only [changeChild]
      cases spelled : arrayIndex? key with
      | none => rfl
      | some position =>
          simp only [changeItem]
          split
          case isTrue inside =>
            have isChild : (Json.array items).child? key = some items[position] := by
              simp [child?, spelled, inside]
            simp only [same _ isChild]
          case isFalse => rfl
  | null => rfl
  | bool value => rfl
  | number value => rfl
  | string text => rfl

theorem changeMember_changeMember {α β : Type} {name : String} {first : Json → Json × α}
    {second : Json → Json × β} (members : List (String × Json)) :
    (changeMember name second (changeMember name first members).1).1 =
      (changeMember name (fun child => second (first child).1) members).1 := by
  induction members with
  | nil => rfl
  | cons member rest ih =>
      simp only [changeMember]
      split
      case isTrue isFirst => simp [changeMember, isFirst]
      case isFalse differs => simp [changeMember, differs, ih]

theorem changeItem_changeItem {α β : Type} {position : Nat} {first : Json → Json × α}
    {second : Json → Json × β} (items : Array Json) :
    (changeItem position second (changeItem position first items).1).1 =
      (changeItem position (fun child => second (first child).1) items).1 := by
  by_cases inside : position < items.size
  · simp [changeItem, inside, Array.setIfInBounds]
  · simp [changeItem, inside]

theorem changeChild_changeChild {α β : Type} {key : String} {first : Json → Json × α}
    {second : Json → Json × β} (node : Json) :
    (changeChild key second (changeChild key first node).1).1 =
      (changeChild key (fun child => second (first child).1) node).1 := by
  cases node with
  | object members => simp only [changeChild, changeMember_changeMember]
  | array items =>
      simp only [changeChild]
      cases spelled : arrayIndex? key with
      | none => simp
      | some position => simp only [changeItem_changeItem]
  | null => rfl
  | bool value => rfl
  | number value => rfl
  | string text => rfl

theorem changeMember_self {name : String} (members : List (String × Json)) :
    (changeMember name (fun child => (child, ())) members).1 = members := by
  induction members with
  | nil => rfl
  | cons member rest ih =>
      simp only [changeMember]
      split
      · rfl
      · rw [ih]

theorem changeChild_self (key : String) (node : Json) :
    (changeChild key (fun child => (child, ())) node).1 = node := by
  cases node with
  | object members => simp only [changeChild, changeMember_self]
  | array items =>
      simp only [changeChild]
      cases arrayIndex? key with
      | none => rfl
      | some position =>
          by_cases inside : position < items.size
          · simp [changeItem, Array.setIfInBounds, inside]
          · simp [changeItem, inside]
  | null => rfl
  | bool value => rfl
  | number value => rfl
  | string text => rfl

theorem enterMember_of_lookup {α : Type} {name : String} (created : Json)
    (change : Json → Json × α) {members : List (String × Json)} {child : Json}
    (found : members.lookup name = some child) :
    enterMember name created change members =
      ((changeMember name change members).1, (change child).2) := by
  induction members with
  | nil => cases found
  | cons member rest ih =>
      rcases member with ⟨first, value⟩
      simp only [enterMember, changeMember]
      by_cases isFirst : first = name
      · subst isFirst
        simp only [List.lookup_cons_self, Option.some.injEq] at found
        simp [found]
      · have missed : (name == first) = false := beq_eq_false_iff_ne.mpr (Ne.symm isFirst)
        rw [List.lookup_cons, missed] at found
        simp [isFirst, ih found]

/-- Storing below a child that is there, and is not begun afresh, changes this child. -/
theorem store_cons_of_child? {isVacated : KeyPath → Bool} {location : KeyPath} {key : String}
    {rest : KeyPath} {node child : Json} (isChild : node.child? key = some child)
    (clear : rest ≠ [] → isVacated (location.child key) = false) (value : Json) :
    store isVacated value location (key :: rest) node =
      ((changeChild key (store isVacated value (location.child key) rest) node).1,
        (store isVacated value (location.child key) rest child).2) := by
  have entersChild : ∀ inner, (if !rest.isEmpty && isVacated (location.child key) then fresh rest
      else inner) = inner := by
    intro inner
    rcases rest with _ | ⟨next, rest⟩
    · rfl
    · simp [clear]
  cases node with
  | object members =>
      simp only [child?] at isChild
      simp only [store, entersChild, enterMember_of_lookup _ _ isChild, changeChild]
  | array items =>
      rcases Option.bind_eq_some_iff.mp isChild with ⟨position, spelled, found⟩
      have inside : position < items.size := (Array.getElem?_eq_some_iff.mp found).1
      have near : ¬items.size + maxGap < position := by omega
      have isItem : items[position] = child := (Array.getElem?_eq_some_iff.mp found).2
      simp only [store, spelled, near, if_false, entersChild, enterItem, changeChild, changeItem,
        inside, dif_pos, isItem]
  | null => cases isChild
  | bool value => cases isChild
  | number value => cases isChild
  | string text => cases isChild

theorem fst_store_singleton (isVacated : KeyPath → Bool) (value : Json) (location : KeyPath)
    (key : String) (node : Json) :
    (store isVacated value location [key] node).1 =
      (store (fun _ => false) value [] [key] node).1 := by
  cases node with
  | object members => rfl
  | array items =>
      simp only [store]
      cases arrayIndex? key with
      | none => rfl
      | some position =>
          simp only
          split
          · rfl
          · rfl
  | null => rfl
  | bool value => rfl
  | number value => rfl
  | string text => rfl

theorem refusal?_takeChild {location : KeyPath} {key : String} {node child : Json}
    (isChild : node.child? key = some child) :
    (takeChild key node).1.refusal? location key = none := by
  cases node with
  | object members =>
      simp only [child?] at isChild
      simp only [takeChild, isChild, refusal?]
  | array items =>
      rcases Option.bind_eq_some_iff.mp isChild with ⟨position, spelled, found⟩
      have inside : position < items.size := (Array.getElem?_eq_some_iff.mp found).1
      have near : ¬items.size + maxGap < position := by omega
      simp [takeChild, spelled, refusal?, changeItem, inside, near]
  | null => cases isChild
  | bool value => cases isChild
  | number value => cases isChild
  | string text => cases isChild

theorem settleAt_stays (path : KeyPath) (node : Json) : settleAt .stays path node = node := by
  induction path generalizing node with
  | nil => rfl
  | cons key rest ih =>
      rcases rest with _ | ⟨next, rest⟩
      · rfl
      · rw [settleAt_cons _ _ (by simp)]
        simp only [ih]
        exact changeChild_self key node

theorem settleAt_goes (parent : KeyPath) (key : String) (node : Json) :
    settleAt .goes (parent ++ [key]) node = (changeAt (takeChild key) parent node).1 := by
  induction parent generalizing node with
  | nil => rfl
  | cons first parent ih =>
      rw [List.cons_append, settleAt_cons _ _ (by simp), changeAt]
      exact changeChild_congr fun child _ => ih child

/-- A removal followed by a write at the same path succeeds and settles the leaf. -/
theorem store_changeAt_takeChild {isVacated : KeyPath → Bool} {location parent : KeyPath}
    {key : String} {node found : Json} (leads : node.get? (parent ++ [key]) = some found)
    (clear : ∀ upper, upper <+: parent → upper ≠ [] → isVacated (location ++ upper) = false)
    (value : Json) :
    ∃ replaced, store isVacated value location (parent ++ [key])
        (changeAt (takeChild key) parent node).1 =
      (settleAt (.becomes value) (parent ++ [key]) node, .ok replaced) := by
  induction parent generalizing location node with
  | nil =>
      rw [List.nil_append, get?_cons] at leads
      rcases Option.bind_eq_some_iff.mp leads with ⟨child, isChild, _⟩
      rcases store_of_not_refused isVacated value location [] (refusal?_takeChild isChild) with
        ⟨changed, stored, _⟩
      have outcome := congrArg Prod.snd stored
      have settled := fst_store_singleton isVacated value location key (takeChild key node).1
      exact ⟨_, Prod.ext settled outcome⟩
  | cons first parent ih =>
      rw [List.cons_append, get?_cons] at leads
      rcases Option.bind_eq_some_iff.mp leads with ⟨child, isChild, leadsOn⟩
      have firstClear : isVacated (location.child first) = false :=
        clear [first] (by simp) (by simp)
      have restClear : ∀ upper, upper <+: parent → upper ≠ [] →
          isVacated (location.child first ++ upper) = false := by
        intro upper above _
        rw [child_append]
        exact clear (first :: upper) (List.cons_prefix_cons.mpr ⟨rfl, above⟩) (by simp)
      rcases ih leadsOn restClear with ⟨replaced, below⟩
      have changedChild := (changeChild_spec first (changeAt (takeChild key) parent) node).2.1
      rw [isChild, Option.map_some] at changedChild
      refine ⟨replaced, ?_⟩
      rw [List.cons_append, changeAt, store_cons_of_child? changedChild (fun _ => firstClear),
        changeChild_changeChild, below, settleAt_cons _ _ (by simp)]
      refine Prod.ext (changeChild_congr ?_) rfl
      intro other isOther
      rw [isChild] at isOther
      cases isOther
      rw [below]

theorem settleChild_spec (fate : Fate) (key : String) (node : Json) :
    (settleChild fate key node).isArray = node.isArray ∧
      ∀ other, other ≠ key → ∀ child, node.child? other = some child →
        (settleChild fate key node).child? other = some child := by
  rcases takeChild_spec key node with ⟨sameKind, others, _⟩
  cases fate with
  | stays => exact ⟨rfl, fun _ _ _ isChild => isChild⟩
  | goes =>
      exact ⟨sameKind, fun other differs child isChild => (others other differs).trans isChild⟩
  | becomes value =>
      simp only [settleChild]
      rcases refused : (takeChild key node).1.refusal? [] key with _ | error
      · rcases store_of_not_refused (fun _ => false) value [] [] refused with
          ⟨changed, stored, enters⟩
        rw [stored]
        refine ⟨enters.sameKind.trans sameKind, ?_⟩
        intro other differs child isChild
        exact enters.kept other differs child ((others other differs).trans isChild)
      · rw [store_of_refusal? refused]
        exact ⟨sameKind, fun other differs child isChild =>
          (others other differs).trans isChild⟩

theorem AgreeAlong.settleAt {path other : KeyPath} {node found : Json} (apart : Apart path other)
    (fate : Fate) (leads : node.get? other = some found) :
    AgreeAlong other node (settleAt fate path node) := by
  induction path generalizing other node with
  | nil => exact absurd apart (KeyPath.not_apart_nil other)
  | cons key rest ih =>
      rcases other with _ | ⟨otherKey, otherRest⟩
      · exact absurd apart.symm (KeyPath.not_apart_nil _)
      · rcases rest with _ | ⟨next, rest⟩
        · rcases settleChild_spec fate key node with ⟨sameKind, others⟩
          have differs : otherKey ≠ key := by
            rcases KeyPath.apart_cons_iff.mp apart with differs | restApart
            · exact Ne.symm differs
            · exact absurd restApart (KeyPath.not_apart_nil otherRest)
          have present := leads
          rw [get?_cons] at present
          rcases Option.bind_eq_some_iff.mp present with ⟨child, isChild, _⟩
          exact .of_child?_eq sameKind ((others otherKey differs child isChild).trans isChild.symm)
            leads
        · rw [settleAt_cons _ _ (by simp)]
          refine AgreeAlong.changeChild leads ?_
          intro same child isChild
          subst same
          have restApart : Apart (next :: rest) otherRest := by
            rcases KeyPath.apart_cons_iff.mp apart with differs | restApart
            · exact absurd rfl differs
            · exact restApart
          rw [get?_cons, isChild] at leads
          exact ih restApart leads

end Graft.Json
