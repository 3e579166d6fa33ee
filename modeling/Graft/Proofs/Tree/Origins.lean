import Graft.Proofs.Tree.Finish
import Graft.Proofs.Tree.Growth

/-!
# Where the nodes of a grown tree come from

Leaves that are stored one after the other overwrite each other where their paths are not apart. So
the last of them is found at its path, a node that all of them pass by is still there, and every
scalar of the grown tree was there before, lies inside a value that was stored, or pads an array.
-/

namespace Graft.Json

open KeyPath (Apart)

variable {location : KeyPath} {node grown : Json}

theorem storeAll_cons_eq_ok_iff {leaf : KeyPath × Json} {leaves : List (KeyPath × Json)} :
    storeAll location (leaf :: leaves) node = (grown, .ok ()) ↔
      ∃ changed replaced,
        store (fun _ => false) leaf.2 location leaf.1 node = (changed, .ok replaced) ∧
          storeAll location leaves changed = (grown, .ok ()) := by
  rw [storeAll]
  rcases store (fun _ => false) leaf.2 location leaf.1 node with ⟨changed, error | replaced⟩ <;>
    simp

theorem storeAll_append_eq_ok_iff {first second : List (KeyPath × Json)} :
    storeAll location (first ++ second) node = (grown, .ok ()) ↔
      ∃ middle, storeAll location first node = (middle, .ok ()) ∧
        storeAll location second middle = (grown, .ok ()) := by
  rw [storeAll_append]
  rcases storeAll location first node with ⟨middle, error | _⟩ <;> simp

/-- Storing leaves that succeeds does not show along a path that is apart from all of them. -/
theorem agreeAlong_of_storeAll {leaves : List (KeyPath × Json)} {path : KeyPath} {found : Json}
    (stored : storeAll location leaves node = (grown, .ok ()))
    (apart : ∀ leaf ∈ leaves, Apart leaf.1 path) (leads : node.get? path = some found) :
    AgreeAlong path node grown := by
  induction leaves generalizing node with
  | nil =>
      cases stored
      exact .refl leads
  | cons leaf leaves ih =>
      rcases List.forall_mem_cons.mp apart with ⟨leafApart, othersApart⟩
      rcases storeAll_cons_eq_ok_iff.mp stored with ⟨changed, replaced, isStored, others⟩
      have agree : AgreeAlong path node (store (fun _ => false) leaf.2 location leaf.1 node).1 :=
        AgreeAlong.store leafApart (fun _ _ _ _ => rfl) leads
      rw [isStored] at agree
      exact agree.trans (ih others othersApart (agree.get?_eq.trans leads))

/-- The value of a stored leaf is found at its path if all later leaves are apart from it. -/
theorem get?_of_storeAll_last {before after : List (KeyPath × Json)} {leaf : KeyPath × Json}
    (stored : storeAll location (before ++ leaf :: after) node = (grown, .ok ()))
    (apart : ∀ later ∈ after, Apart later.1 leaf.1) : grown.get? leaf.1 = some leaf.2 := by
  rcases storeAll_append_eq_ok_iff.mp stored with ⟨middle, _, storedRest⟩
  rcases storeAll_cons_eq_ok_iff.mp storedRest with ⟨changed, replaced, isStored, others⟩
  have present : changed.get? leaf.1 = some leaf.2 := get?_store isStored
  exact (agreeAlong_of_storeAll others apart present).get?_eq.trans present

/-- Where a scalar of a grown tree comes from. -/
inductive Origin (before : Json) (leaves : List (KeyPath × Json)) (after : Json) (path : KeyPath)
    (scalar : Json) : Prop where
  /-- It was there before. -/
  | kept (agree : AgreeAlong path before after)
  /-- It lies inside the value of a leaf. -/
  | stored {leaf : KeyPath × Json} {rest : KeyPath} (isLeaf : leaf ∈ leaves)
      (below : path = leaf.1 ++ rest) (inside : leaf.2.get? rest = some scalar)
  /-- It pads an array. -/
  | padding (isNull : scalar = .null) (nonempty : path ≠ []) (isItem : after.inArray path)

theorem inArray_cons_cons {child : Json} {key next : String} {rest : KeyPath}
    (isChild : node.child? key = some child) :
    node.inArray (key :: next :: rest) = child.inArray (next :: rest) := by
  rw [inArray, inArray, List.dropLast_cons_cons, get?_cons, isChild]
  rfl

/-- An object gains no padding. -/
theorem child?_of_store_object {value changed : Json} {members : List (String × Json)}
    {key other : String} {rest : KeyPath} {outcome : Except WriteError Bool}
    (isStored : store (fun _ => false) value location (key :: rest) (.object members) =
      (changed, outcome)) (differs : other ≠ key) :
    changed.child? other = (Json.object members).child? other := by
  rw [store] at isStored
  cases isStored
  exact (enterMember_spec key _ _ members).2.1 other differs

theorem eq_nil_of_get?_scalar {found : Json} {path : KeyPath}
    (noContainer : node.isContainer = false) (leads : node.get? path = some found) :
    path = [] ∧ found = node := by
  rcases path with _ | ⟨key, rest⟩
  · cases leads
    exact ⟨rfl, rfl⟩
  · rw [get?_cons] at leads
    rcases Option.bind_eq_some_iff.mp leads with ⟨child, isChild, _⟩
    rw [isContainer_of_child? isChild] at noContainer
    cases noContainer

theorem isContainer_of_get?_fresh {key : String} {rest path : KeyPath} {found : Json}
    (leads : (fresh (key :: rest)).get? path = some found) : found.isContainer := by
  cases eq_nil_of_get?_fresh leads
  cases leads
  exact isContainer_fresh_cons key rest

/-- A scalar beside the child that a store enters was there before, or pads an array. -/
theorem origin_of_store_beside {value scalar child changed : Json} {key other : String}
    {rest lower : KeyPath} {outcome : Except WriteError Bool}
    (isStored : store (fun _ => false) value location (key :: rest) node = (changed, outcome))
    (enters : EntersChild key child node changed) (differs : other ≠ key)
    (leads : changed.get? (other :: lower) = some scalar) :
    Origin node [(key :: rest, value)] changed (other :: lower) scalar := by
  have leadsOn := leads
  rw [get?_cons] at leadsOn
  rcases Option.bind_eq_some_iff.mp leadsOn with ⟨found, isFound, below⟩
  rcases old : node.child? other with _ | oldChild
  · rcases enters.padded other differs old with stillMissing | isNull
    · rw [stillMissing] at isFound
      cases isFound
    · rw [isNull] at isFound
      cases isFound
      rcases eq_nil_of_get?_scalar rfl below with ⟨rfl, rfl⟩
      refine .padding rfl (by simp) ?_
      have isContainer := isContainer_of_child? isNull
      rw [enters.sameContainer] at isContainer
      cases node with
      | array items => exact enters.sameKind
      | object members =>
          rw [child?_of_store_object isStored differs, old] at isNull
          cases isNull
      | null => cases isContainer
      | bool value => cases isContainer
      | number value => cases isContainer
      | string text => cases isContainer
  · have stillThere := enters.kept other differs oldChild old
    rw [stillThere] at isFound
    cases isFound
    have ledThere : node.get? (other :: lower) = some scalar := by
      rw [get?_cons, old]
      exact below
    exact .kept (.of_child?_eq enters.sameKind (stillThere.trans old.symm) ledThere)

theorem isContainer_of_refusal?_eq_none {key : String}
    (accepts : node.refusal? location key = none) : node.isContainer := by
  cases node with
  | array items => rfl
  | object members => rfl
  | null => cases accepts
  | bool value => cases accepts
  | number value => cases accepts
  | string text => cases accepts

/-- Where a scalar of the child that a store enters comes from. -/
theorem Origin.of_entered {value scalar child changed : Json} {key : String} {rest lower : KeyPath}
    (origin : Origin (entered (fun _ => false) location key rest node) [(rest, value)] child lower
      scalar)
    (isValue : rest = [] → child = value) (enters : EntersChild key child node changed)
    (noContainer : scalar.isContainer = false) (leads : child.get? lower = some scalar) :
    Origin node [(key :: rest, value)] changed (key :: lower) scalar := by
  cases origin with
  | kept agree =>
      rcases old : node.child? key with _ | oldChild
      · rcases rest with _ | ⟨next, rest⟩
        · rw [isValue rfl] at leads
          exact .stored List.mem_cons_self rfl leads
        · rw [entered_of_child?_eq_none old] at agree
          rw [isContainer_of_get?_fresh (agree.get?_eq.symm.trans leads)] at noContainer
          cases noContainer
      · rw [entered_of_kept old (by simp)] at agree
        exact .kept ⟨enters.sameKind.symm, oldChild, child, old, enters.self, agree⟩
  | @stored leaf further isLeaf isPath inside =>
      cases List.mem_singleton.mp isLeaf
      exact .stored List.mem_cons_self (by rw [isPath]; rfl) inside
  | padding isNull nonempty isItem =>
      rcases lower with _ | ⟨next, lower⟩
      · exact absurd rfl nonempty
      · refine .padding isNull (by simp) ?_
        rw [inArray_cons_cons enters.self]
        exact isItem

/-- Every scalar of a tree into which a value was stored was there before, lies inside the value, or
pads an array. -/
theorem origin_of_store {value scalar changed : Json} {keys path : KeyPath}
    {outcome : Except WriteError Bool}
    (isStored : store (fun _ => false) value location keys node = (changed, outcome))
    (noContainer : scalar.isContainer = false) (leads : changed.get? path = some scalar) :
    Origin node [(keys, value)] changed path scalar := by
  induction keys generalizing location node changed path outcome with
  | nil =>
      cases isStored
      exact .stored List.mem_cons_self (List.nil_append _).symm leads
  | cons key rest ih =>
      rcases refused : node.refusal? location key with _ | error
      · rcases store_of_not_refused (fun _ => false) value location rest refused with
          ⟨_, entering, enters⟩
        have same := isStored.symm.trans entering
        cases same
        rcases path with _ | ⟨other, lower⟩
        · cases leads
          rw [enters.sameContainer, isContainer_of_refusal?_eq_none refused] at noContainer
          cases noContainer
        · by_cases isEntered : other = key
          · subst isEntered
            have below := leads
            rw [get?_cons, enters.self] at below
            apply (ih rfl below).of_entered ?_ enters noContainer below
            rintro rfl
            rfl
          · exact origin_of_store_beside isStored enters isEntered leads
      · rw [store_of_refusal? refused] at isStored
        cases isStored
        exact .kept (.refl leads)

/-- Every scalar of a tree that has grown by leaves was there before, lies inside the value of a
leaf, or pads an array. -/
theorem origin_of_storeAll {leaves : List (KeyPath × Json)} {path : KeyPath} {scalar : Json}
    (stored : storeAll location leaves node = (grown, .ok ()))
    (noContainer : scalar.isContainer = false) (leads : grown.get? path = some scalar) :
    Origin node leaves grown path scalar := by
  induction leaves generalizing node with
  | nil =>
      cases stored
      exact .kept (.refl leads)
  | cons leaf leaves ih =>
      rcases storeAll_cons_eq_ok_iff.mp stored with ⟨changed, replaced, isStored, others⟩
      cases ih others with
      | kept agree =>
          have ledThere := agree.get?_eq.symm.trans leads
          cases origin_of_store isStored noContainer ledThere with
          | kept agreeFirst => exact .kept (agreeFirst.trans agree)
          | stored isLeaf below inside =>
              cases List.mem_singleton.mp isLeaf
              exact .stored List.mem_cons_self below inside
          | padding isNull nonempty isItem =>
              refine .padding isNull nonempty ?_
              rw [agree.inArray_eq nonempty]
              exact isItem
      | stored isLeaf below inside =>
          exact .stored (List.mem_cons_of_mem _ isLeaf) below inside
      | padding isNull nonempty isItem => exact .padding isNull nonempty isItem

end Graft.Json
