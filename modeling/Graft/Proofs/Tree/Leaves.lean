import Graft.Proofs.Tree.Agreement
import Graft.Tree.Walk

/-!
# The leaves of a tree as a list

A walk visits the leaves of a tree one after the other, so it is a run over the list of the leaves.
The list is built by recursion on the tree, with paths that are relative to the node. A tree is
regular if the names in each object are distinct and all positions fit a 64-bit word; then every
leaf is found at its path.
-/

namespace Graft.Json

universe u

variable {ε σ : Type u}

mutual

/-- The leaves below a node, with their paths from the node. -/
def relativeLeaves : Json → List (KeyPath × Json)
  | .array ⟨items⟩ => itemLeaves 0 items
  | .object members => memberLeaves members
  | _ => []

/-- The leaves in items, the first of which has the given position. -/
def itemLeaves (position : Nat) : List Json → List (KeyPath × Json)
  | [] => []
  | item :: rest =>
      (if item.isLeaf then [([toString position], item)]
        else (relativeLeaves item).map fun leaf => (toString position :: leaf.1, leaf.2)) ++
        itemLeaves (position + 1) rest

/-- The leaves in members. -/
def memberLeaves : List (String × Json) → List (KeyPath × Json)
  | [] => []
  | (name, value) :: rest =>
      (if value.isLeaf then [([name], value)]
        else (relativeLeaves value).map fun leaf => (name :: leaf.1, leaf.2)) ++
        memberLeaves rest

end

/-- The leaves of one child, with their paths from its parent. -/
def childLeaves (key : String) (child : Json) : List (KeyPath × Json) :=
  if child.isLeaf then [([key], child)]
  else (relativeLeaves child).map fun leaf => (key :: leaf.1, leaf.2)

theorem itemLeaves_cons (position : Nat) (item : Json) (rest : List Json) :
    itemLeaves position (item :: rest) =
      childLeaves (toString position) item ++ itemLeaves (position + 1) rest := by
  rw [itemLeaves, childLeaves]

theorem memberLeaves_cons (name : String) (value : Json) (rest : List (String × Json)) :
    memberLeaves ((name, value) :: rest) = childLeaves name value ++ memberLeaves rest := by
  rw [memberLeaves, childLeaves]

/-- Visits listed leaves, whose paths are taken from the given one, until a visit fails. -/
def visitListed (visit : KeyPath → Json → EStateM ε σ PUnit) (path : KeyPath) :
    List (KeyPath × Json) → EStateM ε σ PUnit
  | [], state => .ok ⟨⟩ state
  | leaf :: rest, state =>
      match visit (path ++ leaf.1) leaf.2 state with
      | .ok _ next => visitListed visit path rest next
      | .error failure final => .error failure final

theorem visitListed_append (visit : KeyPath → Json → EStateM ε σ PUnit) (path : KeyPath)
    (first second : List (KeyPath × Json)) (state : σ) :
    visitListed visit path (first ++ second) state =
      match visitListed visit path first state with
      | .ok _ next => visitListed visit path second next
      | .error failure final => .error failure final := by
  induction first generalizing state with
  | nil => rfl
  | cons leaf first ih =>
      simp only [List.cons_append, visitListed]
      cases visit (path ++ leaf.1) leaf.2 state with
      | ok _ next => exact ih next
      | error failure final => rfl

theorem visitListed_map_cons (visit : KeyPath → Json → EStateM ε σ PUnit) (path : KeyPath)
    (key : String) (listed : List (KeyPath × Json)) (state : σ) :
    visitListed visit path (listed.map fun leaf => (key :: leaf.1, leaf.2)) state =
      visitListed visit (path.child key) listed state := by
  induction listed generalizing state with
  | nil => rfl
  | cons leaf listed ih =>
      simp only [List.map_cons, visitListed, KeyPath.child, List.append_assoc,
        List.singleton_append]
      cases visit (path ++ key :: leaf.1) leaf.2 state with
      | ok _ next => exact ih next
      | error failure final => rfl

/-- The visits of one child are the visits of its leaves. -/
theorem visitListed_childLeaves (visit : KeyPath → Json → EStateM ε σ PUnit) (path : KeyPath)
    (key : String) (child : Json) (state : σ) :
    visitListed visit path (childLeaves key child) state =
      if child.isLeaf then visit (path.child key) child state
      else visitListed visit (path.child key) child.relativeLeaves state := by
  unfold childLeaves
  split
  case isTrue =>
    simp only [visitListed, KeyPath.child]
    cases visit (path ++ [key]) child state <;> rfl
  case isFalse => exact visitListed_map_cons visit path key child.relativeLeaves state

mutual

theorem visitBelow_eq_visitListed (visit : KeyPath → Json → EStateM ε σ PUnit) (path : KeyPath) :
    (node : Json) → (state : σ) →
      visitBelow visit path node state = visitListed visit path node.relativeLeaves state
  | .array ⟨items⟩, state => by
      rw [visitBelow, relativeLeaves]
      exact visitItems_eq_visitListed visit path 0 items state
  | .object members, state => by
      rw [visitBelow, relativeLeaves]
      exact visitMembers_eq_visitListed visit path members state
  | .null, _ => rfl
  | .bool _, _ => rfl
  | .number _, _ => rfl
  | .string _, _ => rfl

theorem visitItems_eq_visitListed (visit : KeyPath → Json → EStateM ε σ PUnit) (path : KeyPath)
    (position : Nat) : (items : List Json) → (state : σ) →
      visitItems visit path position items state =
        visitListed visit path (itemLeaves position items) state
  | [], _ => rfl
  | item :: rest, state => by
      rw [itemLeaves_cons, visitListed_append, visitListed_childLeaves, visitItems]
      simp only [visitBelow_eq_visitListed visit _ item]
      generalize (if item.isLeaf then _ else _) = outcome
      cases outcome with
      | ok _ next => exact visitItems_eq_visitListed visit path (position + 1) rest next
      | error failure final => rfl

theorem visitMembers_eq_visitListed (visit : KeyPath → Json → EStateM ε σ PUnit) (path : KeyPath) :
    (members : List (String × Json)) → (state : σ) →
      visitMembers visit path members state =
        visitListed visit path (memberLeaves members) state
  | [], _ => rfl
  | (name, value) :: rest, state => by
      rw [memberLeaves_cons, visitListed_append, visitListed_childLeaves, visitMembers]
      simp only [visitBelow_eq_visitListed visit _ value]
      generalize (if value.isLeaf then _ else _) = outcome
      cases outcome with
      | ok _ next => exact visitMembers_eq_visitListed visit path rest next
      | error failure final => rfl

end

/-- The visitor that lists the leaves it comes to. -/
def collectLeaf (path : KeyPath) (leaf : Json) :
    EStateM Empty (Array (KeyPath × Json)) PUnit :=
  fun found => .ok ⟨⟩ (found.push (path, leaf))

theorem visitListed_collectLeaf (listed : List (KeyPath × Json))
    (found : Array (KeyPath × Json)) :
    visitListed collectLeaf [] listed found = .ok ⟨⟩ (found ++ listed) := by
  induction listed generalizing found with
  | nil => simp [visitListed]
  | cons leaf listed ih => simp [visitListed, collectLeaf, ih]

theorem leaves_eq_relativeLeaves (root : Json) : root.leaves = root.relativeLeaves := by
  have walked : visitLeaves collectLeaf root #[] = .ok ⟨⟩ root.relativeLeaves.toArray := by
    rw [visitLeaves, visitBelow_eq_visitListed, visitListed_collectLeaf]
    simp
  unfold collectLeaf at walked
  simp only [leaves, walked]

end Graft.Json
