import Graft.Tree.Node

/-!
# Walking the leaves of a tree

A walk visits the leaves below a root in document order: members in their order, items by position,
and everything below one child before the next child. A leaf is a scalar or an empty container; the
root itself is never visited. The visitor carries a state and may fail, which ends the walk with the
state the failing visit left.
-/

namespace Graft.Json

universe u

variable {ε σ : Type u}

mutual

/-- Visits the leaves below the node at the given path. -/
def visitBelow (visit : KeyPath → Json → EStateM ε σ PUnit) (path : KeyPath) :
    Json → EStateM ε σ PUnit
  | .array ⟨items⟩, state => visitItems visit path 0 items state
  | .object members, state => visitMembers visit path members state
  | _, state => .ok ⟨⟩ state

/-- Visits items, the first of which has the given position in the array at the given path. -/
def visitItems (visit : KeyPath → Json → EStateM ε σ PUnit) (path : KeyPath) (position : Nat) :
    List Json → EStateM ε σ PUnit
  | [], state => .ok ⟨⟩ state
  | item :: rest, state =>
      let location := path.child (toString position)
      let outcome :=
        if item.isLeaf then visit location item state else visitBelow visit location item state
      match outcome with
      | .ok _ next => visitItems visit path (position + 1) rest next
      | .error failure final => .error failure final

/-- Visits members of the object at the given path. -/
def visitMembers (visit : KeyPath → Json → EStateM ε σ PUnit) (path : KeyPath) :
    List (String × Json) → EStateM ε σ PUnit
  | [], state => .ok ⟨⟩ state
  | (name, value) :: rest, state =>
      let location := path.child name
      let outcome :=
        if value.isLeaf then visit location value state else visitBelow visit location value state
      match outcome with
      | .ok _ next => visitMembers visit path rest next
      | .error failure final => .error failure final

end

/-- Visits every leaf below a root, in document order, until a visit fails. -/
def visitLeaves (visit : KeyPath → Json → EStateM ε σ PUnit) (root : Json) : EStateM ε σ PUnit :=
  visitBelow visit [] root

/-- The leaves below a root with their paths, in document order. -/
def leaves (root : Json) : List (KeyPath × Json) :=
  let collect (path : KeyPath) (leaf : Json) : EStateM Empty (Array (KeyPath × Json)) PUnit :=
    fun found => .ok ⟨⟩ (found.push (path, leaf))
  match visitLeaves collect root #[] with
  | .ok _ found => found.toList
  | .error impossible _ => nomatch impossible

/-- The paths of the leaves below a root, in document order. -/
def leafPaths (root : Json) : List KeyPath := root.leaves.map Prod.fst

end Graft.Json
