import Graft.Tree.Node

/-!
# Storing into a tree and taking out of it

Storing a value at a path creates the containers that are missing on the way: an array where the
next key spells a position, and an object otherwise. An array grows as far as it must, within
limits. An attempt can fail on its way; what it created until then stays.

Taking an item out of an array would move the items after it. So an item leaves `null` in its slot
when it is taken out, and slots are dropped in a step of their own.
-/

namespace Graft

/-- What stands where a container of another kind was needed. -/
inductive Obstacle where
  /-- An array, where the next key is not a position. -/
  | array
  /-- A node that has no children. -/
  | leaf
deriving DecidableEq

/-- Why a write failed. -/
inductive WriteError where
  /-- The path was that of the root. -/
  | emptyPath
  /-- The path runs through a node that cannot hold its next key. -/
  | blocked (obstacle : Obstacle) (location : KeyPath)
  /-- The position is too far past the end of the array at the location. -/
  | tooFar (position : Nat) (location : KeyPath)
deriving DecidableEq

/-- How many slots a write may leave between the end of an array and the written position. -/
def maxGap : Nat := 65536

namespace Json

/-- The empty container that can hold a key. -/
def containerFor (key : String) : Json :=
  if (arrayIndex? key).isSome then .array #[] else .object []

/-- What a missing node is created as, given the keys that lead on from it. -/
def fresh : KeyPath → Json
  | [] => .null
  | next :: _ => containerFor next

/-- Enters the first member of the given name, and creates a last member of that name if there is
none. -/
def enterMember {α : Type} (name : String) (created : Json) (change : Json → Json × α) :
    List (String × Json) → List (String × Json) × α
  | [] =>
      let (child, told) := change created
      ([(name, child)], told)
  | (other, value) :: rest =>
      if other = name then
        let (child, told) := change value
        ((other, child) :: rest, told)
      else
        let (changed, told) := enterMember name created change rest
        ((other, value) :: changed, told)

/-- Enters the item at a position of an array, and appends it after as many `null`s as it takes if
the position is past the end. -/
def enterItem {α : Type} (position : Nat) (created : Json) (change : Json → Json × α)
    (items : Array Json) : Array Json × α :=
  match changeItem position change items with
  | (changed, some told) => (changed, told)
  | (unchanged, none) =>
      let (child, told) := change created
      ((unchanged ++ Array.replicate (position - unchanged.size) Json.null).push child, told)

/-- Stores a value below the node at `location`, at the keys that lead on from there. Gives the node
as the attempt left it, and either whether a container was replaced or why the attempt failed.

A node whose path is vacated is not entered as it stands but begun afresh. -/
def store (isVacated : KeyPath → Bool) (value : Json) :
    (location keys : KeyPath) → (node : Json) → Json × Except WriteError Bool
  | _, [], node => (value, .ok node.isContainer)
  | location, key :: rest, node =>
      let below := location.child key
      let enter (child : Json) : Json × Except WriteError Bool :=
        store isVacated value below rest
          (if !rest.isEmpty && isVacated below then fresh rest else child)
      match node with
      | .object members =>
          let (changed, outcome) := enterMember key (fresh rest) enter members
          (.object changed, outcome)
      | .array items =>
          match arrayIndex? key with
          | none => (.array items, .error (.blocked .array location))
          | some position =>
              if items.size + maxGap < position then
                (.array items, .error (.tooFar position location))
              else
                let (changed, outcome) := enterItem position (fresh rest) enter items
                (.array changed, outcome)
      | other => (other, .error (.blocked .leaf location))

/-- The positions that a path takes in the arrays on its way, each with the path of its array. -/
def arraySteps : (location keys : KeyPath) → (node : Json) → List (KeyPath × Nat)
  | _, [], _ => []
  | location, key :: rest, node =>
      let further :=
        match node.child? key with
        | some child => arraySteps (location.child key) rest child
        | none => []
      match node, arrayIndex? key with
      | .array _, some position => (location, position) :: further
      | _, _ => further

/-- A child that was taken out of its parent. -/
structure Removal where
  /-- The child. -/
  value : Json
  /-- Whether it left a vacated slot behind. -/
  leavesSlot : Bool

/-- Takes the child under a key out of a node. A member disappears; an item leaves `null`. -/
def takeChild (key : String) (node : Json) : Json × Option Removal :=
  match node with
  | .object members =>
      match members.lookup key with
      | some value => (.object (eraseMember key members), some ⟨value, false⟩)
      | none => (.object members, none)
  | .array items =>
      match arrayIndex? key with
      | some position =>
          let (changed, taken) := changeItem position (fun item => (.null, item)) items
          (.array changed, taken.map fun value => ⟨value, true⟩)
      | none => (.array items, none)
  | other => (other, none)

/-- Drops the items of an array whose positions are to be dropped. -/
def dropItems (dropped : Nat → Bool) (node : Json) : Json :=
  match node with
  | .array items =>
      let kept := items.toList.zipIdx.filterMap fun (item, position) =>
        if dropped position then none else some item
      .array kept.toArray
  | other => other

end Json

end Graft
