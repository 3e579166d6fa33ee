import Graft.Json.Basic
import Graft.Path.Basic

/-!
# Nodes of a tree and their children

A JSON value is seen as a tree: the children of an object are its members, the children of an array
its items, and a key-path leads from the root through children. A key reaches an item only if it is
the decimal form of the item's position.

Changing a child rebuilds the nodes above it and nothing else. The functions that change a node
also hand out whatever the change has to tell, and they give up the old child before they take the
new one, so that a tree nobody else holds is changed where it lies.
-/

namespace Graft.Json

/-- The child under a key. -/
def child? (node : Json) (key : String) : Option Json :=
  match node with
  | .object members => members.lookup key
  | .array items => (arrayIndex? key).bind fun position => items[position]?
  | _ => none

/-- The node that a key-path leads to. -/
def get? (root : Json) : KeyPath → Option Json
  | [] => some root
  | key :: rest =>
      match root.child? key with
      | some child => child.get? rest
      | none => none

/-- Changes the first member of the given name, if there is one. -/
def changeMember {α : Type} (name : String) (change : Json → Json × α) :
    List (String × Json) → List (String × Json) × Option α
  | [] => ([], none)
  | (other, value) :: rest =>
      if other = name then
        let (changed, told) := change value
        ((other, changed) :: rest, some told)
      else
        let (changed, told) := changeMember name change rest
        ((other, value) :: changed, told)

/-- Changes the item at the given position, if there is one. -/
def changeItem {α : Type} (position : Nat) (change : Json → Json × α) (items : Array Json) :
    Array Json × Option α :=
  if inside : position < items.size then
    let item := items[position]
    let others := items.set position .null inside
    let (changed, told) := change item
    (others.setIfInBounds position changed, some told)
  else (items, none)

/-- Changes the child under a key, if there is one. -/
def changeChild {α : Type} (key : String) (change : Json → Json × α) (node : Json) :
    Json × Option α :=
  match node with
  | .object members =>
      let (changed, told) := changeMember key change members
      (.object changed, told)
  | .array items =>
      match arrayIndex? key with
      | some position =>
          let (changed, told) := changeItem position change items
          (.array changed, told)
      | none => (.array items, none)
  | other => (other, none)

/-- Changes the node that a key-path leads to, if there is one. -/
def changeAt {α : Type} (change : Json → Json × Option α) : KeyPath → Json → Json × Option α
  | [], node => change node
  | key :: rest, node =>
      let (changed, told) := changeChild key (changeAt change rest) node
      (changed, told.join)

/-- Changes the node that a key-path leads to, if there is one, by a change that tells nothing. -/
def modifyAt (change : Json → Json) (path : KeyPath) (root : Json) : Json :=
  (changeAt (fun node => (change node, some ())) path root).1

end Graft.Json
