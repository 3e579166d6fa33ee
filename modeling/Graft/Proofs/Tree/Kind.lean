import Graft.Proofs.Tree.Draft
import Graft.Proofs.Tree.Finish

/-!
# The kind of a changed tree

A value is an object, an array or no container. Whatever is stored below a node, taken out below it
or dropped from it, the node itself keeps its kind: containers are replaced where a path ends, and
nothing is written at the empty path. So a draft keeps the kind of the tree it was made of.
-/

namespace Graft

namespace Json

/-- Both values are arrays, or both are objects, or neither is a container. -/
structure SameKind (left right : Json) : Prop where
  isArray_eq : left.isArray = right.isArray
  isContainer_eq : left.isContainer = right.isContainer

theorem SameKind.refl (node : Json) : node.SameKind node := ⟨rfl, rfl⟩

theorem SameKind.trans {left middle right : Json} (first : left.SameKind middle)
    (second : middle.SameKind right) : left.SameKind right :=
  ⟨first.isArray_eq.trans second.isArray_eq, first.isContainer_eq.trans second.isContainer_eq⟩

theorem sameKind_changeChild {α : Type} (key : String) (change : Json → Json × α) (node : Json) :
    (changeChild key change node).1.SameKind node := by
  cases node with
  | array items =>
      rw [changeChild]
      split <;> exact ⟨rfl, rfl⟩
  | object members => exact ⟨rfl, rfl⟩
  | null => exact .refl _
  | bool value => exact .refl _
  | number value => exact .refl _
  | string text => exact .refl _

/-- A change at a path keeps the kind of the root if it keeps the kind of the node it changes. -/
theorem sameKind_changeAt {α : Type} {change : Json → Json × Option α}
    (keeps : ∀ node, (change node).1.SameKind node) (path : KeyPath) (node : Json) :
    (changeAt change path node).1.SameKind node := by
  cases path with
  | nil => exact keeps node
  | cons key rest =>
      have onlyChild : (changeAt change (key :: rest) node).1 =
          (changeChild key (changeAt change rest) node).1 := rfl
      rw [onlyChild]
      exact sameKind_changeChild key _ node

/-- A change at a path leaves an array wherever there was one, if it keeps the kind of the node it
changes. -/
theorem any_isArray_get?_changeAt {α : Type} {change : Json → Json × Option α}
    (keeps : ∀ node, (change node).1.SameKind node) (path : KeyPath) (node : Json) :
    ((changeAt change path node).1.get? path).any isArray = (node.get? path).any isArray := by
  induction path generalizing node with
  | nil => exact (keeps node).isArray_eq
  | cons key rest ih =>
      have self := (changeChild_spec key (changeAt change rest) node).2.1
      rw [changeAt, get?_cons, get?_cons, self]
      cases node.child? key with
      | none => rfl
      | some child => exact ih child

theorem sameKind_takeChild (key : String) (node : Json) :
    (takeChild key node).1.SameKind node := by
  cases node with
  | array items =>
      rw [takeChild]
      split <;> exact ⟨rfl, rfl⟩
  | object members =>
      rw [takeChild]
      split <;> exact ⟨rfl, rfl⟩
  | null => exact .refl _
  | bool value => exact .refl _
  | number value => exact .refl _
  | string text => exact .refl _

theorem sameKind_dropItems (dropped : Nat → Bool) (node : Json) :
    (dropItems dropped node).SameKind node := by
  cases node <;> exact ⟨rfl, rfl⟩

/-- Storing below a node, successfully or not, keeps the kind of the node. -/
theorem sameKind_store (isVacated : KeyPath → Bool) (value : Json) (location : KeyPath)
    {path : KeyPath} (nonempty : path ≠ []) (node : Json) :
    (store isVacated value location path node).1.SameKind node := by
  rcases path with _ | ⟨key, rest⟩
  · exact absurd rfl nonempty
  · rcases refused : node.refusal? location key with _ | error
    · rcases store_of_not_refused isVacated value location rest refused with
        ⟨changed, entering, enters⟩
      rw [entering]
      exact ⟨enters.sameKind, enters.sameContainer⟩
    · rw [store_of_refusal? refused]
      exact .refl node

end Json

namespace Draft

theorem sameKind_root_write (draft : Draft) (path : KeyPath) (value : Json) :
    (draft.write path value).1.root.SameKind draft.root := by
  rcases path with _ | ⟨key, rest⟩
  · exact .refl _
  · rw [draft.root_write (List.cons_ne_nil key rest)]
    exact Json.sameKind_store _ _ _ (List.cons_ne_nil key rest) _

theorem sameKind_root_remove (draft : Draft) (path : KeyPath) :
    (draft.remove path).1.root.SameKind draft.root := by
  rcases List.eq_nil_or_concat path with rfl | ⟨parent, key, isConcat⟩
  · exact .refl _
  · rw [List.concat_eq_append] at isConcat
    subst isConcat
    rw [(remove_append draft parent key).1]
    exact Json.sameKind_changeAt (Json.sameKind_takeChild key) parent _

theorem sameKind_finish (draft : Draft) : draft.finish.SameKind draft.root := by
  rw [finish, Std.TreeMap.foldr_eq_foldr_toList]
  induction draft.doomed.toList with
  | nil => exact .refl _
  | cons array arrays ih =>
      exact (Json.sameKind_changeAt (fun node => Json.sameKind_dropItems _ node) array.1 _).trans ih

end Draft

end Graft
