import Graft.Proofs.Tree.Compaction

/-!
# What is left of a draft

What finishing leaves of a tree can be read off the draft in one pass from the root, in which every
path is that of the tree before anything is dropped. An item goes if its slot is vacated and no
later position of its array was written; nothing else changes. Slots that are in no array of the
tree, and the order in which arrays are dealt with, make no difference.
-/

namespace Graft.Draft

/-- Whether an item stays: its slot is not vacated, or a later position of its array was written. -/
def keepsItem (draft : Draft) (array : KeyPath) (position : Nat) : Bool :=
  !draft.isVacated (array.child (toString position)) || draft.written[array]?.any (position < ·)

mutual

/-- What is left of the node at a path: of an array the items that stay, of an object all
members. -/
def remains (draft : Draft) (location : KeyPath) : Json → Json
  | .array ⟨items⟩ => .array ⟨draft.remainingItems location 0 items⟩
  | .object members => .object (draft.remainingMembers location members)
  | node => node

/-- What is left of items of the array at a path, the first of which has the given position. -/
def remainingItems (draft : Draft) (location : KeyPath) (position : Nat) : List Json → List Json
  | [] => []
  | item :: rest =>
      if draft.keepsItem location position then
        draft.remains (location.child (toString position)) item ::
          draft.remainingItems location (position + 1) rest
      else draft.remainingItems location (position + 1) rest

/-- The members of the object at a path, with what is left of their values. -/
def remainingMembers (draft : Draft) (location : KeyPath) :
    List (String × Json) → List (String × Json)
  | [] => []
  | (name, value) :: rest =>
      (name, draft.remains (location.child name) value) :: draft.remainingMembers location rest

end

/-- Positions that fit a word stay unless they are doomed. -/
theorem keepsItem_eq_not_contains_doomed (draft : Draft) (array : KeyPath) {position : Nat}
    (fits : position < UInt64.size) :
    draft.keepsItem array position = !(draft.doomed.getD array ∅).contains position := by
  have isDoomed : (draft.doomed.getD array ∅).contains position ↔
      array.child (toString position) ∈ draft.vacated ∧
        ¬draft.written[array]?.any (position < ·) := by
    rw [any_lt_iff_noted]
    exact mem_doomed.trans (and_iff_right fits)
  apply Bool.eq_iff_iff.mpr
  rw [keepsItem, Bool.or_eq_true, Bool.not_eq_true', Bool.not_eq_true', Bool.eq_false_iff,
    Bool.eq_false_iff, Ne, Ne, isDoomed, isVacated, ← Std.TreeSet.mem_iff_contains,
    Decidable.not_and_iff_not_or_not, Decidable.not_not]

theorem remainingItems_eq_compactItems {draft : Draft} {location : KeyPath} {start : Nat}
    {items : List Json} (fits : start + items.length ≤ UInt64.size)
    (each : ∀ item ∈ items, ∀ location : KeyPath, draft.remains location item =
      item.compact fun path position =>
        (draft.doomed.getD (location ++ path) ∅).contains position) :
    draft.remainingItems location start items =
      Json.compactItems
        (fun path position => (draft.doomed.getD (location ++ path) ∅).contains position)
        start items := by
  induction items generalizing start with
  | nil => rfl
  | cons item rest ih =>
      rcases List.forall_mem_cons.mp each with ⟨first, others⟩
      rw [List.length_cons] at fits
      have restFits : start + 1 + rest.length ≤ UInt64.size := by omega
      have startFits : start < UInt64.size := by omega
      have restSame := ih restFits others
      have here := draft.keepsItem_eq_not_contains_doomed location startFits
      rw [remainingItems, Json.compactItems, restSame, here, first, List.append_nil]
      cases (draft.doomed.getD location ∅).contains start with
      | true => rfl
      | false => simp [KeyPath.child]

theorem remainingMembers_eq_compactMembers {draft : Draft} {location : KeyPath}
    {members : List (String × Json)}
    (each : ∀ member ∈ members, ∀ location : KeyPath, draft.remains location member.2 =
      member.2.compact fun path position =>
        (draft.doomed.getD (location ++ path) ∅).contains position) :
    draft.remainingMembers location members =
      Json.compactMembers
        (fun path position => (draft.doomed.getD (location ++ path) ∅).contains position)
        members := by
  induction members with
  | nil => rfl
  | cons member rest ih =>
      rcases List.forall_mem_cons.mp each with ⟨first, others⟩
      rw [remainingMembers, Json.compactMembers, ih others, first]
      simp [KeyPath.child]

/-- In a regular tree, the pass by the draft's own paths drops what the doomed positions say. -/
theorem remains_eq_compact (draft : Draft) {node : Json} (regular : node.Regular)
    (location : KeyPath) :
    draft.remains location node = node.compact fun path position =>
      (draft.doomed.getD (location ++ path) ∅).contains position := by
  induction regular generalizing location with
  | @scalar node noContainer =>
      rw [Json.compact_of_isContainer_eq_false noContainer]
      cases node <;> first | rfl | cases noContainer
  | array fits each ih =>
      rw [remains, Json.compact, remainingItems_eq_compactItems (by simpa using fits) ih]
  | object distinct each ih =>
      rw [remains, Json.compact, remainingMembers_eq_compactMembers ih]

/-- Finishing a draft of a regular tree leaves what stays in every array by the draft's own paths,
and changes nothing else. -/
theorem finish_eq_remains (draft : Draft) (regular : draft.root.Regular) :
    draft.finish = draft.remains [] draft.root := by
  rw [finish_eq_compact draft regular, draft.remains_eq_compact regular]
  rfl

/-- A draft in which slots of nested arrays are vacated. A later position of one array was written,
and two of the slots are in no array. -/
def nestedSlots : Draft where
  root := .object [
    ("racks", .array #[.array #[.bool true, .bool false, .null], .string "drop",
      .array #[.bool false, .bool true]]),
    ("shelf", .array #[.null, .object []])]
  vacated := .ofList [["racks", "1"], ["racks", "0", "1"], ["racks", "2", "0"], ["racks", "2", "9"],
    ["shelf", "0"], ["shelf", "1", "0"]]
  written := .ofList [(["shelf"], 1)]

theorem finish_nestedSlots :
    nestedSlots.root.Regular ∧ nestedSlots.finish = .object [
      ("racks", .array #[.array #[.bool true, .null], .array #[.bool true]]),
      ("shelf", .array #[.null, .object []])] := by
  have regular : nestedSlots.root.Regular := by decide
  refine ⟨regular, ?_⟩
  rw [finish_eq_remains nestedSlots regular]
  decide

end Graft.Draft
