import Graft.Proofs.Tree.Regular

/-!
# Children with their keys

The entries of a node are its children in document order, each with its key: the members of an
object, and the items of an array under their positions. Objects and arrays are then walked alike,
and a proof about every level of a tree is one induction over entries.
-/

namespace Graft.Json

/-- Items with their positions as keys, the first of which is the given position. -/
def itemEntries (start : Nat) (items : List Json) : List (String × Json) :=
  (items.zipIdx start).map fun entry => (toString entry.2, entry.1)

/-- The children of a node with their keys, in document order. -/
def entries : Json → List (String × Json)
  | .array ⟨items⟩ => itemEntries 0 items
  | .object members => members
  | _ => []

theorem itemEntries_cons (start : Nat) (item : Json) (items : List Json) :
    itemEntries start (item :: items) =
      (toString start, item) :: itemEntries (start + 1) items := by
  simp [itemEntries, List.zipIdx_cons]

@[simp]
theorem map_snd_itemEntries (start : Nat) (items : List Json) :
    (itemEntries start items).map Prod.snd = items := by
  induction items generalizing start with
  | nil => rfl
  | cons item items ih => rw [itemEntries_cons, List.map_cons, ih]

theorem mem_itemEntries {start : Nat} {items : List Json} {key : String} {item : Json} :
    (key, item) ∈ itemEntries start items ↔
      ∃ offset, items[offset]? = some item ∧ key = toString (start + offset) := by
  induction items generalizing start with
  | nil => simp [itemEntries]
  | cons first items ih =>
      rw [itemEntries_cons, List.mem_cons, Prod.mk.injEq, ih]
      constructor
      · rintro (⟨rfl, rfl⟩ | ⟨offset, found, rfl⟩)
        · exact ⟨0, rfl, rfl⟩
        · refine ⟨offset + 1, found, ?_⟩
          rw [Nat.add_right_comm, Nat.add_assoc]
      · rintro ⟨_ | offset, found, rfl⟩
        · cases found
          exact Or.inl ⟨rfl, rfl⟩
        · refine Or.inr ⟨offset, found, ?_⟩
          rw [Nat.add_right_comm, Nat.add_assoc]

theorem itemLeaves_eq_memberLeaves (start : Nat) (items : List Json) :
    itemLeaves start items = memberLeaves (itemEntries start items) := by
  induction items generalizing start with
  | nil => rfl
  | cons item items ih => rw [itemLeaves_cons, itemEntries_cons, memberLeaves_cons, ih]

theorem relativeLeaves_eq_memberLeaves (node : Json) :
    node.relativeLeaves = memberLeaves node.entries := by
  cases node with
  | array items => exact itemLeaves_eq_memberLeaves 0 items.toList
  | object members => rfl
  | null => rfl
  | bool value => rfl
  | number value => rfl
  | string text => rfl

theorem entries_eq_nil_iff {node : Json} : node.entries = [] ↔ node.isLeaf := by
  cases node with
  | array items =>
      rcases items with ⟨_ | ⟨item, items⟩⟩
      · simp [entries, itemEntries, isLeaf]
      · simp [entries, itemEntries_cons, isLeaf]
  | object members => simp [entries, isLeaf]
  | null => simp [entries, isLeaf]
  | bool value => simp [entries, isLeaf]
  | number value => simp [entries, isLeaf]
  | string text => simp [entries, isLeaf]

theorem entries_of_isContainer_eq_false {node : Json} (noContainer : node.isContainer = false) :
    node.entries = [] := by
  cases node with
  | array items => cases noContainer
  | object members => cases noContainer
  | null => rfl
  | bool value => rfl
  | number value => rfl
  | string text => rfl

theorem mem_entries_of_child? {node child : Json} {key : String}
    (isChild : node.child? key = some child) : (key, child) ∈ node.entries := by
  cases node with
  | array items =>
      rcases Option.bind_eq_some_iff.mp isChild with ⟨position, spelled, found⟩
      rcases arrayIndex?_eq_some_iff.mp spelled with ⟨_, rfl⟩
      apply mem_itemEntries.mpr
      exact ⟨position, by simpa using found, by rw [Nat.zero_add]⟩
  | object members =>
      rcases List.lookup_eq_some_iff.mp isChild with ⟨before, after, rfl, _⟩
      simp [entries]
  | null => cases isChild
  | bool value => cases isChild
  | number value => cases isChild
  | string text => cases isChild

theorem Regular.entry {node : Json} (regular : Regular node) {entry : String × Json}
    (inside : entry ∈ node.entries) : Regular entry.2 := by
  cases regular with
  | scalar noContainer => simp [entries_of_isContainer_eq_false noContainer] at inside
  | array fits each =>
      rcases mem_itemEntries.mp inside with ⟨offset, found, _⟩
      exact each _ (List.mem_of_getElem? found)
  | object distinct each => exact each entry inside

/-- What holds of a node whenever it holds of its children holds of every regular tree. -/
@[elab_as_elim]
theorem Regular.induction_entries {motive : (node : Json) → Regular node → Prop}
    (step : ∀ node (regular : Regular node),
      (∀ entry (inside : entry ∈ node.entries), motive entry.2 (regular.entry inside)) →
        motive node regular)
    {node : Json} (regular : Regular node) : motive node regular := by
  induction regular with
  | @scalar node noContainer =>
      apply step node (.scalar noContainer)
      simp [entries_of_isContainer_eq_false noContainer]
  | @array items fits each below =>
      apply step _ (.array fits each)
      rintro ⟨key, item⟩ inside
      rcases mem_itemEntries.mp inside with ⟨offset, found, _⟩
      exact below item (List.mem_of_getElem? found)
  | object distinct each below => exact step _ (.object distinct each) below

theorem nodup_itemEntries {start : Nat} {items : List Json}
    (fits : start + items.length ≤ UInt64.size) :
    ((itemEntries start items).map Prod.fst).Nodup := by
  induction items generalizing start with
  | nil => exact List.nodup_nil
  | cons item items ih =>
      simp only [List.length_cons] at fits
      rw [itemEntries_cons, List.map_cons, List.nodup_cons]
      refine ⟨?_, ih (by omega)⟩
      intro later
      rcases List.mem_map.mp later with ⟨⟨key, other⟩, inside, same⟩
      rcases mem_itemEntries.mp inside with ⟨offset, found, rfl⟩
      have bound : offset < items.length := (List.getElem?_eq_some_iff.mp found).1
      have samePosition := position_eq_of_toString_eq (by omega) (by omega) same
      omega

theorem Regular.nodup_keys {node : Json} (regular : Regular node) :
    (node.entries.map Prod.fst).Nodup := by
  cases regular with
  | scalar noContainer => simp [entries_of_isContainer_eq_false noContainer]
  | array fits each =>
      apply nodup_itemEntries
      omega
  | object distinct each => exact distinct

theorem Regular.child?_eq_some_iff {node child : Json} {key : String} (regular : Regular node) :
    node.child? key = some child ↔ (key, child) ∈ node.entries := by
  refine ⟨mem_entries_of_child?, ?_⟩
  intro inside
  cases regular with
  | scalar noContainer => simp [entries_of_isContainer_eq_false noContainer] at inside
  | @array items fits each =>
      rcases mem_itemEntries.mp inside with ⟨position, found, rfl⟩
      have bound : position < items.length := (List.getElem?_eq_some_iff.mp found).1
      rw [Nat.zero_add, child?_array (by omega), found]
  | object distinct each => exact (lookup_eq_some_iff_mem distinct).mpr inside

end Graft.Json
