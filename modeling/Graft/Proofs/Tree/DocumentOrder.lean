import Graft.Proofs.Tree.Entries

/-!
# Leaves in document order

The list of the leaves of a regular tree is complete and free of repetitions: it holds every path
below the root that leads to a scalar or an empty container, once, with what it leads to, and no
path of the list runs through the leaf of another. The list is in document order. Where two of its
paths part, the first one takes the earlier member or the smaller position.
-/

namespace Graft.Json

/-- Where a key stands among the keys of a node: how many members precede the first one of the name,
or which position the key spells. -/
def rank? (node : Json) (key : String) : Option Nat :=
  match node with
  | .object members => members.findIdx? fun member => member.1 = key
  | .array _ => arrayIndex? key
  | _ => none

/-- One path comes before another: where they part, it takes the child of smaller rank. -/
inductive Precedes : Json → KeyPath → KeyPath → Prop where
  | part {node : Json} {key otherKey : String} {rest otherRest : KeyPath} {rank otherRank : Nat}
      (isRank : node.rank? key = some rank) (isOtherRank : node.rank? otherKey = some otherRank)
      (smaller : rank < otherRank) : Precedes node (key :: rest) (otherKey :: otherRest)
  | inChild {node child : Json} {key : String} {rest otherRest : KeyPath}
      (isChild : node.child? key = some child) (precedes : Precedes child rest otherRest) :
      Precedes node (key :: rest) (key :: otherRest)

/-- Every key that a path takes in an array is the decimal form of a position. -/
def SpellsPositions : Json → KeyPath → Prop
  | _, [] => True
  | node, key :: rest =>
      (node.isArray → ∃ position < UInt64.size, key = toString position) ∧
        ∀ child, node.child? key = some child → SpellsPositions child rest

theorem spellsPositions_of_get? {node found : Json} {path : KeyPath}
    (leads : node.get? path = some found) : node.SpellsPositions path := by
  induction path generalizing node with
  | nil => trivial
  | cons key rest ih =>
      rw [get?_cons] at leads
      rcases Option.bind_eq_some_iff.mp leads with ⟨child, isChild, leadsOn⟩
      constructor
      · intro array
        cases node with
        | array items =>
            rcases Option.bind_eq_some_iff.mp isChild with ⟨position, spelled, _⟩
            exact ⟨position, arrayIndex?_eq_some_iff.mp spelled⟩
        | _ => cases array
      · intro other isOther
        rw [isChild] at isOther
        cases isOther
        exact ih leadsOn

theorem isLeaf_iff {value : Json} :
    value.isLeaf ↔ value.isContainer = false ∨ value = .array #[] ∨ value = .object [] := by
  cases value <;> simp [isLeaf, isContainer]

/-- The rank of the key of an entry is the place of the entry. -/
theorem Regular.rank?_of_getElem? {node : Json} (regular : node.Regular) {rank : Nat}
    {entry : String × Json} (isEntry : node.entries[rank]? = some entry) :
    node.rank? entry.1 = some rank := by
  cases regular with
  | scalar noContainer =>
      simp [entries_of_isContainer_eq_false noContainer] at isEntry
  | @array items fits each =>
      simp only [entries, itemEntries, List.getElem?_map, List.getElem?_zipIdx,
        Option.map_map, Option.map_eq_some_iff] at isEntry
      rcases isEntry with ⟨item, found, rfl⟩
      have bound : rank < items.length := (List.getElem?_eq_some_iff.mp found).1
      exact arrayIndex?_eq_some_iff.mpr ⟨by omega, by simp⟩
  | @object members distinct each =>
      rcases List.getElem?_eq_some_iff.mp isEntry with ⟨bound, rfl⟩
      refine List.findIdx?_eq_some_iff_getElem.mpr ⟨bound, decide_eq_true rfl, ?_⟩
      intro earlier smaller same
      have differs := List.pairwise_iff_getElem.mp (List.pairwise_map.mp distinct) earlier rank
        (Nat.lt_trans smaller bound) bound smaller
      exact differs (of_decide_eq_true same)

theorem Regular.pairwise_rank? {node : Json} (regular : node.Regular) :
    node.entries.Pairwise fun entry other =>
      ∃ rank otherRank, node.rank? entry.1 = some rank ∧ node.rank? other.1 = some otherRank ∧
        rank < otherRank := by
  apply List.pairwise_iff_getElem.mpr
  intro rank otherRank bound otherBound smaller
  exact ⟨rank, otherRank, regular.rank?_of_getElem? (List.getElem?_eq_getElem bound),
    regular.rank?_of_getElem? (List.getElem?_eq_getElem otherBound), smaller⟩

theorem memberLeaves_eq_flatMap (members : List (String × Json)) :
    memberLeaves members = members.flatMap fun member => childLeaves member.1 member.2 := by
  induction members with
  | nil => rfl
  | cons member members ih => rw [memberLeaves_cons, List.flatMap_cons, ih]

theorem pairwise_precedes_childLeaves {node child : Json} {key : String}
    (isChild : node.child? key = some child)
    (inOrder : child.relativeLeaves.Pairwise fun leaf other => child.Precedes leaf.1 other.1) :
    (childLeaves key child).Pairwise fun leaf other => node.Precedes leaf.1 other.1 := by
  unfold childLeaves
  split
  · exact List.pairwise_singleton _ _
  · apply List.Pairwise.map _ ?_ inOrder
    intro leaf other precedes
    exact .inChild isChild precedes

/-- The leaves of a tree are listed in document order. -/
theorem Regular.pairwise_precedes {node : Json} (regular : node.Regular) :
    node.relativeLeaves.Pairwise fun leaf other => node.Precedes leaf.1 other.1 := by
  induction regular using Regular.induction_entries with
  | step node regular ih =>
      rw [relativeLeaves_eq_memberLeaves, memberLeaves_eq_flatMap, List.pairwise_flatMap]
      constructor
      · intro entry inside
        exact pairwise_precedes_childLeaves (regular.child?_eq_some_iff.mpr inside)
          (ih entry inside)
      · apply regular.pairwise_rank?.imp
        rintro entry other ⟨rank, otherRank, isRank, isOtherRank, smaller⟩
          leaf inEntry otherLeaf inOther
        rcases exists_eq_cons_of_mem_childLeaves inEntry with ⟨rest, isLeaf⟩
        rcases exists_eq_cons_of_mem_childLeaves inOther with ⟨otherRest, isOtherLeaf⟩
        rw [isLeaf, isOtherLeaf]
        exact .part isRank isOtherRank smaller

/-- The leaves of a regular tree are the scalars and the empty containers that paths find below its
root, each listed once and in document order, and none above another. -/
theorem leaves_complete_in_order {root : Json} (regular : root.Regular) :
    (∀ path value, (path, value) ∈ root.leaves ↔
        path ≠ [] ∧ root.get? path = some value ∧
          (value.isContainer = false ∨ value = .array #[] ∨ value = .object []) ∧
          root.SpellsPositions path) ∧
      root.leafPaths.Nodup ∧
      (∀ path ∈ root.leafPaths, ∀ other ∈ root.leafPaths, path <+: other → path = other) ∧
      root.leafPaths.Pairwise root.Precedes := by
  have isListed : ∀ path value, (path, value) ∈ root.leaves ↔
      path ≠ [] ∧ root.get? path = some value ∧ value.isLeaf := by
    intro path value
    rw [leaves_eq_relativeLeaves, regular.mem_relativeLeaves_iff]
  refine ⟨?_, ?_, ?_, ?_⟩
  · intro path value
    rw [isListed, isLeaf_iff]
    constructor
    · rintro ⟨belowRoot, leads, isLeaf⟩
      exact ⟨belowRoot, leads, isLeaf, spellsPositions_of_get? leads⟩
    · rintro ⟨belowRoot, leads, isLeaf, _⟩
      exact ⟨belowRoot, leads, isLeaf⟩
  · rw [leafPaths, leaves_eq_relativeLeaves]
    apply List.pairwise_map.mpr
    apply regular.pairwise_apart.imp
    intro leaf other apart same
    rw [same] at apart
    exact apart.1 (List.prefix_refl _)
  · intro path isPath other isOther above
    rcases List.mem_map.mp isPath with ⟨leaf, inside, rfl⟩
    rcases List.mem_map.mp isOther with ⟨otherLeaf, otherInside, rfl⟩
    rcases (isListed leaf.1 leaf.2).mp inside with ⟨_, leads, isLeaf⟩
    rcases (isListed otherLeaf.1 otherLeaf.2).mp otherInside with ⟨_, leadsOther, _⟩
    exact (eq_of_prefix_of_isLeaf leads isLeaf above leadsOther).symm
  · rw [leafPaths, leaves_eq_relativeLeaves]
    exact List.pairwise_map.mpr regular.pairwise_precedes

/-- An object that lists a later name first and holds empty containers at two depths. -/
def shuffledTree : Json :=
  .object [("b", .array #[.null, .object [], .array #[.bool true]]), ("a", .array #[]),
    ("10", .object [("9", .null), ("10", .null)])]

theorem leaves_shuffledTree :
    shuffledTree.Regular ∧ (["b", "2", "0"], .bool true) ∈ shuffledTree.leaves ∧
      (["b", "02", "0"], .bool true) ∉ shuffledTree.leaves ∧
      shuffledTree.leafPaths.Pairwise shuffledTree.Precedes := by
  have regular : shuffledTree.Regular := by decide
  have complete := leaves_complete_in_order regular
  have leads : shuffledTree.get? ["b", "2", "0"] = some (.bool true) := rfl
  refine ⟨regular, ?_, ?_, complete.2.2.2⟩
  · exact (complete.1 _ _).mpr ⟨by simp, leads, Or.inl rfl, spellsPositions_of_get? leads⟩
  · intro inside
    cases ((complete.1 _ _).mp inside).2.1

end Graft.Json
