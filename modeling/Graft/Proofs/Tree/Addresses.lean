import Graft.Proofs.Tree.Regular

/-!
# Keys as addresses of items

The key of an item is the decimal form of its position, and no other key leads to the item. So the
keys that a walk puts into its path lead back to the items it takes them from: the walk over an
array is the same if each item is fetched by its key, and in the path of a leaf every key that
stands below an array leads to the item on the way to that leaf.
-/

namespace Graft.Json

universe u

variable {ε σ : Type u}

/-- Fetches the child under a key and visits it or walks below it. -/
def visitFetched (visit : KeyPath → Json → EStateM ε σ PUnit) (path : KeyPath) (node : Json)
    (key : String) : EStateM ε σ PUnit :=
  match node.child? key with
  | some child =>
      if child.isLeaf then visit (path.child key) child else visitBelow visit (path.child key) child
  | none => pure ⟨⟩

theorem visitFetched_of_child? (visit : KeyPath → Json → EStateM ε σ PUnit) (path : KeyPath)
    {node child : Json} {key : String} (isChild : node.child? key = some child) (state : σ) :
    visitFetched visit path node key state =
      if child.isLeaf then visit (path.child key) child state
      else visitBelow visit (path.child key) child state := by
  rw [visitFetched, isChild]
  dsimp only
  split <;> rfl

/-- The walk over the last items of an array fetches each of them by the key of its position. -/
theorem visitItems_eq_forM (visit : KeyPath → Json → EStateM ε σ PUnit) (path : KeyPath)
    (done items : List Json) (fits : done.length + items.length ≤ UInt64.size) :
    visitItems visit path done.length items =
      forM (List.range' done.length items.length) fun position =>
        visitFetched visit path (.array ⟨done ++ items⟩) (toString position) := by
  induction items generalizing done with
  | nil => rfl
  | cons item rest ih =>
      simp only [List.length_cons] at fits
      have isChild :
          (Json.array ⟨done ++ item :: rest⟩).child? (toString done.length) = some item := by
        rw [child?_array (by omega)]
        simp
      have restFits : (done ++ [item]).length + rest.length ≤ UInt64.size := by
        simp only [List.length_append, List.length_singleton]
        omega
      have others := ih (done ++ [item]) restFits
      simp only [List.length_append, List.length_singleton, List.append_assoc,
        List.singleton_append] at others
      funext state
      rw [List.length_cons, List.range'_succ, List.forM_cons, visitItems, others]
      simp only [bind, EStateM.bind, visitFetched_of_child? visit path isChild]
      generalize (if item.isLeaf then _ else _) = outcome
      cases outcome <;> rfl

theorem visitBelow_array_eq_forM (visit : KeyPath → Json → EStateM ε σ PUnit) (path : KeyPath)
    {items : Array Json} (fits : items.size ≤ UInt64.size) :
    visitBelow visit path (.array items) =
      forM (List.range items.size) fun position =>
        visitFetched visit path (.array items) (toString position) := by
  rcases items with ⟨items⟩
  rw [List.range_eq_range']
  exact visitItems_eq_forM visit path [] items (by simpa using fits)

/-- Below an array, a key in the path of a leaf is the decimal form of a position, and the item at
this position is on the way to the leaf. -/
theorem Regular.item_of_mem_leaves {root : Json} (regular : root.Regular) {array rest : KeyPath}
    {key : String} {items : Array Json} {leaf : Json}
    (isLeaf : (array ++ key :: rest, leaf) ∈ root.leaves)
    (leads : root.get? array = some (.array items)) :
    ∃ (position : Nat) (item : Json), key = toString position ∧ items[position]? = some item ∧
      root.get? (array.child key) = some item ∧ item.get? rest = some leaf := by
  rw [leaves_eq_relativeLeaves, regular.mem_relativeLeaves_iff] at isLeaf
  rcases isLeaf with ⟨_, found, _⟩
  rw [get?_append, leads, Option.bind_some, get?_cons] at found
  rcases Option.bind_eq_some_iff.mp found with ⟨item, isItem, leadsOn⟩
  rcases Option.bind_eq_some_iff.mp isItem with ⟨position, spelled, isAt⟩
  refine ⟨position, item, (arrayIndex?_eq_some_iff.mp spelled).2, isAt, ?_, leadsOn⟩
  rw [KeyPath.child, get?_append, leads, Option.bind_some, get?_cons, isItem]
  rfl

/-- A key stands for a position just if it is the decimal form of the position and the position fits
64 bits. So no two keys stand for one position, and a change of the item under one key leaves what
is under every other key. A walk over an array fetches every item by the key that it puts into the
path, and in the path of a leaf each key below an array leads to the item on the way to the leaf. -/
theorem positionKeys_resolve (visit : KeyPath → Json → EStateM ε σ PUnit) {root : Json}
    (regular : root.Regular) :
    (∀ key position,
      arrayIndex? key = some position ↔ position < UInt64.size ∧ key = toString position) ∧
    (∀ left right, left ≠ right →
      (∀ position, arrayIndex? left = some position → arrayIndex? right ≠ some position) ∧
        ∀ (items : Array Json) (change : Json → Json × Unit),
          (changeChild left change (.array items)).1.child? right =
            (Json.array items).child? right) ∧
    (∀ items : Array Json, items.size ≤ UInt64.size →
      (∀ (position : Nat) item, items[position]? = some item →
        (Json.array items).child? (toString position) = some item) ∧
      ∀ path, visitBelow visit path (.array items) =
        forM (List.range items.size) fun position =>
          visitFetched visit path (.array items) (toString position)) ∧
    ∀ array key rest items leaf, (array ++ key :: rest, leaf) ∈ root.leaves →
      root.get? array = some (.array items) →
        ∃ (position : Nat) (item : Json), key = toString position ∧ items[position]? = some item ∧
          root.get? (KeyPath.child array key) = some item ∧ item.get? rest = some leaf := by
  refine ⟨fun key position => arrayIndex?_eq_some_iff, ?_, ?_, ?_⟩
  · intro left right differs
    constructor
    · intro position leftSpells rightSpells
      exact differs (key_eq_of_arrayIndex? leftSpells rightSpells)
    · intro items change
      exact (changeChild_spec left change (.array items)).2.2.1 right differs.symm
  · intro items fits
    refine ⟨?_, fun path => visitBelow_array_eq_forM visit path fits⟩
    intro position item isAt
    have inside : position < items.size := (Array.getElem?_eq_some_iff.mp isAt).1
    rw [child?_array (Nat.lt_of_lt_of_le inside fits)]
    simpa using isAt
  · intro array key rest items leaf isLeaf leads
    exact regular.item_of_mem_leaves isLeaf leads

/-- A table with a row that is an array. -/
def rowTree : Json := .object [("rows", .array #[.null, .array #[.bool true, .string "end"]])]

theorem positionKeys_resolve_rowTree :
    rowTree.Regular ∧
      arrayIndex? "18446744073709551615" = some 18446744073709551615 ∧
      (changeChild "01" (fun _ => (.null, ())) (.array #[.bool true, .string "end"])).1.child? "1" =
        some (.string "end") ∧
      (["rows", "1", "0"], .bool true) ∈ rowTree.leaves ∧
      ∃ (position : Nat) (item : Json), "1" = toString position ∧
        #[.null, .array #[.bool true, .string "end"]][position]? = some item ∧
        rowTree.get? ["rows", "1"] = some item ∧ item.get? ["0"] = some (.bool true) := by
  have regular : rowTree.Regular := by decide
  have isLeaf : (["rows", "1", "0"], .bool true) ∈ rowTree.leaves := by decide
  rcases positionKeys_resolve collectLeaf regular with ⟨spelled, apart, fetched, onTheWay⟩
  refine ⟨regular, (spelled _ _).mpr ⟨by decide, by decide +kernel⟩, ?_, isLeaf, ?_⟩
  · rw [(apart "01" "1" (by decide)).2]
    exact (fetched #[.bool true, .string "end"] (by decide)).1 1 _ rfl
  · exact onTheWay ["rows"] "1" ["0"] _ _ isLeaf rfl

end Graft.Json
