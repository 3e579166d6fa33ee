import Graft.Proofs.Tree.Compaction

/-!
# Where nodes go when items are dropped

Dropping items moves the items behind them down. A path is lowered by counting, in each array on its
way, the dropped items before its position there. When a draft is finished, a node that has no
vacated slot around it is found at its lowered path, and so is every node above it.
-/

namespace Graft

open KeyPath (Apart below?_eq_some_iff listBelow listBelow_cons_of_ne listBelow_cons_self
  mem_listBelow)

namespace Json

/-- The position that an item moves to from its position, if items are dropped. -/
def loweredPosition (dropped : Nat → Bool) (position : Nat) : Nat :=
  position - (List.range position).countP dropped

theorem countP_range_succ (dropped : Nat → Bool) (position : Nat) :
    (List.range (position + 1)).countP dropped =
      (if dropped 0 then 1 else 0) +
        (List.range position).countP fun earlier => dropped (earlier + 1) := by
  rw [List.range_succ_eq_map, List.countP_cons, List.countP_map, Nat.add_comm]
  rfl

theorem countP_range_le (dropped : Nat → Bool) (position : Nat) :
    (List.range position).countP dropped ≤ position :=
  Nat.le_trans List.countP_le_length (Nat.le_of_eq List.length_range)

/-- An item that is not dropped is found at its lowered position. -/
theorem getElem?_keptItems_loweredPosition {dropped : Nat → Bool} {start position : Nat}
    {items : List Json} (kept : dropped (start + position) = false) :
    (keptItems dropped start items)[
        loweredPosition (fun earlier => dropped (start + earlier)) position]? =
      items[position]? := by
  induction items generalizing start position with
  | nil => rfl
  | cons item items ih =>
      rw [keptItems_cons]
      rcases position with _ | position
      · have isKept : dropped start = false := kept
        simp [isKept, loweredPosition]
      · have shift : ∀ earlier, start + (earlier + 1) = start + 1 + earlier := by omega
        have sameItems : (fun earlier => dropped (start + (earlier + 1))) =
            fun earlier => dropped (start + 1 + earlier) := by
          funext earlier
          rw [shift]
        have few := countP_range_le (fun earlier => dropped (start + 1 + earlier)) position
        rw [shift] at kept
        have below := ih kept
        simp only [loweredPosition] at below ⊢
        rw [countP_range_succ, sameItems, Nat.add_zero]
        generalize (List.range position).countP _ = count at few below ⊢
        rw [List.getElem?_cons_succ, ← below]
        cases dropped start with
        | false =>
            have next : position + 1 - count = position - count + 1 := by omega
            simp [next]
        | true =>
            have next : position + 1 - (1 + count) = position - count := by omega
            simp [next]

/-- Items that are not dropped keep their order. -/
theorem loweredPosition_lt {dropped : Nat → Bool} {first second : Nat}
    (kept : dropped first = false) (before : first < second) :
    loweredPosition dropped first < loweredPosition dropped second := by
  have few := countP_range_le dropped first
  have counts : (List.range second).countP dropped + first + 1 ≤
      (List.range first).countP dropped + second := by
    induction second with
    | zero => omega
    | succ second ih =>
        rw [List.range_succ, List.countP_append, List.countP_singleton]
        by_cases last : first = second
        · subst last
          simp only [kept, Bool.false_eq_true, if_false]
          omega
        · have := ih (by omega)
          split <;> omega
  unfold loweredPosition
  omega

/-- The key under which a node has a child, if items of the node are dropped. -/
def loweredKey (dropped : Nat → Bool) (node : Json) (key : String) : String :=
  if node.isArray then
    match arrayIndex? key with
    | some position => toString (loweredPosition dropped position)
    | none => key
  else key

/-- The path that leads to a node when items are dropped all over a tree, each by the path of its
array and its position. -/
def lowered (dropped : KeyPath → Nat → Bool) (node : Json) : KeyPath → KeyPath
  | [] => []
  | key :: rest =>
      loweredKey (dropped []) node key ::
        match node.child? key with
        | some child => lowered (fun path => dropped (key :: path)) child rest
        | none => rest

/-- The first tree leads along the path to the same node as the second does along the lowered path,
through nodes of the same kinds. -/
def MovesAlong (dropped : KeyPath → Nat → Bool) : KeyPath → Json → Json → Prop
  | [], left, right => left = right
  | key :: rest, left, right =>
      left.isArray = right.isArray ∧
        ∃ leftChild rightChild, left.child? key = some leftChild ∧
          right.child? (loweredKey (dropped []) left key) = some rightChild ∧
          MovesAlong (fun path => dropped (key :: path)) rest leftChild rightChild

theorem lowered_cons_of_child? {dropped : KeyPath → Nat → Bool} {node child : Json} {key : String}
    (isChild : node.child? key = some child) (rest : KeyPath) :
    node.lowered dropped (key :: rest) =
      loweredKey (dropped []) node key ::
        child.lowered (fun path => dropped (key :: path)) rest := by
  rw [lowered, isChild]

theorem lowered_append {dropped : KeyPath → Nat → Bool} {node inner : Json} {upper : KeyPath}
    (leads : node.get? upper = some inner) (lower : KeyPath) :
    node.lowered dropped (upper ++ lower) =
      node.lowered dropped upper ++ inner.lowered (fun path => dropped (upper ++ path)) lower := by
  induction upper generalizing dropped node with
  | nil =>
      cases leads
      rfl
  | cons key upper ih =>
      rw [get?_cons] at leads
      rcases Option.bind_eq_some_iff.mp leads with ⟨child, isChild, leadsOn⟩
      rw [List.cons_append, lowered_cons_of_child? isChild, lowered_cons_of_child? isChild,
        ih leadsOn]
      rfl

/-- A path through an array is lowered to one that takes the lowered position there. -/
theorem exists_lowered_append {dropped : KeyPath → Nat → Bool} {node inner : Json}
    {array : KeyPath} {key : String} {position : Nat} (leads : node.get? array = some inner)
    (isArray : inner.isArray) (spelled : arrayIndex? key = some position) (rest : KeyPath) :
    ∃ newRest, node.lowered dropped (array ++ key :: rest) =
      node.lowered dropped array ++
        toString (loweredPosition (dropped array) position) :: newRest := by
  rw [lowered_append leads, lowered, loweredKey, if_pos isArray, spelled, List.append_nil]
  exact ⟨_, rfl⟩

/-- Every node on the way is found at its own lowered path, and what lies below it moves along. -/
theorem MovesAlong.prefix {dropped : KeyPath → Nat → Bool} {upper lower : KeyPath}
    {left right inner : Json} (moves : MovesAlong dropped (upper ++ lower) left right)
    (leads : left.get? upper = some inner) :
    ∃ moved, right.get? (left.lowered dropped upper) = some moved ∧
      MovesAlong (fun path => dropped (upper ++ path)) lower inner moved := by
  induction upper generalizing dropped left right with
  | nil =>
      cases leads
      exact ⟨right, rfl, moves⟩
  | cons key upper ih =>
      rcases moves with ⟨_, leftChild, rightChild, isLeft, isRight, below⟩
      rw [get?_cons, isLeft] at leads
      rw [lowered_cons_of_child? isLeft, get?_cons, isRight]
      exact ih below leads

theorem MovesAlong.get?_eq {dropped : KeyPath → Nat → Bool} {path : KeyPath}
    {left right found : Json} (moves : MovesAlong dropped path left right)
    (leads : left.get? path = some found) :
    right.get? (left.lowered dropped path) = some found := by
  have whole : MovesAlong dropped (path ++ []) left right := by
    rw [List.append_nil]
    exact moves
  rcases whole.prefix leads with ⟨moved, isMoved, same⟩
  rw [isMoved, same]

/-- Trees that agree along a path have the same nodes moved along it. -/
theorem AgreeAlong.movesAlong {dropped : KeyPath → Nat → Bool} {path : KeyPath}
    {left middle right : Json} (agree : AgreeAlong path left middle)
    (moves : MovesAlong dropped path middle right) : MovesAlong dropped path left right := by
  induction path generalizing dropped left middle right with
  | nil => exact Eq.trans agree moves
  | cons key rest ih =>
      rcases agree with ⟨sameKind, leftChild, middleChild, isLeft, isMiddle, agreeBelow⟩
      rcases moves with ⟨movedKind, child, rightChild, isChild, isRight, movesBelow⟩
      rw [isMiddle] at isChild
      cases isChild
      refine ⟨sameKind.trans movedKind, leftChild, rightChild, isLeft, ?_,
        ih agreeBelow movesBelow⟩
      rw [loweredKey, sameKind]
      exact isRight

/-- Arrays of a tree, each with the positions that are to be dropped from it. -/
abbrev DropList := List (KeyPath × Std.TreeSet Nat)

/-- Drops items of the listed arrays, of the last array first. -/
def dropEntries (entries : DropList) (node : Json) : Json :=
  entries.foldr (fun entry root => modifyAt (dropItems entry.2.contains) entry.1 root) node

/-- Whether one of the listed arrays has the item at a position dropped. -/
def drops (entries : DropList) (array : KeyPath) (position : Nat) : Bool :=
  entries.any fun entry => array == entry.1 && entry.2.contains position

theorem drops_listBelow (key : String) (entries : DropList) :
    drops (listBelow key entries) = fun path => drops entries (key :: path) := by
  funext path position
  apply Bool.eq_iff_iff.mpr
  simp only [drops, List.any_eq_true, Bool.and_eq_true, beq_iff_eq]
  constructor
  · rintro ⟨⟨array, positions⟩, inside, rfl, isDropped⟩
    exact ⟨_, mem_listBelow.mp inside, rfl, isDropped⟩
  · rintro ⟨⟨array, positions⟩, inside, isArray, isDropped⟩
    refine ⟨(path, positions), mem_listBelow.mpr ?_, rfl, isDropped⟩
    rw [isArray]
    exact inside

theorem pairwise_listBelow {entries : DropList} (key : String)
    (ordered : entries.Pairwise fun earlier later => ¬later.1 <+: earlier.1) :
    (listBelow key entries).Pairwise fun earlier later => ¬later.1 <+: earlier.1 := by
  apply ordered.filterMap
  intro earlier later notAbove earlierBelow isEarlier laterBelow isLater above
  rw [below?_eq_some_iff.mp isEarlier, below?_eq_some_iff.mp isLater] at notAbove
  exact notAbove (List.cons_prefix_cons.mpr ⟨rfl, above⟩)

/-- Dropping items of arrays below the root does to each child what the arrays at or below the child
ask for. -/
theorem child?_dropEntries {entries : DropList} (belowRoot : ∀ entry ∈ entries, entry.1 ≠ [])
    (node : Json) :
    (dropEntries entries node).isArray = node.isArray ∧
      ∀ key, (dropEntries entries node).child? key =
        (node.child? key).map (dropEntries (listBelow key entries)) := by
  induction entries with
  | nil => exact ⟨rfl, fun key => Option.map_id'.symm⟩
  | cons entry entries ih =>
      rcases entry with ⟨_ | ⟨first, rest⟩, positions⟩
      · exact absurd rfl (belowRoot _ List.mem_cons_self)
      · rcases ih fun entry inside => belowRoot entry (List.mem_cons_of_mem _ inside) with
          ⟨sameKind, children⟩
        rcases changeChild_spec first
          (changeAt (fun inner => (dropItems positions.contains inner, some ())) rest)
          (dropEntries entries node) with ⟨keptKind, self, others, _⟩
        refine ⟨keptKind.trans sameKind, ?_⟩
        intro key
        by_cases isKey : key = first
        · subst isKey
          rw [listBelow_cons_self]
          refine self.trans ?_
          rw [children key, Option.map_map]
          rfl
        · rw [listBelow_cons_of_ne (Ne.symm isKey)]
          exact (others key isKey).trans (children key)

/-- Dropping items of the root leaves its other children there, each under its lowered key. -/
theorem child?_dropItems {dropped : Nat → Bool} {node : Json} {key : String}
    (kept : ∀ position, node.isArray → arrayIndex? key = some position → dropped position = false) :
    (dropItems dropped node).isArray = node.isArray ∧
      (dropItems dropped node).child? (loweredKey dropped node key) = node.child? key := by
  cases node with
  | array items =>
      refine ⟨rfl, ?_⟩
      rcases spelled : arrayIndex? key with _ | position
      · simp [loweredKey, isArray, child?, dropItems_array, spelled]
      · rcases arrayIndex?_eq_some_iff.mp spelled with ⟨fits, _⟩
        have stillFits : loweredPosition dropped position < UInt64.size :=
          Nat.lt_of_le_of_lt (Nat.sub_le _ _) fits
        have isKept : dropped (0 + position) = false := by
          rw [Nat.zero_add]
          exact kept position rfl spelled
        have found := @getElem?_keptItems_loweredPosition dropped 0 position items.toList isKept
        simp only [Nat.zero_add] at found
        have isLowered : loweredKey dropped (.array items) key =
            toString (loweredPosition dropped position) := by
          simp [loweredKey, isArray, spelled]
        rw [isLowered, dropItems_array]
        refine (child?_array stillFits).trans (found.trans ?_)
        simp [child?, spelled]
  | object members => exact ⟨rfl, rfl⟩
  | null => exact ⟨rfl, rfl⟩
  | bool value => exact ⟨rfl, rfl⟩
  | number value => exact ⟨rfl, rfl⟩
  | string text => exact ⟨rfl, rfl⟩

theorem drops_root_of_forall_ne_nil {entries : DropList}
    (belowRoot : ∀ entry ∈ entries, entry.1 ≠ []) (position : Nat) :
    drops entries [] position = false := by
  apply List.any_eq_false.mpr
  intro entry inside isDropped
  rw [Bool.and_eq_true, beq_iff_eq] at isDropped
  exact belowRoot entry inside isDropped.1.symm

theorem loweredKey_of_forall_eq_false {dropped : Nat → Bool}
    (nothing : ∀ position, dropped position = false) (node : Json) (key : String) :
    loweredKey dropped node key = key := by
  have none : ∀ position, (List.range position).countP dropped = 0 := by
    intro position
    apply List.countP_eq_zero.mpr
    simp [nothing]
  unfold loweredKey
  split
  · rcases spelled : arrayIndex? key with _ | position
    · rfl
    · simp [loweredPosition, none, (arrayIndex?_eq_some_iff.mp spelled).2]
  · rfl

/-- Only the first of the listed arrays can be the root. -/
theorem forall_ne_nil_of_pairwise {entry : KeyPath × Std.TreeSet Nat} {entries : DropList}
    (ordered : (entry :: entries).Pairwise fun earlier later => ¬later.1 <+: earlier.1) :
    ∀ later ∈ entries, later.1 ≠ [] := by
  intro later inside isRoot
  apply (List.pairwise_cons.mp ordered).1 later inside
  rw [isRoot]
  exact List.nil_prefix

/-- A child is found under its lowered key, as what the arrays at or below it make of it. -/
theorem child?_dropEntries_loweredKey {entries : DropList} {node child : Json} {key : String}
    (ordered : entries.Pairwise fun earlier later => ¬later.1 <+: earlier.1)
    (kept : ∀ position, arrayIndex? key = some position → drops entries [] position = false)
    (isChild : node.child? key = some child) :
    (dropEntries entries node).isArray = node.isArray ∧
      (dropEntries entries node).child? (loweredKey (drops entries []) node key) =
        some (dropEntries (listBelow key entries) child) := by
  by_cases belowRoot : ∀ entry ∈ entries, entry.1 ≠ []
  · rcases child?_dropEntries belowRoot node with ⟨sameKind, children⟩
    refine ⟨sameKind, ?_⟩
    rw [loweredKey_of_forall_eq_false (drops_root_of_forall_ne_nil belowRoot),
      children key, isChild]
    rfl
  · rcases entries with _ | ⟨⟨_ | ⟨first, rest⟩, positions⟩, entries⟩
    · exact absurd (by simp) belowRoot
    · have othersBelow := forall_ne_nil_of_pairwise ordered
      rcases child?_dropEntries othersBelow node with ⟨sameKind, children⟩
      have atRoot : drops (([], positions) :: entries) [] = positions.contains := by
        funext position
        have noOthers := drops_root_of_forall_ne_nil othersBelow position
        rw [drops] at noOthers ⊢
        rw [List.any_cons, noOthers]
        simp
      have listed : listBelow key (([], positions) :: entries) = listBelow key entries := rfl
      rw [atRoot] at kept ⊢
      rw [listed]
      rcases @child?_dropItems positions.contains (dropEntries entries node) key
        fun position _ => kept position with ⟨keptKind, isThere⟩
      rw [loweredKey, sameKind] at isThere
      refine ⟨keptKind.trans sameKind, isThere.trans ?_⟩
      rw [children key, isChild]
      rfl
    · apply absurd _ belowRoot
      exact List.forall_mem_cons.mpr ⟨by simp, forall_ne_nil_of_pairwise ordered⟩

/-- A node at or below which nothing is dropped, and that is in no dropped item, moves along its
path to the lowered one. -/
theorem movesAlong_dropEntries {entries : DropList} {node found : Json} {path : KeyPath}
    (ordered : entries.Pairwise fun earlier later => ¬later.1 <+: earlier.1)
    (clear : ∀ entry ∈ entries, ¬path <+: entry.1)
    (kept : ∀ array position rest, path = array ++ toString position :: rest →
      drops entries array position = false)
    (leads : node.get? path = some found) :
    MovesAlong (drops entries) path node (dropEntries entries node) := by
  induction path generalizing entries node with
  | nil =>
      rcases entries with _ | ⟨entry, entries⟩
      · rfl
      · exact absurd List.nil_prefix (clear entry List.mem_cons_self)
  | cons key rest ih =>
      rw [get?_cons] at leads
      rcases Option.bind_eq_some_iff.mp leads with ⟨child, isChild, leadsOn⟩
      have keptHere : ∀ position, arrayIndex? key = some position →
          drops entries [] position = false := by
        intro position spelled
        rcases arrayIndex?_eq_some_iff.mp spelled with ⟨_, rfl⟩
        exact kept [] position rest rfl
      rcases child?_dropEntries_loweredKey ordered keptHere isChild with ⟨sameKind, isThere⟩
      refine ⟨sameKind.symm, child, _, isChild, isThere, ?_⟩
      rw [← drops_listBelow]
      apply ih (pairwise_listBelow key ordered)
      · rintro ⟨array, positions⟩ inside below
        apply clear _ (mem_listBelow.mp inside)
        exact List.cons_prefix_cons.mpr ⟨rfl, below⟩
      · rintro array position lower rfl
        rw [drops_listBelow]
        exact kept (key :: array) position lower rfl
      · exact leadsOn

end Json

namespace Draft

/-- Whether finishing drops the item at a position of an array. -/
def drops (draft : Draft) (array : KeyPath) (position : Nat) : Bool :=
  (draft.doomed.getD array ∅).contains position

theorem drops_eq_true_iff {draft : Draft} {array : KeyPath} {position : Nat} :
    draft.drops array position ↔ Doomed draft array position := mem_doomed

theorem drops_toList_doomed (draft : Draft) : Json.drops draft.doomed.toList = draft.drops := by
  funext array position
  exact draft.any_doomed array position

/-- No item around a node is dropped if no slot that leads to the node is vacated. -/
theorem drops_eq_false {draft : Draft} {path array rest : KeyPath} {position : Nat}
    (apart : ∀ slot ∈ draft.vacated, Apart slot path)
    (through : path = array ++ toString position :: rest) : draft.drops array position = false := by
  apply Bool.eq_false_iff.mpr
  intro isDropped
  rcases drops_eq_true_iff.mp isDropped with ⟨_, isSlot, _⟩
  apply (apart _ isSlot).1
  rw [through]
  exact ⟨rest, Json.child_append array (toString position) rest⟩

/-- When a draft is finished, a node that has no vacated slot around it or inside it moves along its
path to the lowered one. -/
theorem movesAlong_finish {draft : Draft} {path : KeyPath} {found : Json}
    (apart : ∀ slot ∈ draft.vacated, Apart slot path) (leads : draft.root.get? path = some found) :
    Json.MovesAlong draft.drops path draft.root draft.finish := by
  have clear : ∀ entry ∈ draft.doomed.toList, ¬path <+: entry.1 := by
    rintro ⟨array, positions⟩ isEntry below
    have isListed := Std.TreeMap.mem_toList_iff_getElem?_eq_some.mp isEntry
    rcases filled_doomed draft array positions isListed with ⟨position, inside⟩
    have isDoomed : Doomed draft array position := by
      rw [← mem_doomed, Std.TreeMap.getD_eq_getD_getElem?, isListed]
      exact inside
    exact (apart _ isDoomed.2.1).2 (below.trans (List.prefix_append _ _))
  have kept : ∀ array position rest, path = array ++ toString position :: rest →
      Json.drops draft.doomed.toList array position = false := by
    intro array position rest through
    rw [drops_toList_doomed]
    exact drops_eq_false apart through
  rw [finish, Std.TreeMap.foldr_eq_foldr_toList, ← drops_toList_doomed]
  exact Json.movesAlong_dropEntries draft.pairwise_doomed clear kept leads

end Draft

end Graft
