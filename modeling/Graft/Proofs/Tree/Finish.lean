import Graft.Proofs.Tree.Draft

/-!
# Finishing keeps what is kept

A vacated slot is dropped when no later position of its array is noted. What a draft keeps has no
vacated slot around it, and all positions on its way are noted, so only slots behind it are dropped
and the kept value stays where it is.
-/

namespace Graft

namespace Json

theorem AgreeAlong.trans {path : KeyPath} {left middle right : Json}
    (first : AgreeAlong path left middle) (second : AgreeAlong path middle right) :
    AgreeAlong path left right := by
  induction path generalizing left middle right with
  | nil => exact Eq.trans first second
  | cons key rest ih =>
      rcases first with ⟨leftKind, leftChild, middleChild, isLeft, isMiddle, firstBelow⟩
      rcases second with ⟨rightKind, child, rightChild, isChild, isRight, secondBelow⟩
      rw [isMiddle] at isChild
      cases isChild
      exact ⟨leftKind.trans rightKind, leftChild, rightChild, isLeft, isRight,
        ih firstBelow secondBelow⟩

/-- The items that are left of a list whose first item has position `start`. -/
def keptItems (dropped : Nat → Bool) (start : Nat) (items : List Json) : List Json :=
  (items.zipIdx start).filterMap fun entry => if dropped entry.2 then none else some entry.1

theorem keptItems_cons (dropped : Nat → Bool) (start : Nat) (item : Json) (items : List Json) :
    keptItems dropped start (item :: items) =
      (if dropped start then [] else [item]) ++ keptItems dropped (start + 1) items := by
  cases isDropped : dropped start <;>
    simp [keptItems, List.zipIdx_cons, isDropped]

theorem dropItems_array (dropped : Nat → Bool) (items : Array Json) :
    dropItems dropped (.array items) = .array (keptItems dropped 0 items.toList).toArray := rfl

/-- An item before which nothing is dropped keeps its position. -/
theorem getElem?_keptItems {dropped : Nat → Bool} {start position : Nat} {items : List Json}
    (kept : ∀ earlier, earlier ≤ position → dropped (start + earlier) = false) :
    (keptItems dropped start items)[position]? = items[position]? := by
  induction items generalizing start position with
  | nil => rfl
  | cons item items ih =>
      have isKept : dropped start = false := kept 0 (Nat.zero_le _)
      rw [keptItems_cons, isKept]
      rcases position with _ | position
      · rfl
      · have later : ∀ earlier, earlier ≤ position → dropped (start + 1 + earlier) = false := by
          intro earlier below
          rw [Nat.add_assoc, Nat.add_comm 1]
          exact kept (earlier + 1) (by omega)
        exact ih later

theorem modifyAt_cons (change : Json → Json) (key : String) (rest : KeyPath) (node : Json) :
    modifyAt change (key :: rest) node =
      (changeChild key (changeAt (fun inner => (change inner, some ())) rest) node).1 := rfl

theorem AgreeAlong.dropItems {dropped : Nat → Bool} {location rest : KeyPath} {key : String}
    {node found : Json}
    (behind : ∀ position, (location, position) ∈ arraySteps location (key :: rest) node →
      ∀ other, dropped other → position < other)
    (leads : node.get? (key :: rest) = some found) :
    AgreeAlong (key :: rest) node (Json.dropItems dropped node) := by
  cases node with
  | array items =>
      have sameKind : (Json.dropItems dropped (.array items)).isArray =
          (Json.array items).isArray := rfl
      apply AgreeAlong.of_child?_eq sameKind ?_ leads
      rcases spelled : arrayIndex? key with _ | position
      · simp [child?, dropItems_array, spelled]
      · have step : (location, position) ∈ arraySteps location (key :: rest) (.array items) := by
          simp [arraySteps_cons, isArray, spelled]
        have kept : ∀ earlier, earlier ≤ position → dropped (0 + earlier) = false := by
          intro earlier below
          apply Bool.eq_false_iff.mpr
          intro isDropped
          have := behind position step (0 + earlier) isDropped
          omega
        simp [child?, dropItems_array, spelled, getElem?_keptItems kept]
  | object members => exact .refl leads
  | null => exact .refl leads
  | bool value => exact .refl leads
  | number value => exact .refl leads
  | string text => exact .refl leads

/-- Dropping items does not show along a path if they lie behind the path's position in that
array. -/
theorem AgreeAlong.modifyAt_dropItems {dropped : Nat → Bool} {location array target : KeyPath}
    {node found : Json} (notBelow : ¬target <+: array)
    (behind : ∀ position, (location ++ array, position) ∈ arraySteps location target node →
      ∀ other, dropped other → position < other)
    (leads : node.get? target = some found) :
    AgreeAlong target node (modifyAt (Json.dropItems dropped) array node) := by
  induction array generalizing location target node with
  | nil =>
      rcases target with _ | ⟨key, rest⟩
      · exact absurd List.nil_prefix notBelow
      · rw [List.append_nil] at behind
        exact AgreeAlong.dropItems behind leads
  | cons first array ih =>
      rcases target with _ | ⟨key, rest⟩
      · exact absurd List.nil_prefix notBelow
      · rw [modifyAt_cons]
        refine AgreeAlong.changeChild leads ?_
        rintro rfl child isChild
        have restNotBelow : ¬rest <+: array := by
          intro below
          exact notBelow (List.cons_prefix_cons.mpr ⟨rfl, below⟩)
        have restBehind : ∀ position,
            (location.child first ++ array, position) ∈
                arraySteps (location.child first) rest child →
              ∀ other, dropped other → position < other := by
          intro position step
          apply behind position
          rw [arraySteps_cons, isChild]
          apply List.mem_append_right
          rwa [child_append] at step
        rw [get?_cons, isChild] at leads
        exact ih restNotBelow restBehind leads

end Json

namespace Draft

open KeyPath (Apart)

theorem any_lt_iff_noted {written : Std.TreeMap KeyPath Nat} {array : KeyPath} {position : Nat} :
    written[array]?.any (position < ·) ↔ Noted written array (position + 1) := by
  simp only [Noted, Option.any_eq_true, decide_eq_true_eq]
  exact Iff.rfl

/-- The array and the position of a slot. -/
def slotPosition? (slot : KeyPath) : Option (KeyPath × Nat) :=
  slot.splitLast?.bind fun (array, key) => (arrayIndex? key).map fun position => (array, position)

theorem slotPosition?_eq_some_iff {slot array : KeyPath} {position : Nat} :
    slotPosition? slot = some (array, position) ↔
      position < UInt64.size ∧ slot = array.child (toString position) := by
  rcases List.eq_nil_or_concat slot with rfl | ⟨parent, key, isConcat⟩
  · simp [slotPosition?, KeyPath.splitLast?, KeyPath.child]
  · rw [List.concat_eq_append] at isConcat
    subst isConcat
    simp only [slotPosition?, KeyPath.splitLast?, KeyPath.child, List.getLast?_concat,
      List.dropLast_concat, Option.map_some, Option.bind_some, Option.map_eq_some_iff,
      arrayIndex?_eq_some_iff, Prod.mk.injEq]
    constructor
    · rintro ⟨_, ⟨fits, rfl⟩, rfl, rfl⟩
      exact ⟨fits, rfl⟩
    · rintro ⟨fits, same⟩
      rcases List.append_inj' same rfl with ⟨rfl, sameKey⟩
      exact ⟨position, ⟨fits, (List.cons.inj sameKey).1⟩, rfl, rfl⟩

theorem noteDoomed_eq (written : Std.TreeMap KeyPath Nat)
    (doomed : Std.TreeMap KeyPath (Std.TreeSet Nat)) (slot : KeyPath) :
    noteDoomed written doomed slot =
      match slotPosition? slot with
      | none => doomed
      | some (array, position) =>
          if written[array]?.any (position < ·) then doomed
          else doomed.insert array ((doomed.getD array ∅).insert position) := by
  unfold noteDoomed slotPosition?
  rcases slot.splitLast? with _ | ⟨array, key⟩
  · rfl
  · rcases spelled : arrayIndex? key with _ | position <;> simp [spelled]

/-- A slot to be dropped: it was vacated, and no later position of its array is noted. -/
def Doomed (draft : Draft) (array : KeyPath) (position : Nat) : Prop :=
  position < UInt64.size ∧ array.child (toString position) ∈ draft.vacated ∧
    ¬Noted draft.written array (position + 1)

theorem mem_noteDoomed {written : Std.TreeMap KeyPath Nat}
    {doomed : Std.TreeMap KeyPath (Std.TreeSet Nat)} {slot array : KeyPath} {position : Nat} :
    position ∈ (noteDoomed written doomed slot).getD array ∅ ↔
      position ∈ doomed.getD array ∅ ∨
        slotPosition? slot = some (array, position) ∧ ¬Noted written array (position + 1) := by
  rw [noteDoomed_eq]
  rcases slotPosition? slot with _ | ⟨slotArray, slotPosition⟩
  · simp
  · simp only [Option.some.injEq, Prod.mk.injEq]
    split
    case isTrue later =>
      rw [any_lt_iff_noted] at later
      constructor
      · exact Or.inl
      · rintro (already | ⟨⟨rfl, rfl⟩, notLater⟩)
        · exact already
        · exact absurd later notLater
    case isFalse notLater =>
      rw [any_lt_iff_noted] at notLater
      rw [Std.TreeMap.getD_insert]
      by_cases same : slotArray = array
      · subst same
        simp only [Std.compare_self, if_true, Std.TreeSet.mem_insert, Std.compare_eq_iff_eq,
          true_and]
        constructor
        · rintro (rfl | already)
          · exact Or.inr ⟨rfl, notLater⟩
          · exact Or.inl already
        · rintro (already | ⟨rfl, _⟩)
          · exact Or.inr already
          · exact Or.inl rfl
      · simp [same]

theorem mem_foldl_noteDoomed {written : Std.TreeMap KeyPath Nat} (slots : List KeyPath)
    {doomed : Std.TreeMap KeyPath (Std.TreeSet Nat)} {array : KeyPath} {position : Nat} :
    position ∈ (slots.foldl (noteDoomed written) doomed).getD array ∅ ↔
      position ∈ doomed.getD array ∅ ∨
        (∃ slot ∈ slots, slotPosition? slot = some (array, position)) ∧
          ¬Noted written array (position + 1) := by
  induction slots generalizing doomed with
  | nil => simp
  | cons slot slots ih =>
      simp only [List.foldl_cons, ih, mem_noteDoomed, List.mem_cons, or_and_right, exists_or,
        exists_eq_left, or_assoc]

theorem mem_doomed {draft : Draft} {array : KeyPath} {position : Nat} :
    position ∈ draft.doomed.getD array ∅ ↔ Doomed draft array position := by
  rw [doomed, Std.TreeSet.foldl_eq_foldl_toList, mem_foldl_noteDoomed]
  simp only [slotPosition?_eq_some_iff, Std.TreeSet.mem_toList, Doomed]
  constructor
  · rintro (impossible | ⟨⟨slot, isSlot, fits, rfl⟩, notLater⟩)
    · simp at impossible
    · exact ⟨fits, isSlot, notLater⟩
  · rintro ⟨fits, isSlot, notLater⟩
    exact Or.inr ⟨⟨_, isSlot, fits, rfl⟩, notLater⟩

/-- Every array that is mentioned has something to be dropped. -/
def Filled (doomed : Std.TreeMap KeyPath (Std.TreeSet Nat)) : Prop :=
  ∀ (array : KeyPath) (positions : Std.TreeSet Nat), doomed[array]? = some positions →
    ∃ position, position ∈ positions

theorem Filled.noteDoomed {doomed : Std.TreeMap KeyPath (Std.TreeSet Nat)} (filled : Filled doomed)
    (written : Std.TreeMap KeyPath Nat) (slot : KeyPath) :
    Filled (noteDoomed written doomed slot) := by
  intro array positions found
  rw [noteDoomed_eq] at found
  split at found
  case h_1 => exact filled array positions found
  case h_2 slotArray slotPosition _ =>
    split at found
    case isTrue => exact filled array positions found
    case isFalse =>
      rw [Std.TreeMap.getElem?_insert] at found
      split at found
      case isTrue =>
        cases found
        exact ⟨slotPosition, Std.TreeSet.mem_insert_self⟩
      case isFalse => exact filled array positions found

theorem Filled.foldl_noteDoomed {doomed : Std.TreeMap KeyPath (Std.TreeSet Nat)}
    (filled : Filled doomed) (written : Std.TreeMap KeyPath Nat) (slots : List KeyPath) :
    Filled (slots.foldl (Draft.noteDoomed written) doomed) := by
  induction slots generalizing doomed with
  | nil => exact filled
  | cons slot slots ih => exact ih (filled.noteDoomed written slot)

theorem filled_doomed (draft : Draft) : Filled draft.doomed := by
  rw [doomed, Std.TreeSet.foldl_eq_foldl_toList]
  have empty : Filled ∅ := by
    intro array positions found
    simp at found
  exact empty.foldl_noteDoomed draft.written _

theorem finish_of_forall_not_mem {draft : Draft} (noSlots : ∀ slot, slot ∉ draft.vacated) :
    draft.finish = draft.root := by
  have noList : draft.vacated.toList = [] := by
    apply List.eq_nil_iff_forall_not_mem.mpr
    intro slot isSlot
    exact noSlots slot (Std.TreeSet.mem_toList.mp isSlot)
  rw [finish, doomed, Std.TreeSet.foldl_eq_foldl_toList, noList, Std.TreeMap.foldr_eq_foldr_toList]
  rfl

/-- What a draft keeps is at its place in the finished tree. -/
theorem Keeps.get?_finish {draft : Draft} {target : KeyPath} {kept : Json}
    (keeps : Keeps draft target kept) : draft.finish.get? target = some kept := by
  have behind : ∀ entry ∈ draft.doomed.toList, ¬target <+: entry.1 ∧
      ∀ position, (entry.1, position) ∈ Json.arraySteps [] target draft.root →
        ∀ other, entry.2.contains other → position < other := by
    rintro ⟨array, positions⟩ isEntry
    have found := Std.TreeMap.mem_toList_iff_getElem?_eq_some.mp isEntry
    have isDoomed : ∀ other, other ∈ positions → Doomed draft array other := by
      intro other inside
      rw [← mem_doomed, Std.TreeMap.getD_eq_getD_getElem?, found]
      exact inside
    constructor
    · intro below
      rcases filled_doomed draft array positions found with ⟨other, inside⟩
      rcases isDoomed other inside with ⟨_, isSlot, _⟩
      exact (keeps.apart _ isSlot).2 (below.trans (List.prefix_append _ _))
    · intro position step other inside
      rcases isDoomed other inside with ⟨_, isSlot, notLater⟩
      rcases keeps.noted array position step with ⟨highest, isHighest, below⟩
      have notBehind : ¬other < highest := by
        intro later
        exact notLater ⟨highest, isHighest, later⟩
      have differs : position ≠ other := by
        rintro rfl
        rcases Json.eq_append_of_mem_arraySteps step with ⟨upper, rest, rfl, isTarget⟩
        apply (keeps.apart _ isSlot).1
        rw [isTarget]
        exact ⟨rest, by simp [KeyPath.child]⟩
      omega
  have agree : ∀ entries : List (KeyPath × Std.TreeSet Nat),
      (∀ entry ∈ entries, ¬target <+: entry.1 ∧
        ∀ position, (entry.1, position) ∈ Json.arraySteps [] target draft.root →
          ∀ other, entry.2.contains other → position < other) →
      Json.AgreeAlong target draft.root (entries.foldr
        (fun entry root => Json.modifyAt (Json.dropItems entry.2.contains) entry.1 root)
        draft.root) := by
    intro entries
    induction entries with
    | nil => exact fun _ => .refl keeps.present
    | cons entry entries ih =>
        intro behind
        rcases List.forall_mem_cons.mp behind with ⟨⟨notBelow, isBehind⟩, others⟩
        have soFar := ih others
        have stillBehind : ∀ position, ([] ++ entry.1, position) ∈
            Json.arraySteps [] target (entries.foldr
              (fun entry root => Json.modifyAt (Json.dropItems entry.2.contains) entry.1 root)
              draft.root) → ∀ other, entry.2.contains other → position < other := by
          intro position step
          rw [List.nil_append, soFar.arraySteps_eq []] at step
          exact isBehind position step
        exact soFar.trans (.modifyAt_dropItems notBelow stillBehind
          (soFar.get?_eq.trans keeps.present))
  rw [finish, Std.TreeMap.foldr_eq_foldr_toList, (agree _ behind).get?_eq, keeps.present]

end Draft

end Graft
