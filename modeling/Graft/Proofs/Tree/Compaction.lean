import Graft.Proofs.Tree.Children
import Graft.Proofs.Tree.Finish
import Graft.Proofs.Tree.Regular

/-!
# Finishing as one pass

Finishing a draft goes through the arrays in descending order of their paths and drops items from
one array at a time. An array comes after those inside it, so that its items are dropped when they
are done and their positions still mean what they meant when the draft was changed. For a regular
tree this is the same as one pass from the root that drops all the items by their original paths.
-/

namespace Graft.Json

mutual

/-- Drops items all over a tree, each by the path of its array and its position. -/
def compact (dropped : KeyPath → Nat → Bool) : Json → Json
  | .array ⟨items⟩ => .array ⟨compactItems dropped 0 items⟩
  | .object members => .object (compactMembers dropped members)
  | node => node

/-- What is left of items, the first of which has the given position. -/
def compactItems (dropped : KeyPath → Nat → Bool) (position : Nat) : List Json → List Json
  | [] => []
  | item :: rest =>
      (if dropped [] position then []
        else [compact (fun path => dropped (toString position :: path)) item]) ++
        compactItems dropped (position + 1) rest

/-- The members of an object, with what is left of their values. -/
def compactMembers (dropped : KeyPath → Nat → Bool) :
    List (String × Json) → List (String × Json)
  | [] => []
  | (name, value) :: rest =>
      (name, compact (fun path => dropped (name :: path)) value) :: compactMembers dropped rest

end

theorem compactMembers_eq_map (dropped : KeyPath → Nat → Bool) (members : List (String × Json)) :
    compactMembers dropped members = members.map fun member =>
      (member.1, compact (fun path => dropped (member.1 :: path)) member.2) := by
  induction members with
  | nil => rfl
  | cons member rest ih => rw [compactMembers, ih, List.map_cons]

/-- Where no item of the array itself is dropped, every item keeps its place. -/
theorem compactItems_eq_mapIdx {dropped : KeyPath → Nat → Bool} {start : Nat} {items : List Json}
    (kept : ∀ position, dropped [] position = false) :
    compactItems dropped start items = items.mapIdx fun offset item =>
      compact (fun path => dropped (toString (start + offset) :: path)) item := by
  induction items generalizing start with
  | nil => rfl
  | cons item rest ih =>
      rw [compactItems, kept, List.mapIdx_cons, ih]
      simp [Nat.add_assoc, Nat.add_comm 1]

theorem compact_of_isContainer_eq_false {node : Json} (noContainer : node.isContainer = false)
    (dropped : KeyPath → Nat → Bool) : compact dropped node = node := by
  cases node with
  | array items => cases noContainer
  | object members => cases noContainer
  | null => rfl
  | bool value => rfl
  | number value => rfl
  | string text => rfl

theorem Regular.compact_eq_self {node : Json} (regular : node.Regular) :
    compact (fun _ _ => false) node = node := by
  induction regular with
  | scalar noContainer => exact compact_of_isContainer_eq_false noContainer _
  | @array items fits each ih =>
      rw [compact, compactItems_eq_mapIdx fun _ => rfl]
      congr 2
      apply List.ext_getElem?
      intro position
      rw [List.getElem?_mapIdx]
      rcases found : items[position]? with _ | item
      · rfl
      · rw [Option.map_some, ih item (List.mem_of_getElem? found)]
  | @object members distinct each ih =>
      rw [compact, compactMembers_eq_map]
      have same : ∀ member ∈ members,
          (member.1, compact (fun _ _ => false) member.2) = id member := by
        intro member inside
        exact Prod.ext rfl (ih member inside)
      rw [List.map_congr_left same, List.map_id]

theorem keptItems_compactItems {dropped : KeyPath → Nat → Bool} {positions : Nat → Bool}
    (kept : ∀ position, dropped [] position = false) (start : Nat) (items : List Json) :
    keptItems positions start (compactItems dropped start items) =
      compactItems
        (fun path position => dropped path position || (path == [] && positions position))
        start items := by
  induction items generalizing start with
  | nil => rfl
  | cons item rest ih =>
      have deeper : ∀ path, (toString start :: path == []) = false := fun _ => rfl
      rw [compactItems, kept, compactItems, kept]
      simp only [Bool.false_eq_true, if_false, List.singleton_append, keptItems_cons, ih,
        Bool.false_or, beq_self_eq_true, Bool.true_and, deeper, Bool.false_and, Bool.or_false]

theorem changeMember_compactMembers {α : Type} {key : String} {change : Json → Json × α}
    {dropped other : KeyPath → Nat → Bool} {members : List (String × Json)}
    (distinct : (members.map Prod.fst).Nodup)
    (here : ∀ value, (key, value) ∈ members →
      (change (compact (fun path => dropped (key :: path)) value)).1 =
        compact (fun path => other (key :: path)) value)
    (elsewhere : ∀ name, name ≠ key → ∀ path, other (name :: path) = dropped (name :: path)) :
    (changeMember key change (compactMembers dropped members)).1 =
      compactMembers other members := by
  induction members with
  | nil => rfl
  | cons member rest ih =>
      rcases member with ⟨name, value⟩
      simp only [List.map_cons, List.nodup_cons] at distinct
      rcases distinct with ⟨notLater, restDistinct⟩
      rw [compactMembers, compactMembers, changeMember]
      by_cases isKey : name = key
      · subst isKey
        have restSame : compactMembers dropped rest = compactMembers other rest := by
          rw [compactMembers_eq_map, compactMembers_eq_map]
          apply List.map_congr_left
          intro member inside
          have differs : member.1 ≠ name := by
            intro same
            apply notLater
            rw [← same]
            exact List.mem_map_of_mem inside
          simp only [elsewhere member.1 differs]
        simp only [if_true, here value (List.mem_cons_self), restSame]
      · have hereRest : ∀ later, (key, later) ∈ rest →
            (change (compact (fun path => dropped (key :: path)) later)).1 =
              compact (fun path => other (key :: path)) later := by
          intro later inside
          exact here later (List.mem_cons_of_mem _ inside)
        simp only [isKey, if_false, ih restDistinct hereRest, elsewhere name isKey]

theorem changeItem_compactItems {α : Type} {position : Nat} {change : Json → Json × α}
    {dropped other : KeyPath → Nat → Bool} {items : List Json}
    (kept : ∀ position, dropped [] position = false)
    (otherKept : ∀ position, other [] position = false)
    (here : ∀ item, items[position]? = some item →
      (change (compact (fun path => dropped (toString position :: path)) item)).1 =
        compact (fun path => other (toString position :: path)) item)
    (elsewhere : ∀ index, index < items.length → index ≠ position → ∀ path,
      other (toString index :: path) = dropped (toString index :: path)) :
    (changeItem position change ⟨compactItems dropped 0 items⟩).1 =
      ⟨compactItems other 0 items⟩ := by
  rcases changeItem_spec position change ⟨compactItems dropped 0 items⟩ with ⟨self, others, _⟩
  rw [compactItems_eq_mapIdx kept] at self others ⊢
  rw [compactItems_eq_mapIdx otherKept]
  apply Array.ext_getElem?
  intro index
  by_cases isPosition : index = position
  · subst isPosition
    rw [self]
    simp only [List.getElem?_toArray, List.getElem?_mapIdx, Nat.zero_add, Option.map_map]
    rcases found : items[index]? with _ | item
    · rfl
    · simp only [Option.map_some, Function.comp_apply, here item found]
  · rw [others index isPosition]
    simp only [List.getElem?_toArray, List.getElem?_mapIdx, Nat.zero_add]
    rcases found : items[index]? with _ | item
    · rfl
    · have inside : index < items.length := (List.getElem?_eq_some_iff.mp found).1
      simp only [Option.map_some, elsewhere index inside isPosition]

theorem dropItems_compact {node : Json} {dropped : KeyPath → Nat → Bool} {positions : Nat → Bool}
    (kept : ∀ position, dropped [] position = false) :
    dropItems positions (compact dropped node) =
      compact (fun path position => dropped path position || (path == [] && positions position))
        node := by
  have deeper : ∀ key path, (key :: path == ([] : KeyPath)) = false := fun _ _ => rfl
  cases node with
  | array items => rw [compact, compact, dropItems_array, keptItems_compactItems kept]
  | object members =>
      rw [compact, compact, compactMembers_eq_map, compactMembers_eq_map]
      simp only [deeper, Bool.false_and, Bool.or_false]
      rfl
  | null => rfl
  | bool value => rfl
  | number value => rfl
  | string text => rfl

/-- A change of one child of a compacted node that makes of the child what another compaction makes
of it, where the two compactions agree on all other children. -/
theorem changeChild_compact {α : Type} {node : Json} (regular : node.Regular) {key : String}
    {change : Json → Json × α} {dropped other : KeyPath → Nat → Bool}
    (kept : ∀ position, dropped [] position = false)
    (otherKept : ∀ position, other [] position = false)
    (here : ∀ child, child.Regular →
      (change (compact (fun path => dropped (key :: path)) child)).1 =
        compact (fun path => other (key :: path)) child)
    (elsewhere : ∀ name, name ≠ key → ∀ path, other (name :: path) = dropped (name :: path)) :
    (changeChild key change (compact dropped node)).1 = compact other node := by
  cases regular with
  | scalar noContainer =>
      rw [compact_of_isContainer_eq_false noContainer,
        compact_of_isContainer_eq_false noContainer]
      cases node <;> first | rfl | cases noContainer
  | @array items fits each =>
      rw [compact, compact, changeChild]
      rcases spelled : arrayIndex? key with _ | position
      · have notKey : ∀ index, index < items.length → toString index ≠ key := by
          rintro index inside rfl
          have isPosition : arrayIndex? (toString index) = some index :=
            arrayIndex?_repr (by omega)
          rw [isPosition] at spelled
          cases spelled
        simp only
        rw [compactItems_eq_mapIdx kept, compactItems_eq_mapIdx otherKept]
        congr 2
        apply List.mapIdx_eq_mapIdx_iff.mpr
        intro index inside
        simp only [Nat.zero_add]
        congr 1
        funext path
        exact (elsewhere _ (notKey index inside) path).symm
      · rcases arrayIndex?_eq_some_iff.mp spelled with ⟨_, rfl⟩
        simp only
        congr 1
        apply changeItem_compactItems kept otherKept
        · intro item found
          exact here item (each item (List.mem_of_getElem? found))
        · intro index inside differs path
          apply elsewhere
          intro same
          exact differs (position_eq_of_toString_eq (by omega) (by omega) same)
  | object distinct each =>
      rw [compact, compact, changeChild]
      simp only
      congr 1
      apply changeMember_compactMembers distinct
      · intro value inside
        exact here value (each _ inside)
      · exact elsewhere

/-- Dropping items of one array comes on top of the items dropped so far, if none of these was in an
array on the way. -/
theorem modifyAt_dropItems_compact {node : Json} (regular : node.Regular)
    {dropped : KeyPath → Nat → Bool} {positions : Nat → Bool} {array : KeyPath}
    (untouched : ∀ upper, upper <+: array → ∀ position, dropped upper position = false) :
    modifyAt (dropItems positions) array (compact dropped node) =
      compact (fun path position => dropped path position || (path == array && positions position))
        node := by
  induction array generalizing node dropped with
  | nil => exact dropItems_compact (untouched [] (List.prefix_refl _))
  | cons key rest ih =>
      have kept := untouched [] List.nil_prefix
      have restUntouched : ∀ upper, upper <+: rest → ∀ position,
          dropped (key :: upper) position = false := by
        intro upper above
        exact untouched (key :: upper) (List.cons_prefix_cons.mpr ⟨rfl, above⟩)
      have consEq : ∀ other path, (other :: path == key :: rest) =
          (other == key && path == rest) := fun _ _ => rfl
      rw [modifyAt_cons]
      apply changeChild_compact regular kept
      · intro position
        rw [kept]
        rfl
      · intro child childRegular
        have further := ih childRegular restUntouched
        simp only [consEq, beq_self_eq_true, Bool.true_and]
        exact further
      · intro other differs path
        funext position
        rw [consEq, beq_eq_false_iff_ne.mpr differs, Bool.false_and, Bool.false_and, Bool.or_false]

/-- Dropping from arrays that come before all arrays above them is one pass. -/
theorem foldr_dropItems_eq_compact {node : Json} (regular : node.Regular)
    {entries : List (KeyPath × Std.TreeSet Nat)}
    (ordered : entries.Pairwise fun earlier later => ¬later.1 <+: earlier.1) :
    entries.foldr (fun entry root => modifyAt (dropItems entry.2.contains) entry.1 root) node =
      compact (fun path position =>
        entries.any fun entry => path == entry.1 && entry.2.contains position) node := by
  induction entries with
  | nil => exact regular.compact_eq_self.symm
  | cons entry entries ih =>
      rcases List.pairwise_cons.mp ordered with ⟨notBelow, othersOrdered⟩
      have untouched : ∀ upper, upper <+: entry.1 → ∀ position,
          (entries.any fun other => upper == other.1 && other.2.contains position) = false := by
        intro upper above position
        apply List.any_eq_false.mpr
        intro other inside isUpper
        rw [Bool.and_eq_true, beq_iff_eq] at isUpper
        apply notBelow other inside
        rw [← isUpper.1]
        exact above
      rw [List.foldr_cons, ih othersOrdered, modifyAt_dropItems_compact regular untouched]
      congr 1
      funext path position
      rw [List.any_cons, Bool.or_comm]

theorem not_prefix_of_compare_eq_lt {earlier later : KeyPath}
    (ascending : compare earlier later = .lt) : ¬later <+: earlier := by
  rintro ⟨rest, rfl⟩
  induction later with
  | nil => cases rest <;> cases ascending
  | cons key later ih =>
      rw [List.compare_eq_compareLex] at ascending ih
      rw [List.cons_append, List.compareLex_cons_cons, Std.compare_self, Ordering.then] at ascending
      exact ih ascending

end Graft.Json

namespace Graft.Draft

/-- No array comes after one that lies inside it. -/
theorem pairwise_doomed (draft : Draft) :
    draft.doomed.toList.Pairwise fun earlier later => ¬later.1 <+: earlier.1 := by
  apply Std.TreeMap.ordered_keys_toList.imp
  intro earlier later ascending
  exact Json.not_prefix_of_compare_eq_lt ascending

theorem any_doomed (draft : Draft) (array : KeyPath) (position : Nat) :
    (draft.doomed.toList.any fun entry => array == entry.1 && entry.2.contains position) =
      (draft.doomed.getD array ∅).contains position := by
  apply Bool.eq_iff_iff.mpr
  rw [List.any_eq_true]
  constructor
  · rintro ⟨⟨other, positions⟩, isEntry, here⟩
    rw [Bool.and_eq_true, beq_iff_eq] at here
    rcases here with ⟨rfl, inside⟩
    have found := Std.TreeMap.mem_toList_iff_getElem?_eq_some.mp isEntry
    rw [Std.TreeMap.getD_eq_getD_getElem?, found]
    exact inside
  · intro inside
    rw [Std.TreeMap.getD_eq_getD_getElem?] at inside
    rcases found : draft.doomed[array]? with _ | positions
    · rw [found] at inside
      simp at inside
    · rw [found] at inside
      refine ⟨(array, positions), Std.TreeMap.mem_toList_iff_getElem?_eq_some.mpr found, ?_⟩
      rw [beq_self_eq_true, Bool.true_and]
      exact inside

/-- Finishing a draft of a regular tree drops all doomed slots in one pass. -/
theorem finish_eq_compact (draft : Draft) (regular : draft.root.Regular) :
    draft.finish = draft.root.compact fun array position =>
      (draft.doomed.getD array ∅).contains position := by
  rw [finish, Std.TreeMap.foldr_eq_foldr_toList,
    Json.foldr_dropItems_eq_compact regular draft.pairwise_doomed]
  congr 1
  funext array position
  exact draft.any_doomed array position

end Graft.Draft
