import Graft.Proofs.Tree.Kind
import Graft.Proofs.Tree.Writing

/-!
# Slots of arrays

A draft is orderly if every vacated slot is an item of an array and holds `null`. Then no vacated
slot is inside another, and a write that comes to one comes from the array: it never begins the
member of an object anew. Taking out a leaf keeps a draft orderly, and so does a write that
succeeds.
-/

namespace Graft

namespace Json

/-- The path leads to an item of an array, and the item is `null`. -/
def IsEmptySlot (root : Json) (slot : KeyPath) : Prop :=
  ∃ array key items position, slot = array ++ [key] ∧ root.get? array = some (.array items) ∧
    arrayIndex? key = some position ∧ items[position]? = some .null

theorem isEmptySlot_iff {root : Json} {slot : KeyPath} :
    root.IsEmptySlot slot ↔ slot ≠ [] ∧ root.get? slot = some .null ∧ root.inArray slot := by
  constructor
  · rintro ⟨array, key, items, position, rfl, leads, spelled, isNull⟩
    refine ⟨by simp, ?_, ?_⟩
    · simp [get?_append, leads, get?_cons, child?, spelled, isNull]
    · simp [inArray, leads, isArray]
  · rintro ⟨nonempty, leads, isItem⟩
    rcases List.eq_nil_or_concat slot with rfl | ⟨array, key, isConcat⟩
    · exact absurd rfl nonempty
    · rw [List.concat_eq_append] at isConcat
      subst isConcat
      rw [inArray, List.dropLast_concat] at isItem
      rcases (Option.any_eq_true _ _).mp isItem with ⟨node, leadsTo, nodeIsArray⟩
      cases node with
      | array items =>
          rw [get?_append, leadsTo, Option.bind_some, get?_cons] at leads
          rcases Option.bind_eq_some_iff.mp leads with ⟨item, isChild, isNull⟩
          cases isNull
          rcases Option.bind_eq_some_iff.mp isChild with ⟨position, spelled, found⟩
          exact ⟨array, key, items, position, rfl, leadsTo, spelled, found⟩
      | _ => cases nodeIsArray

/-- What agrees along the way to an empty slot has the slot as well. -/
theorem IsEmptySlot.congr {root other : Json} {slot : KeyPath} (isEmpty : root.IsEmptySlot slot)
    (agree : AgreeAlong slot root other) : other.IsEmptySlot slot := by
  rcases isEmptySlot_iff.mp isEmpty with ⟨nonempty, leads, isItem⟩
  apply isEmptySlot_iff.mpr
  rw [agree.get?_eq, agree.inArray_eq nonempty]
  exact ⟨nonempty, leads, isItem⟩

/-- An item that is taken out leaves an empty slot. -/
theorem isEmptySlot_changeAt_takeChild {root found : Json} {parent : KeyPath} {key : String}
    (leads : root.get? (parent ++ [key]) = some found)
    (leavesSlot : (changeAt (takeChild key) parent root).2.any (·.leavesSlot)) :
    (changeAt (takeChild key) parent root).1.IsEmptySlot (parent ++ [key]) := by
  rcases changeAt_takeChild_spec leads with ⟨taken, holdsNull⟩
  rw [taken] at leavesSlot
  refine isEmptySlot_iff.mpr ⟨by simp, holdsNull leavesSlot, ?_⟩
  rw [inArray, List.dropLast_concat, any_isArray_get?_changeAt (sameKind_takeChild key)]
  exact leavesSlot

end Json

namespace Draft

/-- Every vacated slot is an item of an array and holds `null`. -/
def Orderly (draft : Draft) : Prop := ∀ slot ∈ draft.vacated, draft.root.IsEmptySlot slot

/-- A write to a path comes to an object, and from there goes on to a member that is vacated. -/
def RevivesMember (draft : Draft) (path : KeyPath) : Prop :=
  ∃ upper key members, draft.Meets path upper key (.object members) ∧
    draft.isVacated (upper.child key)

variable {draft : Draft}

theorem orderly_ofTree (root : Json) : Orderly (ofTree root) :=
  fun slot isSlot => absurd isSlot (not_mem_vacated_ofTree root slot)

theorem Orderly.settled (orderly : draft.Orderly) : draft.Settled := by
  intro slot isSlot
  rcases Json.isEmptySlot_iff.mp (orderly slot isSlot) with ⟨nonempty, leads, _⟩
  exact ⟨nonempty, leads⟩

theorem Orderly.write {changed : Draft} (orderly : draft.Orderly) {path : KeyPath} {value : Json}
    (success : draft.write path value = (changed, .ok ())) : changed.Orderly := by
  intro slot isSlot
  rcases orderly.settled.agreeAlong_of_write success slot isSlot with ⟨wasSlot, agree⟩
  exact (orderly slot wasSlot).congr agree

theorem Orderly.remove (orderly : draft.Orderly) {path : KeyPath} {leaf : Json}
    (leads : draft.root.get? path = some leaf) (isLeaf : leaf.isLeaf)
    (notVacated : path ∉ draft.vacated) : (draft.remove path).1.Orderly := by
  rcases List.eq_nil_or_concat path with rfl | ⟨parent, key, isConcat⟩
  · exact orderly
  · rw [List.concat_eq_append] at isConcat
    subst isConcat
    have clear := orderly.settled.clear_of_isLeaf leads isLeaf notVacated
    rcases remove_append draft parent key with ⟨root, _, vacated⟩
    intro slot isSlot
    rcases (vacated slot).mp isSlot with wasSlot | ⟨left, rfl⟩
    · rcases orderly.settled slot wasSlot with ⟨_, slotLeads⟩
      have apart := orderly.settled.apart_of_clear leads clear slot wasSlot
      exact (orderly slot wasSlot).congr (agreeAlong_remove slotLeads apart)
    · rw [root]
      exact Json.isEmptySlot_changeAt_takeChild leads left

/-- No vacated slot is inside another. -/
theorem Orderly.eq_of_prefix (orderly : draft.Orderly) {slot other : KeyPath}
    (isSlot : slot ∈ draft.vacated) (isOther : other ∈ draft.vacated) (above : slot <+: other) :
    other = slot :=
  orderly.settled.eq_of_prefix isSlot above (orderly.settled other isOther).2

/-- A write that comes to a vacated slot comes from the array there. -/
theorem Orderly.isArray_of_meets (orderly : draft.Orderly) {path upper : KeyPath} {key : String}
    {met : Json} (meets : draft.Meets path upper key met)
    (isSlot : upper.child key ∈ draft.vacated) : met.isArray := by
  rcases Json.isEmptySlot_iff.mp (orderly _ isSlot) with ⟨_, leads, isItem⟩
  rw [Json.inArray, KeyPath.child, List.dropLast_concat] at isItem
  rcases meets with ⟨rest, rfl, ⟨leadsTo, _⟩ | (missing | renewed)⟩
  · rw [leadsTo] at isItem
    exact isItem
  · rw [missing] at isItem
    cases isItem
  · -- A node that is begun anew lies in a vacated slot, which is then above this one.
    rcases renewed with ⟨slot, _, _, _, above, vacated⟩
    have wasSlot : slot ∈ draft.vacated := vacated
    have same := orderly.eq_of_prefix wasSlot isSlot (above.trans (List.prefix_append upper [key]))
    rw [← same] at above
    have tooLong := above.length_le
    simp only [KeyPath.child, List.length_append, List.length_singleton] at tooLong
    omega

theorem Orderly.not_revivesMember (orderly : draft.Orderly) (path : KeyPath) :
    ¬draft.RevivesMember path := by
  rintro ⟨upper, key, members, meets, vacated⟩
  cases orderly.isArray_of_meets meets vacated

end Draft

end Graft
