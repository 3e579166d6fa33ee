import Graft.Proofs.Tree.Removal
import Graft.Proofs.Tree.Store
import Graft.Tree.Draft

/-!
# What a draft remembers

Two invariants carry a draft from change to change. A settled draft has `null` in every vacated
slot, so that nothing can be hidden in one. A draft keeps a value at a target if the value is there,
no vacated slot is on the way to it or inside it, and every position that the target takes in an
array is noted as written. A write makes a settled draft keep its value, and a change that is apart
from the target does not end that.
-/

namespace Graft.Draft

open KeyPath (Apart)

/-- A position of an array is noted if it or a later one was written. -/
def Noted (written : Std.TreeMap KeyPath Nat) (array : KeyPath) (position : Nat) : Prop :=
  ∃ highest, written[array]? = some highest ∧ position ≤ highest

theorem Noted.noteWritten {written : Std.TreeMap KeyPath Nat} {array : KeyPath} {position : Nat}
    (noted : Noted written array position) (step : KeyPath × Nat) :
    Noted (noteWritten written step) array position := by
  rcases noted with ⟨highest, isHighest, below⟩
  by_cases same : step.1 = array
  · refine ⟨max step.2 highest, ?_, by omega⟩
    rw [Draft.noteWritten, Std.TreeMap.getElem?_insert, same, Std.TreeMap.getD_eq_getD_getElem?,
      isHighest]
    simp
  · refine ⟨highest, ?_, below⟩
    rw [Draft.noteWritten, Std.TreeMap.getElem?_insert, if_neg (by simpa using same), isHighest]

theorem noted_noteWritten (written : Std.TreeMap KeyPath Nat) (array : KeyPath) (position : Nat) :
    Noted (noteWritten written (array, position)) array position := by
  refine ⟨max position (written.getD array 0), ?_, by omega⟩
  rw [noteWritten, Std.TreeMap.getElem?_insert]
  simp

theorem noted_foldl_noteWritten {written : Std.TreeMap KeyPath Nat} {array : KeyPath}
    {position : Nat} (steps : List (KeyPath × Nat))
    (noted : (array, position) ∈ steps ∨ Noted written array position) :
    Noted (steps.foldl noteWritten written) array position := by
  induction steps generalizing written with
  | nil =>
      rcases noted with impossible | noted
      · cases impossible
      · exact noted
  | cons step steps ih =>
      apply ih
      rcases noted with inside | noted
      · rcases List.mem_cons.mp inside with isFirst | later
        · subst isFirst
          exact Or.inr (noted_noteWritten written array position)
        · exact Or.inl later
      · exact Or.inr (noted.noteWritten step)

theorem getElem?_foldl_noteWritten {written : Std.TreeMap KeyPath Nat} {array : KeyPath}
    {steps : List (KeyPath × Nat)} (elsewhere : ∀ step ∈ steps, step.1 ≠ array) :
    (steps.foldl noteWritten written)[array]? = written[array]? := by
  induction steps generalizing written with
  | nil => rfl
  | cons step steps ih =>
      rcases List.forall_mem_cons.mp elsewhere with ⟨differs, others⟩
      rw [List.foldl_cons, ih others, noteWritten, Std.TreeMap.getElem?_insert,
        if_neg (by simpa using differs)]

theorem mem_revive {vacated : Std.TreeSet KeyPath} {location keys slot : KeyPath} :
    slot ∈ revive vacated location keys ↔
      slot ∈ vacated ∧ ∀ upper, upper ≠ [] → upper <+: keys → slot ≠ location ++ upper := by
  induction keys generalizing vacated location with
  | nil =>
      simp only [revive, List.prefix_nil]
      constructor
      · intro isSlot
        exact ⟨isSlot, fun upper nonempty empty => absurd empty nonempty⟩
      · exact And.left
  | cons key rest ih =>
      rw [revive, ih, Std.TreeSet.mem_erase]
      constructor
      · rintro ⟨⟨differs, isSlot⟩, later⟩
        refine ⟨isSlot, ?_⟩
        rintro (_ | ⟨first, upper⟩) nonempty isUpper same
        · exact nonempty rfl
        · rcases List.cons_prefix_cons.mp isUpper with ⟨rfl, restUpper⟩
          rcases upper with _ | ⟨second, upper⟩
          · exact differs (Std.compare_eq_iff_eq.mpr same.symm)
          · apply later (second :: upper) (by simp) restUpper
            rw [same, Json.child_append]
      · rintro ⟨isSlot, others⟩
        refine ⟨⟨?_, isSlot⟩, ?_⟩
        · intro same
          exact others [key] (by simp) (by simp) (Std.compare_eq_iff_eq.mp same).symm
        · intro upper nonempty isUpper same
          apply others (key :: upper) (by simp) (List.cons_prefix_cons.mpr ⟨rfl, isUpper⟩)
          rw [same, Json.child_append]

/-- Whatever comes of a write, the tree is as the attempt to store left it. -/
theorem root_write (draft : Draft) {path : KeyPath} (nonempty : path ≠ []) (value : Json) :
    (draft.write path value).1.root =
      (Json.store draft.vacated.contains value [] path draft.root).1 := by
  have notEmpty : path.isEmpty = false := by simpa using nonempty
  simp only [write, notEmpty, Bool.false_eq_true, if_false]
  split
  · rfl
  · split <;> rfl

theorem outcome_write (draft : Draft) {path : KeyPath} (nonempty : path ≠ []) (value : Json) :
    (draft.write path value).2 =
      (Json.store draft.vacated.contains value [] path draft.root).2.map fun _ => () := by
  have notEmpty : path.isEmpty = false := by simpa using nonempty
  simp only [write, notEmpty, Bool.false_eq_true, if_false]
  split
  case h_1 error failed =>
    rw [failed]
    rfl
  case h_2 replaced stored =>
    rw [stored]
    split <;> rfl

/-- What a successful write does to a draft. -/
theorem write_ok {draft changed : Draft} {path : KeyPath} {value : Json}
    (success : draft.write path value = (changed, .ok ())) :
    path ≠ [] ∧ ∃ replaced,
      Json.store draft.vacated.contains value [] path draft.root = (changed.root, .ok replaced) ∧
      (∀ slot, slot ∈ changed.vacated ↔
        slot ∈ draft.vacated ∧ (∀ upper, upper ≠ [] → upper <+: path → slot ≠ upper) ∧
          ¬(replaced ∧ path <+: slot)) ∧
      ∀ array, ¬path <+: array → changed.written[array]? =
        ((Json.arraySteps [] path changed.root).foldl noteWritten draft.written)[array]? := by
  rcases path with _ | ⟨key, rest⟩
  · cases success
  · refine ⟨by simp, ?_⟩
    simp only [write, List.isEmpty_cons, Bool.false_eq_true, if_false] at success
    split at success
    case h_1 => cases success
    case h_2 replaced stored =>
      have outcome : Json.store draft.vacated.contains value [] (key :: rest) draft.root =
          ((Json.store draft.vacated.contains value [] (key :: rest) draft.root).1,
            .ok replaced) := Prod.ext rfl stored
      split at success
      case isTrue isReplaced =>
        cases success
        refine ⟨replaced, outcome, ?_, ?_⟩
        · intro slot
          simp [Std.TreeSet.mem_filter, mem_revive, isReplaced, and_assoc, Std.TreeSet.get_eq,
            KeyPath.isAtOrAbove_eq_false_iff]
        · intro array notBelow
          rw [Std.TreeMap.getElem?_filter', KeyPath.isAtOrAbove_eq_false_iff.mpr notBelow]
          generalize (Json.arraySteps [] (key :: rest) _).foldl _ _ = noted
          cases noted[array]? <;> rfl
      case isFalse notReplaced =>
        cases success
        refine ⟨replaced, outcome, ?_, fun array _ => rfl⟩
        intro slot
        simp [mem_revive, notReplaced]

theorem write_error {draft changed : Draft} {path : KeyPath} {value : Json} {error : WriteError}
    (failure : draft.write path value = (changed, .error error)) :
    changed.vacated = draft.vacated ∧ changed.written = draft.written := by
  rcases path with _ | ⟨key, rest⟩
  · cases failure
    exact ⟨rfl, rfl⟩
  · simp only [write, List.isEmpty_cons, Bool.false_eq_true, if_false] at failure
    split at failure
    case h_1 =>
      cases failure
      exact ⟨rfl, rfl⟩
    case h_2 =>
      split at failure <;> cases failure

/-- A write, successful or not, vacates nothing. -/
theorem mem_vacated_of_mem_vacated_write {draft : Draft} {path slot : KeyPath} {value : Json}
    (isSlot : slot ∈ (draft.write path value).1.vacated) : slot ∈ draft.vacated := by
  rcases outcome : draft.write path value with ⟨changed, error | _⟩
  · rw [outcome, (write_error outcome).1] at isSlot
    exact isSlot
  · rcases (write_ok outcome).2 with ⟨_, _, vacated, _⟩
    rw [outcome] at isSlot
    exact ((vacated slot).mp isSlot).1

theorem splitLast?_append (parent : KeyPath) (key : String) :
    KeyPath.splitLast? (parent ++ [key]) = some (parent, key) := by
  simp [KeyPath.splitLast?]

/-- What a removal does to a draft: only the removed slot can become a vacated one. -/
theorem remove_append (draft : Draft) (parent : KeyPath) (key : String) :
    (draft.remove (parent ++ [key])).1.root =
        (Json.changeAt (Json.takeChild key) parent draft.root).1 ∧
      (draft.remove (parent ++ [key])).1.written = draft.written ∧
      ∀ slot, slot ∈ (draft.remove (parent ++ [key])).1.vacated ↔
        slot ∈ draft.vacated ∨
          ((Json.changeAt (Json.takeChild key) parent draft.root).2.any (·.leavesSlot) ∧
            slot = parent ++ [key]) := by
  simp only [remove, splitLast?_append]
  rcases (Json.changeAt (Json.takeChild key) parent draft.root).2 with _ | ⟨value, _ | _⟩
  · simp
  · simp
  · refine ⟨rfl, rfl, ?_⟩
    intro slot
    simp only [if_true, Option.any_some, true_and, Std.TreeSet.mem_insert,
      Std.compare_eq_iff_eq]
    rw [or_comm, eq_comm]

/-- Every vacated slot lies below the root and holds `null`, and so has nothing below it. -/
def Settled (draft : Draft) : Prop :=
  ∀ slot ∈ draft.vacated, slot ≠ [] ∧ draft.root.get? slot = some .null

@[simp]
theorem not_mem_vacated_ofTree (root : Json) (slot : KeyPath) : slot ∉ (ofTree root).vacated := by
  simp [ofTree]

theorem settled_ofTree (root : Json) : Settled (ofTree root) :=
  fun slot isSlot => absurd isSlot (not_mem_vacated_ofTree root slot)

/-- Nothing is found below a vacated slot of a settled draft. -/
theorem Settled.eq_of_prefix {draft : Draft} (settled : Settled draft) {upper slot : KeyPath}
    {found : Json} (isSlot : upper ∈ draft.vacated) (above : upper <+: slot)
    (leads : draft.root.get? slot = some found) : slot = upper :=
  Json.eq_of_prefix_of_isLeaf (settled upper isSlot).2 rfl above leads

/-- Where a settled draft has a node, no node above it is begun afresh. -/
theorem Settled.not_vacated {draft : Draft} (settled : Settled draft) {path upper : KeyPath}
    {found : Json} (leads : draft.root.get? path = some found) (above : upper <+: path)
    (proper : upper ≠ path) : draft.vacated.contains ([] ++ upper) = false := by
  apply Bool.eq_false_iff.mpr
  intro isSlot
  exact proper (settled.eq_of_prefix isSlot above leads).symm

/-- After a successful write nothing vacated is on the way to the written path or inside it. -/
theorem Settled.apart_of_write {draft changed : Draft} (settled : Settled draft) {path : KeyPath}
    {value : Json} (success : draft.write path value = (changed, .ok ())) :
    ∀ slot ∈ changed.vacated, slot ∈ draft.vacated ∧ Apart slot path := by
  intro slot isSlot
  rcases write_ok success with ⟨_, replaced, stored, vacated, _⟩
  rcases (vacated slot).mp isSlot with ⟨wasSlot, notRevived, notForgotten⟩
  rcases settled slot wasSlot with ⟨nonempty, leads⟩
  refine ⟨wasSlot, ?_, ?_⟩
  · intro above
    exact notRevived slot nonempty above rfl
  · rintro ⟨rest, rfl⟩
    rcases rest with _ | ⟨key, rest⟩
    · apply notRevived (path ++ []) nonempty (by simp) rfl
    · rw [Json.get?_append] at leads
      rcases Option.bind_eq_some_iff.mp leads with ⟨container, leadsTo, leadsOn⟩
      rw [Json.get?_cons] at leadsOn
      rcases Option.bind_eq_some_iff.mp leadsOn with ⟨child, isChild, _⟩
      have isReplaced := Json.replaced_eq_of_store
        (fun upper above proper _ => settled.not_vacated leadsTo above proper) stored
      rw [leadsTo, Option.any_some, Json.isContainer_of_child? isChild] at isReplaced
      exact notForgotten ⟨isReplaced, List.prefix_append _ _⟩

/-- A successful write does not show along the way to a slot that is still vacated. -/
theorem Settled.agreeAlong_of_write {draft changed : Draft} (settled : Settled draft)
    {path : KeyPath} {value : Json}
    (success : draft.write path value = (changed, .ok ())) :
    ∀ slot ∈ changed.vacated, slot ∈ draft.vacated ∧
      Json.AgreeAlong slot draft.root changed.root := by
  intro slot isSlot
  rcases settled.apart_of_write success slot isSlot with ⟨wasSlot, apart⟩
  rcases settled slot wasSlot with ⟨_, leads⟩
  rcases write_ok success with ⟨_, replaced, stored, _⟩
  have agree : Json.AgreeAlong slot draft.root
      (Json.store draft.vacated.contains value [] path draft.root).1 :=
    .store apart.symm (fun upper above proper _ => settled.not_vacated leads above proper) leads
  rw [stored] at agree
  exact ⟨wasSlot, agree⟩

theorem Settled.write {draft changed : Draft} (settled : Settled draft) {path : KeyPath}
    {value : Json} (success : draft.write path value = (changed, .ok ())) : Settled changed := by
  intro slot isSlot
  rcases settled.agreeAlong_of_write success slot isSlot with ⟨wasSlot, agree⟩
  rcases settled slot wasSlot with ⟨nonempty, leads⟩
  exact ⟨nonempty, agree.get?_eq.trans leads⟩

/-- Slots that are not at or inside a node are apart from it. -/
theorem Settled.apart_of_clear {draft : Draft} (settled : Settled draft) {path : KeyPath}
    {found : Json} (leads : draft.root.get? path = some found)
    (clear : ∀ slot ∈ draft.vacated, ¬path <+: slot) : ∀ slot ∈ draft.vacated, Apart path slot := by
  intro slot isSlot
  refine ⟨clear slot isSlot, ?_⟩
  intro above
  rw [settled.eq_of_prefix isSlot above leads] at clear
  exact clear slot isSlot List.prefix_rfl

/-- No vacated slot is inside a leaf. -/
theorem Settled.clear_of_isLeaf {draft : Draft} (settled : Settled draft) {path : KeyPath}
    {leaf : Json} (leads : draft.root.get? path = some leaf) (isLeaf : leaf.isLeaf)
    (notVacated : path ∉ draft.vacated) : ∀ slot ∈ draft.vacated, ¬path <+: slot := by
  intro slot isSlot above
  have slotLeads := (settled slot isSlot).2
  rw [Json.eq_of_prefix_of_isLeaf leads isLeaf above slotLeads] at isSlot
  exact notVacated isSlot

/-- A settled draft stays settled if what is taken out has no vacated slot at it or inside it. -/
theorem Settled.remove_of_clear {draft : Draft} (settled : Settled draft) {path : KeyPath}
    {found : Json} (leads : draft.root.get? path = some found)
    (clear : ∀ slot ∈ draft.vacated, ¬path <+: slot) : Settled (draft.remove path).1 := by
  rcases List.eq_nil_or_concat path with rfl | ⟨parent, key, isConcat⟩
  · exact settled
  · rw [List.concat_eq_append] at isConcat
    subst isConcat
    rcases remove_append draft parent key with ⟨root, _, vacated⟩
    rcases Json.changeAt_takeChild_spec leads with ⟨taken, holdsNull⟩
    intro slot isSlot
    rcases (vacated slot).mp isSlot with wasSlot | ⟨left, rfl⟩
    · rcases settled slot wasSlot with ⟨nonempty, slotLeads⟩
      refine ⟨nonempty, ?_⟩
      have apart := settled.apart_of_clear leads clear slot wasSlot
      rw [root, (Json.AgreeAlong.takeChild apart slotLeads).get?_eq, slotLeads]
    · refine ⟨by simp, ?_⟩
      rw [taken] at left
      rw [root]
      exact holdsNull left

theorem Settled.remove {draft : Draft} (settled : Settled draft) {path : KeyPath} {leaf : Json}
    (leads : draft.root.get? path = some leaf) (isLeaf : leaf.isLeaf)
    (notVacated : path ∉ draft.vacated) : Settled (draft.remove path).1 :=
  settled.remove_of_clear leads (settled.clear_of_isLeaf leads isLeaf notVacated)

/-- A write that is apart from a node, successful or not, does not show along the way to the node if
no slot on that way is vacated. -/
theorem agreeAlong_write {draft : Draft} {target path : KeyPath} {found : Json}
    (slotsApart : ∀ slot ∈ draft.vacated, Apart slot target)
    (leads : draft.root.get? target = some found) (apart : Apart path target) (value : Json) :
    Json.AgreeAlong target draft.root (draft.write path value).1.root := by
  have nonempty : path ≠ [] := by
    rintro rfl
    exact KeyPath.not_apart_nil target apart
  have clear : ∀ upper, upper <+: target → upper ≠ target → upper ≠ [] →
      draft.vacated.contains ([] ++ upper) = false := by
    intro upper above _ _
    apply Bool.eq_false_iff.mpr
    intro isSlot
    exact (slotsApart upper isSlot).1 above
  rw [root_write draft nonempty value]
  exact .store apart clear leads

/-- A removal that is apart from a node does not show along the way to the node. -/
theorem agreeAlong_remove {draft : Draft} {target path : KeyPath} {found : Json}
    (leads : draft.root.get? target = some found) (apart : Apart path target) :
    Json.AgreeAlong target draft.root (draft.remove path).1.root := by
  rcases List.eq_nil_or_concat path with rfl | ⟨parent, key, isConcat⟩
  · exact .refl leads
  · rw [List.concat_eq_append] at isConcat
    subst isConcat
    rw [(remove_append draft parent key).1]
    exact .takeChild apart leads

/-- A removal notes no position, and vacates at most the removed slot. -/
theorem remove_spec (draft : Draft) (path : KeyPath) :
    (draft.remove path).1.written = draft.written ∧
      ∀ slot ∈ (draft.remove path).1.vacated, slot ∈ draft.vacated ∨ slot = path := by
  rcases List.eq_nil_or_concat path with rfl | ⟨parent, key, isConcat⟩
  · exact ⟨rfl, fun slot isSlot => Or.inl isSlot⟩
  · rw [List.concat_eq_append] at isConcat
    subst isConcat
    rcases remove_append draft parent key with ⟨_, written, vacated⟩
    exact ⟨written, fun slot isSlot => ((vacated slot).mp isSlot).imp_right And.right⟩

/-- The value is at the target, and neither a slot nor an unnoted position can take it from
there. -/
structure Keeps (draft : Draft) (target : KeyPath) (value : Json) : Prop where
  present : draft.root.get? target = some value
  apart : ∀ slot ∈ draft.vacated, Apart slot target
  noted : ∀ array position, (array, position) ∈ Json.arraySteps [] target draft.root →
    Noted draft.written array position

/-- A draft keeps what was written if the write leaves no vacated slot around or inside it. -/
theorem keeps_of_write {draft changed : Draft} {target : KeyPath} {value : Json}
    (success : draft.write target value = (changed, .ok ()))
    (apart : ∀ slot ∈ changed.vacated, Apart slot target) : Keeps changed target value := by
  rcases write_ok success with ⟨_, replaced, stored, _, written⟩
  refine ⟨Json.get?_store stored, apart, ?_⟩
  intro array position step
  have notBelow : ¬target <+: array := by
    rcases Json.eq_append_of_mem_arraySteps step with ⟨upper, rest, rfl, isTarget⟩
    rw [isTarget]
    intro below
    have := below.length_le
    simp only [List.length_append, List.length_cons] at this
    omega
  rcases noted_foldl_noteWritten (Json.arraySteps [] target changed.root) (Or.inl step) with
    ⟨highest, isHighest, below⟩
  exact ⟨highest, (written array notBelow).trans isHighest, below⟩

/-- A draft keeps what was written while it was settled. -/
theorem Settled.keeps_of_write {draft changed : Draft} (settled : Settled draft)
    {target : KeyPath} {value : Json} (success : draft.write target value = (changed, .ok ())) :
    Keeps changed target value :=
  Draft.keeps_of_write success fun slot isSlot => (settled.apart_of_write success slot isSlot).2

/-- A write that is apart from the target, successful or not, does not end that a value is kept. -/
theorem Keeps.write {draft : Draft} {target path : KeyPath} {kept : Json}
    (keeps : Keeps draft target kept) (apart : Apart path target) (value : Json) :
    Keeps (draft.write path value).1 target kept := by
  have agree := agreeAlong_write keeps.apart keeps.present apart value
  rcases success : draft.write path value with ⟨changed, _ | _⟩
  · rw [success] at agree
    rcases write_error success with ⟨vacated, written⟩
    refine ⟨agree.get?_eq.trans keeps.present, ?_, ?_⟩
    · rw [vacated]
      exact keeps.apart
    · rw [written, agree.arraySteps_eq []]
      exact keeps.noted
  · rw [success] at agree
    rcases write_ok success with ⟨_, replaced, _, vacated, written⟩
    refine ⟨agree.get?_eq.trans keeps.present, ?_, ?_⟩
    · intro slot isSlot
      exact keeps.apart slot ((vacated slot).mp isSlot).1
    · intro array position step
      rw [agree.arraySteps_eq []] at step
      have notBelow : ¬path <+: array := by
        rcases Json.eq_append_of_mem_arraySteps step with ⟨upper, rest, rfl, isTarget⟩
        intro below
        apply apart.1
        rw [isTarget]
        exact below.trans (List.prefix_append _ _)
      rcases noted_foldl_noteWritten (Json.arraySteps [] path changed.root)
          (Or.inr (keeps.noted array position step)) with ⟨highest, isHighest, below⟩
      exact ⟨highest, (written array notBelow).trans isHighest, below⟩

theorem Keeps.remove {draft : Draft} {target path : KeyPath} {kept : Json}
    (keeps : Keeps draft target kept) (apart : Apart path target) :
    Keeps (draft.remove path).1 target kept := by
  have agree := agreeAlong_remove keeps.present apart
  rcases draft.remove_spec path with ⟨written, vacated⟩
  refine ⟨agree.get?_eq.trans keeps.present, ?_, ?_⟩
  · intro slot isSlot
    rcases vacated slot isSlot with wasSlot | rfl
    · exact keeps.apart slot wasSlot
    · exact apart
  · rw [written, agree.arraySteps_eq []]
    exact keeps.noted

end Graft.Draft
