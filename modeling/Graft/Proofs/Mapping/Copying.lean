import Graft.Mapping.Basic
import Graft.Proofs.Mapping.Run
import Graft.Proofs.Tree.Beside
import Graft.Proofs.Tree.Copies

/-!
# Maps that copy every leaf

A map whose rules send every leaf somewhere stores the listed leaves one after the other into an
empty object, for nothing is ever vacated. The map that leaves each leaf at its path reproduces a
document just if no object below the root starts like an array, and what it makes of any tree is
such a document.
-/

namespace Graft

theorem Draft.write_of_forall_not_mem {draft : Draft} (noSlots : ∀ slot, slot ∉ draft.vacated)
    {path : KeyPath} (nonempty : path ≠ []) (value : Json) :
    (draft.write path value).1.root =
        (Json.store (fun _ => false) value [] path draft.root).1 ∧
      (draft.write path value).2 =
        (Json.store (fun _ => false) value [] path draft.root).2.map (fun _ => ()) ∧
      ∀ slot, slot ∉ (draft.write path value).1.vacated := by
  have sameStore : Json.store draft.vacated.contains value [] path draft.root =
      Json.store (fun _ => false) value [] path draft.root := by
    apply Json.store_congr
    intro upper _
    exact Bool.eq_false_iff.mpr (noSlots upper)
  refine ⟨?_, ?_, ?_⟩
  · rw [draft.root_write nonempty, sameStore]
  · rw [draft.outcome_write nonempty, sameStore]
  · intro slot isSlot
    exact noSlots slot (mem_vacated_of_mem_vacated_write isSlot)

namespace RuleSet

/-- Copying leaves that all have a place stores them there one after the other. -/
theorem runSteps_copy_eq_storeAll (rules : RuleSet) {place : KeyPath × Json → KeyPath × Json}
    {listed : List (KeyPath × Json)} {draft : Draft} (noSlots : ∀ slot, slot ∉ draft.vacated)
    (places : ∀ leaf ∈ listed, (place leaf).1 ≠ [] ∧
      rules.verdict leaf.1 leaf.2 = .place (place leaf).1 (place leaf).2) :
    (runSteps rules.copy listed draft).1.root =
        (Json.storeAll [] (listed.map place) draft.root).1 ∧
      (runSteps rules.copy listed draft).2 =
        (Json.storeAll [] (listed.map place) draft.root).2.mapError .write ∧
      ∀ slot, slot ∉ (runSteps rules.copy listed draft).1.vacated := by
  induction listed generalizing draft with
  | nil => exact ⟨rfl, rfl, noSlots⟩
  | cons leaf listed ih =>
      rcases List.forall_mem_cons.mp places with ⟨⟨nonempty, placed⟩, othersPlaced⟩
      rcases Draft.write_of_forall_not_mem noSlots nonempty (place leaf).2 with
        ⟨root, outcome, stillNoSlots⟩
      have copied : rules.copy leaf draft = placeLeaf draft (place leaf).1 (place leaf).2 := by
        rw [copy, placed]
      rw [runSteps, copied, placeLeaf, List.map_cons, Json.storeAll, outcome]
      rcases stored : Json.store (fun _ => false) (place leaf).2 [] (place leaf).1 draft.root with
        ⟨changed, error | replaced⟩
      · rw [stored] at root
        exact ⟨root, rfl, stillNoSlots⟩
      · rw [stored] at root
        have others := ih stillNoSlots othersPlaced
        rw [root] at others
        exact others

end RuleSet

namespace Mapping

open Json (storeAll copyOf copyEntry)

/-- A map without value rules that has a place for every leaf gives what storing the leaves there
gives. -/
theorem value_apply_map {reference : ReferenceRule} {source : Json} (container : source.isContainer)
    {place : KeyPath × Json → KeyPath × Json}
    (places : ∀ leaf ∈ source.leaves, (place leaf).1 ≠ [] ∧
      (RuleSet.mk reference []).verdict leaf.1 leaf.2 = .place (place leaf).1 (place leaf).2) :
    ((Mapping.ofRules .map reference (.many [])).apply source).value =
      ((storeAll [] (source.leaves.map place) (.object [])).2.mapError .write).map
        fun _ => (storeAll [] (source.leaves.map place) (.object [])).1 := by
  have noSlots := Draft.not_mem_vacated_ofTree (.object [])
  rcases RuleSet.runSteps_copy_eq_storeAll ⟨reference, []⟩ noSlots places with
    ⟨root, outcome, noLastSlots⟩
  have single : ((Mapping.ofRules .map reference (.many [])).apply source).value =
      ((RuleSet.mk reference []).mapOnto source (.object [])).value := rfl
  rw [single, RuleSet.value_mapOnto _ container rfl, outcome,
    Draft.finish_of_forall_not_mem noLastSlots, root]
  rfl

theorem value_apply_map_all {source : Json} (container : source.isContainer)
    (regular : source.Regular) :
    ((Mapping.ofRules .map .all (.many [])).apply source).value =
      ((storeAll [] source.relativeLeaves (.object [])).2.mapError .write).map
        fun _ => (storeAll [] source.relativeLeaves (.object [])).1 := by
  have places : ∀ leaf ∈ source.leaves, (id leaf).1 ≠ [] ∧
      (RuleSet.mk .all []).verdict leaf.1 leaf.2 = .place (id leaf).1 (id leaf).2 := by
    intro leaf inside
    rw [Json.leaves_eq_relativeLeaves] at inside
    exact ⟨(regular.mem_relativeLeaves_iff.mp inside).1, rfl⟩
  rw [value_apply_map container places, List.map_id, Json.leaves_eq_relativeLeaves]

theorem isContainer_of_apply_eq_ok {reference : ReferenceRule} {source copy : Json}
    (isCopy : ((Mapping.ofRules .map reference (.many [])).apply source).value = .ok copy) :
    source.isContainer := by
  rcases container : source.isContainer with _ | _
  · have refused : ((Mapping.ofRules .map reference (.many [])).apply source).value =
        .error (.noContainer source) := by
      simp [Mapping.apply, ofRules, Pipeline.map, Pipeline.mapOnto, RuleSet.mapOnto, container]
    rw [refused] at isCopy
    cases isCopy
  · rfl

/-- The map that leaves every leaf at its path succeeds if all children of the root can be copied,
and then makes an object of their copies. -/
theorem apply_map_all_eq_ok_iff {source copy : Json} (container : source.isContainer)
    (regular : source.Regular) :
    ((Mapping.ofRules .map .all (.many [])).apply source).value = .ok copy ↔
      (∀ entry ∈ source.entries, (copyOf (KeyPath.child [] entry.1) entry.2).2 = .ok ()) ∧
        copy = .object (source.entries.map (copyEntry [])) := by
  have takes : (Json.object []).TakesAll source.entries := Json.takesAll_object regular.nodup_keys
  have grows : storeAll [] (Json.memberLeaves source.entries) (.object []) = (copy, .ok ()) ↔ _ :=
    Json.storeAll_memberLeaves takes
  rw [Json.foldl_putLast_object, List.nil_append] at grows
  rw [value_apply_map_all container regular, Json.relativeLeaves_eq_memberLeaves, ← grows]
  rcases storeAll [] (Json.memberLeaves source.entries) (.object []) with ⟨tree, error | _⟩
  · constructor <;> intro impossible <;> cases impossible
  · constructor
    · intro same
      cases same
      rfl
    · intro same
      cases same
      rfl

theorem apply_map_all_eq_self {members : List (String × Json)}
    (regular : (Json.object members).Regular) (reproducible : (Json.object members).Reproducible) :
    ((Mapping.ofRules .map .all (.many [])).apply (.object members)).value =
      .ok (.object members) := by
  have each := regular.reproducible_iff_entries.mp reproducible
  have copies : ∀ entry ∈ members,
      copyOf (KeyPath.child [] entry.1) entry.2 = (entry.2, .ok ()) := by
    intro entry inside
    rcases each entry inside with ⟨entryClear, entryReproducible⟩
    exact (regular.entry inside).copyOf_eq_self entryClear entryReproducible _
  apply (apply_map_all_eq_ok_iff rfl regular).mpr
  constructor
  · intro entry inside
    rw [copies entry inside]
  · exact congrArg Json.object (Json.map_copyEntry_eq_self copies).symm

theorem reproducible_of_rearranged_copy {members : List (String × Json)} {copy : Json}
    (regular : (Json.object members).Regular)
    (isCopy : ((Mapping.ofRules .map .all (.many [])).apply (.object members)).value = .ok copy)
    (rearranged : (Json.object members).Rearranged copy) : (Json.object members).Reproducible := by
  rcases (apply_map_all_eq_ok_iff rfl regular).mp isCopy with ⟨success, isRefilled⟩
  subst isRefilled
  have entriesRearranged := regular.rearranged_entry rearranged
  apply regular.reproducible_iff_entries.mpr
  intro entry inside
  exact (regular.entry inside).reproducible_of_rearranged
    (Json.copyOf_eq_of_ok (success entry inside)) (entriesRearranged entry inside)

/-- What a copying map gives is a regular object that it reproduces. -/
theorem exists_reproducible_of_apply_map_all {source copy : Json} (regular : source.Regular)
    (isCopy : ((Mapping.ofRules .map .all (.many [])).apply source).value = .ok copy) :
    ∃ members, copy = .object members ∧ copy.Regular ∧ copy.Reproducible := by
  have container := isContainer_of_apply_eq_ok isCopy
  rcases (apply_map_all_eq_ok_iff container regular).mp isCopy with ⟨success, isObject⟩
  have copyRegular : copy.Regular := by
    have leavesRegular : ∀ leaf ∈ source.relativeLeaves, leaf.2.Regular := by
      intro leaf inside
      exact regular.get? (regular.mem_relativeLeaves_iff.mp inside).2.1
    have stored : (storeAll [] source.relativeLeaves (.object [])).1.Regular :=
      Json.Regular.storeAll (.object (by simp) (by simp)) leavesRegular
    rw [value_apply_map_all container regular] at isCopy
    rcases outcome : storeAll [] source.relativeLeaves (.object []) with ⟨tree, error | _⟩
    · rw [outcome] at isCopy
      cases isCopy
    · rw [outcome] at isCopy stored
      cases isCopy
      exact stored
  refine ⟨_, isObject, copyRegular, ?_⟩
  subst isObject
  apply copyRegular.reproducible_iff_entries.mpr
  intro copied inside
  rcases List.mem_map.mp inside with ⟨entry, isEntry, rfl⟩
  exact (regular.entry isEntry).reproducible_of_copyOf
    (Json.copyOf_eq_of_ok (success entry isEntry))

/-- The map that leaves every leaf at its path makes a copy of an object, up to the order of
members, just if no object below the root starts like an array. -/
theorem exists_rearranged_copy_iff {members : List (String × Json)}
    (regular : (Json.object members).Regular) :
    (∃ copy, ((Mapping.ofRules .map .all (.many [])).apply (.object members)).value = .ok copy ∧
        (Json.object members).Rearranged copy) ↔ (Json.object members).Reproducible := by
  constructor
  · rintro ⟨copy, isCopy, rearranged⟩
    exact reproducible_of_rearranged_copy regular isCopy rearranged
  · intro reproducible
    exact ⟨_, apply_map_all_eq_self regular reproducible, .refl _⟩

/-- An object whose root has a position for its first name, above an array, an object in which a
position is a later name, and an empty object. -/
def mixedMembers : List (String × Json) :=
  [("0", .array #[.object [("name", .null), ("0", .bool true)], .object []]), ("note", .array #[])]

theorem reproducible_mixedMembers : (Json.object mixedMembers).Reproducible :=
  (exists_rearranged_copy_iff (by decide)).mp ⟨_, rfl, .refl _⟩

/-- An object with an object below the root whose only name spells a position. -/
def positionNamed : List (String × Json) := [("list", .object [("0", .null)])]

theorem not_exists_rearranged_copy_positionNamed :
    ¬∃ copy,
      ((Mapping.ofRules .map .all (.many [])).apply (.object positionNamed)).value = .ok copy ∧
        (Json.object positionNamed).Rearranged copy := by
  rintro ⟨copy, isCopy, rearranged⟩
  have made : ((Mapping.ofRules .map .all (.many [])).apply (.object positionNamed)).value =
      .ok (.object [("list", .array #[.null])]) := rfl
  rw [made] at isCopy
  cases isCopy
  have listRearranged := rearranged.member (by decide) List.mem_cons_self List.mem_cons_self
  cases listRearranged.isArray_eq

/-- The map that leaves every leaf at its path gives back an object as it is just if no object below
the root starts like an array, and a second map changes nothing in what the first one gives. -/
theorem apply_map_all_eq_self_iff :
    (∀ members : List (String × Json), (Json.object members).Regular →
      (((Mapping.ofRules .map .all (.many [])).apply (.object members)).value =
          .ok (.object members) ↔ (Json.object members).Reproducible)) ∧
      ∀ source copy : Json, source.Regular →
        ((Mapping.ofRules .map .all (.many [])).apply source).value = .ok copy →
          ((Mapping.ofRules .map .all (.many [])).apply copy).value = .ok copy := by
  constructor
  · intro members regular
    constructor
    · intro isCopy
      exact reproducible_of_rearranged_copy regular isCopy (.refl _)
    · exact apply_map_all_eq_self regular
  · intro source copy regular isCopy
    rcases exists_reproducible_of_apply_map_all regular isCopy with
      ⟨members, rfl, copyRegular, reproducible⟩
    exact apply_map_all_eq_self copyRegular reproducible

/-- The copy of an array with an object that starts like an array has an object at the root and an
array below it, and stays as it is when it is copied again. -/
theorem apply_map_all_twice_positionNames :
    ((Mapping.ofRules .map .all (.many [])).apply (.array #[.object [("2", .bool true)]])).value =
        .ok (.object [("0", .array #[.null, .null, .bool true])]) ∧
      ((Mapping.ofRules .map .all (.many [])).apply
          (.object [("0", .array #[.null, .null, .bool true])])).value =
        .ok (.object [("0", .array #[.null, .null, .bool true])]) ∧
      (Json.object [("0", .array #[.null, .null, .bool true])]).Reproducible := by
  have again : ((Mapping.ofRules .map .all (.many [])).apply
      (.object [("0", .array #[.null, .null, .bool true])])).value =
        .ok (.object [("0", .array #[.null, .null, .bool true])]) :=
    apply_map_all_eq_self_iff.2 (.array #[.object [("2", .bool true)]]) _ (by decide) rfl
  exact ⟨rfl, again, (apply_map_all_eq_self_iff.1 _ (by decide)).mp again⟩

end Mapping

end Graft
