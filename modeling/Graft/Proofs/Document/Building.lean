import Graft.Document.Build
import Mathlib

/-!
# When building succeeds

Building a document succeeds if building all of its parts does: the rules of a single document, or
the stages of a composition, each of which is an object that reads as a document of the
composition's mode. The mapping has the mode of the document, so that every stage that was built has
its place in the composition.
-/

namespace Graft.Document

theorem value_ofJson_object (members : List (String × Json)) :
    (ofJson (.object members)).value =
      (ofMembers? members).elim (.error (.document .noDocument)) .ok := rfl

/-- A value is a stage just if it is an object that reads as a document of the right mode. -/
theorem stageDocument_eq_ok_iff {mode : Mode} {index : Nat} {stage : Json} {document : Document} :
    (stageDocument mode index stage).value = .ok document ↔
      ∃ members, stage = .object members ∧ ofMembers? members = some document ∧
        document.mode = mode := by
  cases stage with
  | object members =>
      simp only [stageDocument, Json.isObject, if_true, Logged.value_bind, value_ofJson_object,
        Json.object.injEq, exists_eq_left']
      rcases ofMembers? members with _ | found
      · simp
      · by_cases sameMode : found.mode = mode
        · simp only [Option.elim, sameMode, if_true, Logged.value_pure, Except.ok.injEq,
            Option.some.injEq]
          constructor
          · rintro rfl
            exact ⟨rfl, sameMode⟩
          · exact And.left
        · simp only [Option.elim, sameMode, if_false, Logged.value_pure, reduceCtorEq,
            Option.some.injEq, false_iff, not_and]
          rintro rfl
          exact sameMode
  | null => simp [stageDocument, Json.isObject]
  | bool value => simp [stageDocument, Json.isObject]
  | number value => simp [stageDocument, Json.isObject]
  | string text => simp [stageDocument, Json.isObject]
  | array items => simp [stageDocument, Json.isObject]

theorem build_single_eq_ok_iff {mode : Mode} {reference values : Json} {mapping : Mapping} :
    (build (.single mode reference values)).value = .ok mapping ↔
      ∃ rule rules, buildReference reference = .ok rule ∧ buildValues values = .ok rules ∧
        mapping = .ofRules mode rule rules := by
  rw [build, Logged.value_pure]
  rcases buildReference reference with error | rule
  · simp [bind, Except.bind]
  · rcases buildValues values with error | rules
    · simp [bind, Except.bind]
    · simp [bind, Except.bind, eq_comm]

theorem build_composition_eq_ok_iff {mode : Mode} {stages : List Json} {mapping : Mapping} :
    (build (.composition mode stages)).value = .ok mapping ↔
      ∃ mappings, (buildStages mode 0 stages).value = .ok mappings ∧
        mapping = .compose mode mappings := by
  rw [build]
  simp only [Logged.value_bind, Logged.value_pure]
  rcases (buildStages mode 0 stages).value with error | mappings
  · simp [Except.map]
  · simp [Except.map, eq_comm]

theorem buildStages_nil_eq_ok_iff {mode : Mode} {index : Nat} {mappings : List Mapping} :
    (buildStages mode index []).value = .ok mappings ↔ mappings = [] := by
  rw [buildStages, Logged.value_pure, Except.ok.injEq, eq_comm]

theorem buildStages_cons_eq_ok_iff {mode : Mode} {index : Nat} {stage : Json} {others : List Json}
    {mappings : List Mapping} :
    (buildStages mode index (stage :: others)).value = .ok mappings ↔
      ∃ inner mapping further, (stageDocument mode index stage).value = .ok inner ∧
        (build inner).value = .ok mapping ∧
        (buildStages mode (index + 1) others).value = .ok further ∧
        mappings = mapping :: further := by
  rw [buildStages]
  rcases (stageDocument mode index stage).value with error | inner
  · simp
  · rcases built : (build inner).value with error | mapping
    · simp [built]
    · rcases further : (buildStages mode (index + 1) others).value with error | further
      · simp [built, further, Except.map]
      · simp [built, further, Except.map, eq_comm]

theorem mode_of_build {document : Document} {mapping : Mapping}
    (built : (build document).value = .ok mapping) : mapping.mode = document.mode := by
  cases document with
  | single mode reference values =>
      rcases build_single_eq_ok_iff.mp built with ⟨rule, rules, _, _, rfl⟩
      rfl
  | composition mode stages =>
      rcases build_composition_eq_ok_iff.mp built with ⟨mappings, _, rfl⟩
      rfl

/-- Reads a value as a document and builds its mapping. -/
def load (value : Json) : Except DocumentError Mapping :=
  (ofJson value).value.bind fun document => (build document).value

theorem load_object_eq_ok_iff {members : List (String × Json)} {mapping : Mapping} :
    load (.object members) = .ok mapping ↔
      ∃ document, ofMembers? members = some document ∧ (build document).value = .ok mapping := by
  rw [load, value_ofJson_object]
  rcases ofMembers? members with _ | document
  · simp [Except.bind]
  · simp [Except.bind]

/-- Every stage is read and built by itself, and all that is built has the mode of the
composition. -/
theorem load_of_buildStages {mode : Mode} {index : Nat} {stages : List Json}
    {mappings : List Mapping} (built : (buildStages mode index stages).value = .ok mappings) :
    (∀ mapping ∈ mappings, mapping.mode = mode) ∧
      List.Forall₂ (fun stage mapping => load stage = .ok mapping) stages mappings := by
  induction stages generalizing index mappings with
  | nil =>
      cases buildStages_nil_eq_ok_iff.mp built
      exact ⟨by simp, .nil⟩
  | cons stage others ih =>
      rcases buildStages_cons_eq_ok_iff.mp built with
        ⟨inner, mapping, further, isStage, builtInner, builtOthers, rfl⟩
      rcases stageDocument_eq_ok_iff.mp isStage with ⟨members, rfl, read, rightMode⟩
      rcases ih builtOthers with ⟨othersSameMode, othersLoad⟩
      refine ⟨List.forall_mem_cons.mpr ⟨?_, othersSameMode⟩, .cons ?_ othersLoad⟩
      · exact (mode_of_build builtInner).trans rightMode
      · exact load_object_eq_ok_iff.mpr ⟨inner, read, builtInner⟩

end Graft.Document
