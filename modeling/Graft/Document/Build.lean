import Graft.Document.Rules
import Graft.Mapping.Basic

/-!
# Building the mapping of a document

The mapping of a single document has the rules that the document lists. The mapping of a composition
runs the mappings of the stages, each of which has to be a document of the composition's own mode.
The first thing that is not as it should be, reference rules before value rules and stages in their
order, is what building fails with. Stages nest in the document as values do, so building ends
because a stage is a smaller value.
-/

namespace Graft.Document

/-- The document that a stage of a composition is, if it is one of the right mode. -/
def stageDocument (mode : Mode) (index : Nat) (stage : Json) :
    Logged (Except DocumentError Document) :=
  let refusal : DocumentError := .mapping (.badElement index stage)
  if stage.isObject then do
    let document ← ofJson stage
    match document with
    | .ok document => pure (if document.mode = mode then .ok document else .error refusal)
    | .error _ => pure (.error refusal)
  else pure (.error refusal)

/-- How large the stages of a document are together. -/
noncomputable def stagesSize : Document → Nat
  | .single _ _ _ => 0
  | .composition _ stages => sizeOf stages

theorem sizeOf_lookup_lt {members : List (String × Json)} {name : String} {value : Json}
    (found : members.lookup name = some value) : sizeOf value < sizeOf members := by
  induction members with
  | nil => simp at found
  | cons member rest ih =>
      obtain ⟨other, held⟩ := member
      rw [List.lookup_cons] at found
      split at found
      · simp only [Option.some.injEq] at found
        subst found
        simp only [List.cons.sizeOf_spec, Prod.mk.sizeOf_spec]
        omega
      · have := ih found
        simp only [List.cons.sizeOf_spec]
        omega

/-- The stages of a document are smaller than the value that it was read from. -/
theorem stagesSize_ofMembers? {members : List (String × Json)} {document : Document}
    (read : ofMembers? members = some document) : document.stagesSize < sizeOf members := by
  have positive : 0 < sizeOf members := by
    cases members <;> simp only [List.nil.sizeOf_spec, List.cons.sizeOf_spec] <;> omega
  cases document with
  | single => simpa [stagesSize] using positive
  | composition mode stages =>
      simp only [ofMembers?, Option.or_eq_some_iff] at read
      rcases read with read | ⟨_, read⟩
      · simp only [composition?] at read
        split at read
        · rename_i found
          simp only [Option.some.injEq, composition.injEq] at read
          obtain ⟨-, rfl⟩ := read
          have smaller := sizeOf_lookup_lt found
          simp only [Json.array.sizeOf_spec] at smaller
          rename_i items _
          cases items
          simp only [Array.mk.sizeOf_spec] at smaller
          simp only [stagesSize]
          omega
        · simp at read
      · simp [single?] at read

/-- The stages of a stage are smaller than the stage. -/
theorem stagesSize_stageDocument {mode : Mode} {index : Nat} {stage : Json} {document : Document}
    (read : (stageDocument mode index stage).value = .ok document) :
    document.stagesSize < sizeOf stage := by
  cases stage with
  | object members =>
      simp only [stageDocument, Json.isObject, if_true, Logged.value_bind, ofJson] at read
      cases known : ofMembers? members with
      | none => simp [known] at read
      | some inner =>
          have smaller := stagesSize_ofMembers? known
          simp only [known, Option.elim, Logged.value_pure] at read
          split at read
          · simp only [Except.ok.injEq] at read
            subst read
            simp only [Json.object.sizeOf_spec]
            omega
          · simp at read
  | null => simp [stageDocument, Json.isObject] at read
  | bool => simp [stageDocument, Json.isObject] at read
  | number => simp [stageDocument, Json.isObject] at read
  | string => simp [stageDocument, Json.isObject] at read
  | array => simp [stageDocument, Json.isObject] at read

mutual

/-- The mapping that a document describes. -/
def build (document : Document) : Logged (Except DocumentError Mapping) :=
  match document with
  | .single mode reference values =>
      pure do
        let reference ← buildReference reference
        let values ← buildValues values
        .ok (.ofRules mode reference values)
  | .composition mode stages => do
      Logged.event (.composing stages.length mode)
      let mappings ← buildStages mode 0 stages
      pure (mappings.map (.compose mode))
termination_by (document.stagesSize, 1)

/-- The mappings that stages describe, the first of which has the given index. -/
def buildStages (mode : Mode) (index : Nat) (stages : List Json) :
    Logged (Except DocumentError (List Mapping)) :=
  match stages with
  | [] => pure (.ok [])
  | stage :: others =>
      let document := stageDocument mode index stage
      match _read : document.value with
      | .error error => ⟨.error error, document.log⟩
      | .ok inner =>
          let built := build inner
          match built.value with
          | .error error => ⟨.error error, document.log ++ built.log⟩
          | .ok mapping =>
              let further := buildStages mode (index + 1) others
              ⟨further.value.map (mapping :: ·),
                document.log ++ built.log ++ further.log⟩
termination_by (sizeOf stages, 0)
decreasing_by
  · have := stagesSize_stageDocument _read
    apply Prod.Lex.left
    simp only [List.cons.sizeOf_spec]
    omega
  · apply Prod.Lex.left
    simp only [List.cons.sizeOf_spec]
    omega

end

end Graft.Document
