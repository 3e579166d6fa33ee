import Graft.Mapping.Pipeline

/-!
# Mappings

A mapping is a pipeline that runs in one of the two modes. Applied to a value, a map gives a new
tree and a transform gives the value itself, changed.
-/

namespace Graft

/-- A pipeline with the mode in which it runs. -/
structure Mapping where
  mode : Mode
  pipeline : Pipeline

namespace Mapping

/-- The mapping of one reference rule and some value rules. -/
def ofRules (mode : Mode) (reference : ReferenceRule) (values : ValueRules) : Mapping where
  mode := mode
  pipeline := .single ⟨reference, values.toList⟩

/-- The mapping that runs others as its stages, in their order. Only mappings of its own mode can be
stages of it; others have no place in it. -/
def compose (mode : Mode) (mappings : List Mapping) : Mapping where
  mode := mode
  pipeline := .sequence ((mappings.filter fun mapping => mapping.mode = mode).map Mapping.pipeline)

theorem compose_of_forall_mode {mode : Mode} {mappings : List Mapping}
    (sameMode : ∀ mapping ∈ mappings, mapping.mode = mode) :
    compose mode mappings = ⟨mode, .sequence (mappings.map Mapping.pipeline)⟩ := by
  have allKept : mappings.filter (fun mapping => mapping.mode = mode) = mappings := by
    apply List.filter_eq_self.mpr
    intro mapping inside
    exact decide_eq_true (sameMode mapping inside)
  rw [compose, allKept]

/-- The mapping of reference rules in order of priority, of which there has to be at least one, and
a chain of value rules. -/
def build (mode : Mode) (references : List ReferenceRule) (values : List ValueRule) :
    Except MappingError Mapping :=
  match ReferenceRule.combine references with
  | some reference => .ok (ofRules mode reference (.many values))
  | none => .error (.noReferenceRule .null)

/-- Runs a mapping on a value. -/
def apply (mapping : Mapping) (value : Json) : Logged (Except MappingError Json) :=
  match mapping.mode with
  | .map => mapping.pipeline.map value
  | .transform => do
      let (tree, outcome) ← mapping.pipeline.transform value
      pure (outcome.map fun _ => tree)

/-- A short description: the mode. -/
def describe (mapping : Mapping) : String :=
  match mapping.mode with
  | .map => "Mapping::Map"
  | .transform => "Mapping::Transform"

end Mapping

/-- A short description of a rule that combines others: how many there are. -/
def ReferenceRule.describe? : ReferenceRule → Option String
  | .firstOf candidates =>
      some ("FirstMatch \x7b rules: " ++ toString candidates.length ++ " \x7d")
  | _ => none

end Graft
