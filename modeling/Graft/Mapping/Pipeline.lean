import Graft.Mapping.RuleSet

/-!
# Pipelines of rule sets

A pipeline is a rule set or a sequence of stages, which are pipelines again. As maps all stages read
the same source, and each extends the tree that the stage before it made. As transforms the stages
change one tree in turn. The first stage that fails ends the run.
-/

namespace Graft

/-- One rule set, or stages that run one after the other. -/
inductive Pipeline where
  | single (rules : RuleSet)
  | sequence (stages : List Pipeline)

namespace Pipeline

mutual

/-- Copies leaves of the source into a seed. -/
def mapOnto (source seed : Json) : Pipeline → Logged (Except MappingError Json)
  | .single rules => rules.mapOnto source seed
  | .sequence stages =>
      if source.isContainer then mapStages source 0 seed stages
      else pure (.error (.noContainer source))

/-- Runs stages, counted from the given index on, on the same source. -/
def mapStages (source : Json) (index : Nat) (tree : Json) :
    List Pipeline → Logged (Except MappingError Json)
  | [] => pure (.ok tree)
  | stage :: others => do
      Logged.event (.runningStage .map index)
      let outcome ← mapOnto source tree stage
      match outcome with
      | .ok extended => mapStages source (index + 1) extended others
      | .error error => pure (.error error)

end

/-- Copies leaves of the source into an empty object. -/
def map (pipeline : Pipeline) (source : Json) : Logged (Except MappingError Json) :=
  pipeline.mapOnto source (.object [])

mutual

/-- Moves leaves within a tree. Gives the tree as the run left it, whether or not it failed. -/
def transform (tree : Json) : Pipeline → Logged (Json × Except MappingError Unit)
  | .single rules => rules.transform tree
  | .sequence stages =>
      if tree.isContainer then transformStages 0 tree stages
      else pure (tree, .error (.noContainer tree))

/-- Runs stages, counted from the given index on, on one tree. -/
def transformStages (index : Nat) (tree : Json) :
    List Pipeline → Logged (Json × Except MappingError Unit)
  | [] => pure (tree, .ok ())
  | stage :: others => do
      Logged.event (.runningStage .transform index)
      let (changed, outcome) ← transform tree stage
      match outcome with
      | .ok _ => transformStages (index + 1) changed others
      | .error error => pure (changed, .error error)

end

/-- How many stages a pipeline has; a single rule set has none. -/
def stageCount : Pipeline → Nat
  | .single _ => 0
  | .sequence stages => stages.length

end Pipeline

end Graft
