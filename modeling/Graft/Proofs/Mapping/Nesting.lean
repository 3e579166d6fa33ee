import Graft.Mapping.Pipeline
import Graft.Proofs.Mapping.Placements
import Graft.Proofs.Tree.Kind

/-!
# Nested stages

How the stages of a pipeline are nested does not matter: the pipeline does what its rule sets do,
one after the other. Every level of a nested pipeline checks its tree again, which is of no
consequence because no run changes the kind of its tree, not even one that fails.

Only rule sets check the seed of a map. A pipeline without any gives its seed back, whatever it is.
-/

namespace Graft

open Json (SameKind)

namespace RuleSet

theorem sameKind_placeLeaf (draft : Draft) (target : KeyPath) (revised : Json) :
    (placeLeaf draft target revised).1.root.SameKind draft.root :=
  draft.sameKind_root_write target revised

theorem sameKind_copy (rules : RuleSet) (leaf : KeyPath × Json) (draft : Draft) :
    (rules.copy leaf draft).1.root.SameKind draft.root := by
  rw [copy]
  rcases rules.verdict leaf.1 leaf.2 with error | _ | ⟨target, revised⟩
  · exact .refl _
  · exact .refl _
  · exact sameKind_placeLeaf draft target revised

theorem sameKind_move (rules : RuleSet) (path : KeyPath) (draft : Draft) :
    (rules.move path draft).1.root.SameKind draft.root := by
  rw [move]
  rcases leafAt? draft path with _ | value
  · exact .refl _
  · simp only
    rcases rules.verdict path value with error | _ | ⟨target, revised⟩
    · exact .refl _
    · exact .refl _
    · exact (sameKind_placeLeaf _ target revised).trans (draft.sameKind_root_remove path)

theorem sameKind_runSteps {α : Type} {step : α → Draft → Outcome}
    (keeps : ∀ item draft, (step item draft).1.root.SameKind draft.root) (items : List α)
    (draft : Draft) : (runSteps step items draft).1.root.SameKind draft.root := by
  induction items generalizing draft with
  | nil => exact .refl _
  | cons item items ih =>
      have first := keeps item draft
      rw [runSteps]
      rcases taken : step item draft with ⟨next, error | _⟩
      · rw [taken] at first
        exact first
      · rw [taken] at first
        exact (ih next).trans first

/-- A transform keeps the kind of its tree, whether or not it fails. -/
theorem sameKind_transform (rules : RuleSet) (tree : Json) :
    (rules.transform tree).value.1.SameKind tree := by
  rcases container : tree.isContainer with _ | _
  · simp only [transform, container, Bool.not_false, if_true]
    exact .refl tree
  · rw [value_transform rules container]
    exact (Draft.sameKind_finish _).trans (sameKind_runSteps rules.sameKind_move _ _)

/-- A map that succeeds gives a tree of the kind of its seed. -/
theorem sameKind_mapOnto {rules : RuleSet} {source seed extended : Json}
    (success : (rules.mapOnto source seed).value = .ok extended) : extended.SameKind seed := by
  rcases isContainer_of_mapOnto success with ⟨sourceContainer, seedContainer⟩
  have keeps := sameKind_runSteps rules.sameKind_copy source.leaves (.ofTree seed)
  rw [value_mapOnto rules sourceContainer seedContainer] at success
  rcases run : runSteps rules.copy source.leaves (.ofTree seed) with ⟨last, error | _⟩
  · rw [run] at success
    cases success
  · rw [run] at success keeps
    cases success
    exact last.sameKind_finish.trans keeps

end RuleSet

namespace Pipeline

mutual

/-- The rule sets of a pipeline, in the order in which they run. -/
def ruleSets : Pipeline → List RuleSet
  | .single rules => [rules]
  | .sequence stages => stageRuleSets stages

/-- The rule sets of stages, one stage after the other. -/
def stageRuleSets : List Pipeline → List RuleSet
  | [] => []
  | stage :: others => ruleSets stage ++ stageRuleSets others

end

/-- The pipeline whose stages are the rule sets themselves. -/
def flat (pipeline : Pipeline) : Pipeline := .sequence (pipeline.ruleSets.map .single)

theorem stageRuleSets_map_single (ruleSets : List RuleSet) :
    stageRuleSets (ruleSets.map .single) = ruleSets := by
  induction ruleSets with
  | nil => rfl
  | cons rules others ih => simp [stageRuleSets, Pipeline.ruleSets, ih]

@[simp]
theorem ruleSets_flat (pipeline : Pipeline) : pipeline.flat.ruleSets = pipeline.ruleSets := by
  rw [flat, ruleSets, stageRuleSets_map_single]

/-- Maps a source by one rule set after the other, until one fails. -/
def mapInTurn (source : Json) (ruleSets : List RuleSet) (seed : Json) : Except MappingError Json :=
  ruleSets.foldlM (fun tree rules => (rules.mapOnto source tree).value) seed

theorem mapOnto_of_source_noContainer {source : Json} (noContainer : source.isContainer = false)
    (seed : Json) (pipeline : Pipeline) :
    (pipeline.mapOnto source seed).value = .error (.noContainer source) := by
  cases pipeline with
  | single rules => exact rules.mapOnto_of_source_noContainer noContainer seed
  | sequence stages => simp [mapOnto, noContainer]

mutual

theorem value_mapOnto {source : Json} (container : source.isContainer) (seed : Json) :
    (pipeline : Pipeline) →
      (pipeline.mapOnto source seed).value = mapInTurn source pipeline.ruleSets seed
  | .single rules => by
      rw [mapOnto, ruleSets, mapInTurn, List.foldlM_cons]
      rcases (rules.mapOnto source seed).value with error | extended <;> rfl
  | .sequence stages => by
      rw [mapOnto, if_pos container, ruleSets]
      exact value_mapStages container 0 seed stages

theorem value_mapStages {source : Json} (container : source.isContainer) (index : Nat)
    (seed : Json) : (stages : List Pipeline) →
      (mapStages source index seed stages).value = mapInTurn source (stageRuleSets stages) seed
  | [] => rfl
  | stage :: others => by
      have first := value_mapOnto container seed stage
      rw [stageRuleSets, mapInTurn, List.foldlM_append]
      rw [mapInTurn] at first
      rw [← first]
      simp only [mapStages, Logged.value_bind]
      rcases (mapOnto source seed stage).value with error | extended
      · rfl
      · exact value_mapStages container (index + 1) extended others

end

theorem sameKind_mapInTurn {source seed extended : Json} {ruleSets : List RuleSet}
    (success : mapInTurn source ruleSets seed = .ok extended) : extended.SameKind seed := by
  induction ruleSets generalizing seed with
  | nil =>
      cases success
      exact .refl _
  | cons rules others ih =>
      rw [mapInTurn, List.foldlM_cons] at success
      rcases first : (rules.mapOnto source seed).value with error | middle
      · rw [first] at success
        cases success
      · rw [first] at success
        exact (ih success).trans (RuleSet.sameKind_mapOnto first)

/-- Transforms a tree by one rule set after the other, until one fails. -/
def transformInTurn : List RuleSet → Json → Json × Except MappingError Unit
  | [], tree => (tree, .ok ())
  | rules :: others, tree =>
      match (rules.transform tree).value with
      | (changed, .ok _) => transformInTurn others changed
      | (changed, .error error) => (changed, .error error)

theorem transformInTurn_append (first second : List RuleSet) (tree : Json) :
    transformInTurn (first ++ second) tree =
      match transformInTurn first tree with
      | (changed, .ok _) => transformInTurn second changed
      | (changed, .error error) => (changed, .error error) := by
  induction first generalizing tree with
  | nil => rfl
  | cons rules others ih =>
      rw [List.cons_append, transformInTurn, transformInTurn]
      rcases (rules.transform tree).value with ⟨changed, error | _⟩
      · rfl
      · exact ih changed

theorem sameKind_transformInTurn (ruleSets : List RuleSet) (tree : Json) :
    (transformInTurn ruleSets tree).1.SameKind tree := by
  induction ruleSets generalizing tree with
  | nil => exact .refl tree
  | cons rules others ih =>
      have first := rules.sameKind_transform tree
      rw [transformInTurn]
      rcases run : (rules.transform tree).value with ⟨changed, error | _⟩
      · rw [run] at first
        exact first
      · rw [run] at first
        exact (ih changed).trans first

theorem transform_of_noContainer {tree : Json} (noContainer : tree.isContainer = false)
    (pipeline : Pipeline) :
    (pipeline.transform tree).value = (tree, .error (.noContainer tree)) := by
  cases pipeline with
  | single rules => simp [transform, RuleSet.transform, noContainer]
  | sequence stages => simp [transform, noContainer]

mutual

theorem value_transform {tree : Json} (container : tree.isContainer) : (pipeline : Pipeline) →
    (pipeline.transform tree).value = transformInTurn pipeline.ruleSets tree
  | .single rules => by
      rw [transform, ruleSets, transformInTurn]
      rcases (rules.transform tree).value with ⟨changed, error | _⟩ <;> rfl
  | .sequence stages => by
      rw [transform, if_pos container, ruleSets]
      exact value_transformStages 0 container stages

/-- The tree that a stage leaves is still a container, so the next stage runs as well. -/
theorem value_transformStages (index : Nat) {tree : Json} (container : tree.isContainer) :
    (stages : List Pipeline) →
      (transformStages index tree stages).value = transformInTurn (stageRuleSets stages) tree
  | [] => rfl
  | stage :: others => by
      have first := value_transform container stage
      have sameKind := sameKind_transformInTurn stage.ruleSets tree
      rw [stageRuleSets, transformInTurn_append]
      simp only [transformStages, Logged.value_bind, first]
      rcases run : transformInTurn stage.ruleSets tree with ⟨changed, error | _⟩
      · rfl
      · rw [run] at sameKind
        exact value_transformStages (index + 1)
          (sameKind.isContainer_eq.trans container) others

end

/-- A pipeline gives the same as its rule sets without any nesting: as a map the same tree or the
same fault, as a transform the same tree with the same outcome, also after a fault. No transform
changes the kind of its tree. -/
theorem flat_eq_nested (pipeline : Pipeline) :
    (∀ source seed,
        (pipeline.flat.mapOnto source seed).value = (pipeline.mapOnto source seed).value) ∧
      (∀ tree, (pipeline.flat.transform tree).value = (pipeline.transform tree).value) ∧
      ∀ tree, (pipeline.transform tree).value.1.SameKind tree := by
  refine ⟨?_, ?_, ?_⟩
  · intro source seed
    rcases container : source.isContainer with _ | _
    · rw [mapOnto_of_source_noContainer container seed,
        mapOnto_of_source_noContainer container seed]
    · rw [value_mapOnto container, value_mapOnto container, ruleSets_flat]
  · intro tree
    rcases container : tree.isContainer with _ | _
    · rw [transform_of_noContainer container, transform_of_noContainer container]
    · rw [value_transform container, value_transform container, ruleSets_flat]
  · intro tree
    rcases container : tree.isContainer with _ | _
    · rw [transform_of_noContainer container]
      exact .refl tree
    · rw [value_transform container]
      exact sameKind_transformInTurn pipeline.ruleSets tree

/-- A map fails if its source is no container, and then if its seed is none, unless the pipeline has
no rule set: such a pipeline gives any seed back. What a map gives is of the kind of its seed. -/
theorem mapOnto_checks_seed (pipeline : Pipeline) (source seed : Json) :
    (source.isContainer = false →
        (pipeline.mapOnto source seed).value = .error (.noContainer source)) ∧
      (source.isContainer → pipeline.ruleSets = [] →
        (pipeline.mapOnto source seed).value = .ok seed) ∧
      (source.isContainer → pipeline.ruleSets ≠ [] → seed.isContainer = false →
        (pipeline.mapOnto source seed).value = .error (.noContainer seed)) ∧
      ∀ extended, (pipeline.mapOnto source seed).value = .ok extended →
        extended.SameKind seed := by
  refine ⟨fun noContainer => mapOnto_of_source_noContainer noContainer seed pipeline, ?_, ?_, ?_⟩
  · intro container noRules
    rw [value_mapOnto container, noRules]
    rfl
  · intro container hasRules noContainer
    rcases exists_rules : pipeline.ruleSets with _ | ⟨rules, others⟩
    · exact absurd exists_rules hasRules
    · rw [value_mapOnto container, exists_rules, mapInTurn, List.foldlM_cons,
        rules.mapOnto_of_seed_noContainer container noContainer]
      rfl
  · intro extended success
    rcases container : source.isContainer with _ | _
    · rw [mapOnto_of_source_noContainer container seed] at success
      cases success
    · rw [value_mapOnto container] at success
      exact sameKind_mapInTurn success

/-- Stages of which one is empty and the other has a rule set, without rules. -/
def emptyThenRules : Pipeline := .sequence [.sequence [], .single ⟨.all, []⟩]

theorem mapOnto_checks_seed_emptyThenRules :
    (Json.object []).isContainer ∧ emptyThenRules.ruleSets ≠ [] ∧
      (emptyThenRules.mapOnto (.object []) .null).value = .error (.noContainer .null) ∧
      (emptyThenRules.mapOnto .null .null).value = .error (.noContainer .null) := by
  have hasRules : emptyThenRules.ruleSets ≠ [] := List.cons_ne_nil _ _
  refine ⟨rfl, hasRules, ?_, ?_⟩
  · exact (mapOnto_checks_seed _ _ _).2.2.1 rfl hasRules rfl
  · exact (mapOnto_checks_seed _ _ _).1 rfl

/-- Without stages a map gives back a seed that every rule set refuses. -/
theorem mapOnto_noStages_null :
    Json.null.isContainer = false ∧
      ((sequence []).mapOnto (.object []) .null).value = .ok .null ∧
      ∀ rules : RuleSet,
        (rules.mapOnto (.object []) .null).value = .error (.noContainer .null) := by
  refine ⟨rfl, rfl, ?_⟩
  intro rules
  exact rules.mapOnto_of_seed_noContainer rfl rfl

end Pipeline

end Graft
