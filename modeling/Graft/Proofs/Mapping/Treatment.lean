import Graft.Mapping.Basic
import Graft.Proofs.Mapping.Run
import Mathlib.Data.List.Forall2

/-!
# Runs by a treatment of leaves

A treatment says of every leaf where it goes and with which value, or that nothing is to be done
with it. A run by a treatment goes through the leaves in document order and ends at the first write
that fails. Runs in sequence start from one container: as maps each of them reads it and extends the
tree that the run before it made, as transforms each of them changes that tree.

These runs keep no count and no log, and know nothing of rules. A mapping performs a run if it gives
the same tree or the same fault.
-/

namespace Graft

/-- What becomes of the leaf of a value at a path: its target and its new value, if it is
written. -/
abbrev Treatment := (path : KeyPath) → (value : Json) → Option (KeyPath × Json)

/-- What is made of a source and of the tree as it stands. -/
abbrev Run := (source tree : Json) → Except MappingError Json

/-- Refuses a value that is no container. -/
def requireContainer (value : Json) : Except MappingError Unit :=
  if value.isContainer then .ok () else .error (.noContainer value)

/-- The draft with a value written at a target. -/
def Draft.place (draft : Draft) (target : KeyPath) (value : Json) : Except MappingError Draft :=
  match draft.write target value with
  | (next, .ok _) => .ok next
  | (_, .error error) => .error (.write error)

namespace Treatment

/-- Writes what becomes of a leaf of the source. -/
def copyLeaf (treatment : Treatment) (draft : Draft) (leaf : KeyPath × Json) :
    Except MappingError Draft :=
  match treatment leaf.1 leaf.2 with
  | none => .ok draft
  | some (target, revised) => draft.place target revised

/-- Takes out the leaf at a path and writes what becomes of it, if there is still a leaf. -/
def moveLeaf (treatment : Treatment) (draft : Draft) (path : KeyPath) :
    Except MappingError Draft :=
  match RuleSet.leafAt? draft path with
  | none => .ok draft
  | some value =>
      match treatment path value with
      | none => .ok draft
      | some (target, revised) => (draft.remove path).1.place target revised

/-- The run that treats every leaf of its source, or of the tree. -/
def run (treatment : Treatment) : Mode → Run
  | .map, source, tree => do
      requireContainer source
      requireContainer tree
      let draft ← source.leaves.foldlM treatment.copyLeaf (.ofTree tree)
      .ok draft.finish
  | .transform, _, tree => do
      requireContainer tree
      let draft ← tree.leafPaths.foldlM treatment.moveLeaf (.ofTree tree)
      .ok draft.finish

end Treatment

namespace Mode

/-- The run that does all of the given runs, one after the other. -/
def inSequence (runs : List Run) : Mode → Run
  | .map, source, tree => do
      requireContainer source
      runs.foldlM (fun tree run => run source tree) tree
  | .transform, source, tree => do
      requireContainer tree
      runs.foldlM (fun tree run => run source tree) tree

/-- The tree that a run begins with. -/
def start (source : Json) : Mode → Json
  | .map => .object []
  | .transform => source

end Mode

/-- Whether a mapping gives what a run gives. -/
def Mapping.Performs (mapping : Mapping) (run : Run) : Prop :=
  match mapping.mode with
  | .map => ∀ source tree, (mapping.pipeline.mapOnto source tree).value = run source tree
  | .transform => ∀ source tree,
      ((mapping.pipeline.transform tree).value.2.map fun _ =>
        (mapping.pipeline.transform tree).value.1) = run source tree

theorem Mapping.Performs.apply {mapping : Mapping} {run : Run} (performs : mapping.Performs run)
    (source : Json) : (mapping.apply source).value = run source (mapping.mode.start source) := by
  rcases mapping with ⟨_ | _, pipeline⟩
  · exact performs source (.object [])
  · exact performs source source

namespace RuleSet

/-- The draft that steps come to, unless one fails. -/
def Outcome.draft (outcome : Outcome) : Except MappingError Draft :=
  outcome.2.map fun _ => outcome.1

theorem draft_placeLeaf (draft : Draft) (target : KeyPath) (revised : Json) :
    Outcome.draft (placeLeaf draft target revised) = draft.place target revised := by
  rcases written : draft.write target revised with ⟨next, error | _⟩
  · rw [placeLeaf_of_error written, Draft.place, written]
    rfl
  · rw [placeLeaf_of_ok written, Draft.place, written]
    rfl

theorem draft_runSteps {α : Type} (step : α → Draft → Outcome) (items : List α) (draft : Draft) :
    Outcome.draft (runSteps step items draft) =
      items.foldlM (fun draft item => Outcome.draft (step item draft)) draft := by
  induction items generalizing draft with
  | nil => rfl
  | cons item items ih =>
      rw [runSteps, List.foldlM_cons]
      rcases step item draft with ⟨next, error | _⟩
      · rfl
      · exact ih next

/-- Whether rules decide about every leaf as a treatment does. -/
def Follows (rules : RuleSet) (treatment : Treatment) : Prop :=
  ∀ path value, rules.verdict path value =
    match treatment path value with
    | none => .decline
    | some (target, revised) => .place target revised

variable {rules : RuleSet} {treatment : Treatment}

theorem Follows.draft_copy (follows : rules.Follows treatment) (leaf : KeyPath × Json)
    (draft : Draft) : Outcome.draft (rules.copy leaf draft) = treatment.copyLeaf draft leaf := by
  rw [copy, follows leaf.1 leaf.2, Treatment.copyLeaf]
  rcases treatment leaf.1 leaf.2 with _ | ⟨target, revised⟩
  · rfl
  · exact draft_placeLeaf draft target revised

theorem Follows.draft_move (follows : rules.Follows treatment) (path : KeyPath) (draft : Draft) :
    Outcome.draft (rules.move path draft) = treatment.moveLeaf draft path := by
  rw [move, Treatment.moveLeaf]
  rcases leafAt? draft path with _ | value
  · rfl
  · simp only [follows path value]
    rcases treatment path value with _ | ⟨target, revised⟩
    · rfl
    · exact draft_placeLeaf (draft.remove path).1 target revised

theorem Follows.value_mapOnto (follows : rules.Follows treatment) (source seed : Json) :
    (rules.mapOnto source seed).value = treatment.run .map source seed := by
  rcases sourceContainer : source.isContainer with _ | _
  · simp [mapOnto, Treatment.run, requireContainer, sourceContainer, bind, Except.bind]
  · rcases seedContainer : seed.isContainer with _ | _
    · simp [mapOnto, Treatment.run, requireContainer, sourceContainer, seedContainer, bind,
        Except.bind]
    · have steps := draft_runSteps rules.copy source.leaves (.ofTree seed)
      simp only [follows.draft_copy] at steps
      rw [RuleSet.value_mapOnto rules sourceContainer seedContainer]
      simp only [Treatment.run, requireContainer, sourceContainer, seedContainer, if_true]
      simp only [bind, Except.bind]
      rw [← steps, Outcome.draft]
      rcases (runSteps rules.copy source.leaves (.ofTree seed)).2 with error | _ <;> rfl

theorem Follows.value_transform (follows : rules.Follows treatment) (source tree : Json) :
    ((rules.transform tree).value.2.map fun _ => (rules.transform tree).value.1) =
      treatment.run .transform source tree := by
  rcases container : tree.isContainer with _ | _
  · simp [transform, Treatment.run, requireContainer, container, bind, Except.bind, Except.map]
  · have steps := draft_runSteps rules.move tree.leafPaths (.ofTree tree)
    simp only [follows.draft_move] at steps
    rw [RuleSet.value_transform rules container]
    simp only [Treatment.run, requireContainer, container, if_true]
    simp only [bind, Except.bind]
    rw [← steps, Outcome.draft]
    rcases (runSteps rules.move tree.leafPaths (.ofTree tree)).2 with error | _ <;> rfl

end RuleSet

theorem RuleSet.Follows.performs {reference : ReferenceRule} {values : ValueRules}
    {treatment : Treatment} (follows : RuleSet.Follows ⟨reference, values.toList⟩ treatment)
    (mode : Mode) : (Mapping.ofRules mode reference values).Performs (treatment.run mode) := by
  cases mode with
  | map => exact follows.value_mapOnto
  | transform => exact follows.value_transform

namespace Mapping

theorem value_mapStages {mappings : List Mapping} {runs : List Run}
    (performs : List.Forall₂ Performs mappings runs)
    (sameMode : ∀ mapping ∈ mappings, mapping.mode = .map) (source : Json) (index : Nat)
    (tree : Json) :
    (Pipeline.mapStages source index tree (mappings.map pipeline)).value =
      runs.foldlM (fun tree run => run source tree) tree := by
  induction performs generalizing index tree with
  | nil => rfl
  | @cons mapping run mappings runs performsFirst _ ih =>
      rcases List.forall_mem_cons.mp sameMode with ⟨isMap, othersAreMaps⟩
      rw [Performs, isMap] at performsFirst
      simp only [List.map_cons, Pipeline.mapStages, Logged.value_bind, List.foldlM_cons,
        performsFirst source tree]
      rcases run source tree with error | extended
      · rfl
      · exact ih othersAreMaps (index + 1) extended

theorem value_transformStages {mappings : List Mapping} {runs : List Run}
    (performs : List.Forall₂ Performs mappings runs)
    (sameMode : ∀ mapping ∈ mappings, mapping.mode = .transform) (source : Json) (index : Nat)
    (tree : Json) :
    ((Pipeline.transformStages index tree (mappings.map pipeline)).value.2.map fun _ =>
        (Pipeline.transformStages index tree (mappings.map pipeline)).value.1) =
      runs.foldlM (fun tree run => run source tree) tree := by
  induction performs generalizing index tree with
  | nil => rfl
  | @cons mapping run mappings runs performsFirst _ ih =>
      rcases List.forall_mem_cons.mp sameMode with ⟨isTransform, othersAreTransforms⟩
      rw [Performs, isTransform] at performsFirst
      simp only [List.map_cons, Pipeline.transformStages, Logged.value_bind, List.foldlM_cons,
        ← performsFirst source tree]
      rcases (mapping.pipeline.transform tree).value with ⟨changed, error | _⟩
      · rfl
      · exact ih othersAreTransforms (index + 1) changed

/-- The composition of mappings of one mode does what they do, one after the other. -/
theorem performs_compose {mode : Mode} {mappings : List Mapping} {runs : List Run}
    (performs : List.Forall₂ Performs mappings runs)
    (sameMode : ∀ mapping ∈ mappings, mapping.mode = mode) :
    (compose mode mappings).Performs (mode.inSequence runs) := by
  rw [compose_of_forall_mode sameMode]
  cases mode with
  | map =>
      intro source tree
      rcases container : source.isContainer with _ | _
      · simp [Pipeline.mapOnto, Mode.inSequence, requireContainer, container, bind, Except.bind]
      · simp only [Pipeline.mapOnto, Mode.inSequence, requireContainer, container, if_true]
        exact value_mapStages performs sameMode source 0 tree
  | transform =>
      intro source tree
      rcases container : tree.isContainer with _ | _
      · simp [Pipeline.transform, Mode.inSequence, requireContainer, container, bind, Except.bind,
          Except.map]
      · simp only [Pipeline.transform, Mode.inSequence, requireContainer, container, if_true]
        exact value_transformStages performs sameMode source 0 tree

end Mapping

end Graft
