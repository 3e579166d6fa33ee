import Graft.Mapping.RuleSet
import Graft.Proofs.Tree.Leaves

/-!
# Runs without their tallies and logs

What a run does to its draft depends on the draft alone. Here the steps of a map and of a transform
are given as functions of the draft, and the run as a sequence of such steps that ends at the first
fault. The tree and the outcome of a run are those of the sequence.
-/

namespace Graft.RuleSet

/-- What the rules decide about a leaf. -/
inductive Verdict where
  /-- The leaf is sent to something that is not a path. -/
  | fault (error : MappingError)
  /-- No rule matches, or a value rule gives the leaf up. -/
  | decline
  /-- The leaf is to be written, with a new value. -/
  | place (target : KeyPath) (revised : Json)

/-- The verdict on the leaf of a value at a path. -/
def verdict (rules : RuleSet) (path : KeyPath) (value : Json) : Verdict :=
  match (rules.destination path).value with
  | .error error => .fault error
  | .ok none => .decline
  | .ok (some target) =>
      match ValueRule.applyAll rules.values value with
      | none => .decline
      | some revised => .place target revised

/-- A draft and what came of the last step. -/
abbrev Outcome := Draft × Except MappingError Unit

/-- Writes a leaf, as a step of a run. -/
def placeLeaf (draft : Draft) (target : KeyPath) (revised : Json) : Outcome :=
  ((draft.write target revised).1, (draft.write target revised).2.mapError .write)

theorem placeLeaf_of_ok {draft next : Draft} {target : KeyPath} {revised : Json}
    (written : draft.write target revised = (next, .ok ())) :
    placeLeaf draft target revised = (next, .ok ()) := by
  rw [placeLeaf, written]
  rfl

theorem placeLeaf_of_error {draft next : Draft} {target : KeyPath} {revised : Json}
    {error : WriteError} (refused : draft.write target revised = (next, .error error)) :
    placeLeaf draft target revised = (next, .error (.write error)) := by
  rw [placeLeaf, refused]
  rfl

theorem write_of_placeLeaf {draft next : Draft} {target : KeyPath} {revised : Json}
    (placed : placeLeaf draft target revised = (next, .ok ())) :
    draft.write target revised = (next, .ok ()) := by
  rcases written : draft.write target revised with ⟨changed, error | _⟩
  · rw [placeLeaf_of_error written] at placed
    cases placed
  · rw [placeLeaf_of_ok written] at placed
    cases placed
    rfl

/-- Copies a leaf of the source. -/
def copy (rules : RuleSet) (leaf : KeyPath × Json) (draft : Draft) : Outcome :=
  match rules.verdict leaf.1 leaf.2 with
  | .fault error => (draft, .error error)
  | .decline => (draft, .ok ())
  | .place target revised => placeLeaf draft target revised

/-- The leaf at a path, if there is still one. -/
def leafAt? (draft : Draft) (path : KeyPath) : Option Json :=
  if draft.isVacated path then none else (draft.root.get? path).filter Json.isLeaf

/-- Moves the leaf at a path. -/
def move (rules : RuleSet) (path : KeyPath) (draft : Draft) : Outcome :=
  match leafAt? draft path with
  | none => (draft, .ok ())
  | some value =>
      match rules.verdict path value with
      | .fault error => (draft, .error error)
      | .decline => (draft, .ok ())
      | .place target revised => placeLeaf (draft.remove path).1 target revised

/-- Takes one step for each item, until a step fails. -/
def runSteps {α : Type} (step : α → Draft → Outcome) : List α → Draft → Outcome
  | [], draft => (draft, .ok ())
  | item :: items, draft =>
      match step item draft with
      | (next, .ok _) => runSteps step items next
      | (last, .error error) => (last, .error error)

/-- The draft and the outcome that a step of a logged run comes to. -/
def outcomeOf : StepResult → Outcome
  | .ok _ progress => (progress.draft, .ok ())
  | .error error progress => (progress.draft, .error error)

theorem outcomeOf_write (progress : Progress) (target : KeyPath) (revised : Json) :
    outcomeOf (progress.write target revised) = placeLeaf progress.draft target revised := by
  rcases progress with ⟨draft, tally, log⟩
  unfold Progress.write
  rcases written : draft.write target revised with ⟨next, error | _⟩
  · simp only [written]
    exact (placeLeaf_of_error written).symm
  · simp only [written]
    exact (placeLeaf_of_ok written).symm

/-- A visit does what the verdict says; whatever it counts or logs leaves the draft alone. -/
theorem outcomeOf_settle (rules : RuleSet) (path : KeyPath) (value : Json)
    (place : KeyPath → Json → Progress → StepResult)
    (placeOn : Draft → KeyPath → Json → Outcome)
    (places : ∀ target revised progress,
      outcomeOf (place target revised progress) = placeOn progress.draft target revised)
    (progress : Progress) :
    outcomeOf (rules.settle path value place progress) =
      match rules.verdict path value with
      | .fault error => (progress.draft, .error error)
      | .decline => (progress.draft, .ok ())
      | .place target revised => placeOn progress.draft target revised := by
  simp only [settle, verdict]
  rcases (rules.destination path).value with error | (_ | target)
  · rfl
  · rfl
  · rcases ValueRule.applyAll rules.values value with _ | revised
    · rfl
    · exact places target revised _

theorem outcomeOf_copyLeaf (rules : RuleSet) (path : KeyPath) (value : Json)
    (progress : Progress) :
    outcomeOf (rules.copyLeaf path value progress) = rules.copy (path, value) progress.draft :=
  outcomeOf_settle rules path value _ placeLeaf
    (fun target revised progress =>
      outcomeOf_write (progress.tell [.writing path target]) target revised)
    progress

theorem outcomeOf_moveLeaf (rules : RuleSet) (path : KeyPath) (progress : Progress) :
    outcomeOf (rules.moveLeaf path progress) = rules.move path progress.draft := by
  unfold moveLeaf move leafAt?
  rcases progress.draft.isVacated path with _ | _
  · rcases progress.draft.root.get? path with _ | value
    · rfl
    · rcases isLeaf : value.isLeaf with _ | _
      · simp [isLeaf, Option.filter]
        rfl
      · simp only [isLeaf, Option.filter, if_true, Bool.false_eq_true, if_false]
        exact outcomeOf_settle rules path value _
          (fun draft target revised => placeLeaf (draft.remove path).1 target revised)
          (fun target revised progress =>
            outcomeOf_write ((progress.tell [.moving path target]).remove path) target revised)
          progress
  · rfl

theorem outcomeOf_moveLeaves (rules : RuleSet) (paths : List KeyPath) (progress : Progress) :
    outcomeOf (rules.moveLeaves paths progress) = runSteps rules.move paths progress.draft := by
  induction paths generalizing progress with
  | nil => rfl
  | cons path others ih =>
      have step := outcomeOf_moveLeaf rules path progress
      rw [moveLeaves, runSteps, ← step]
      cases rules.moveLeaf path progress with
      | ok _ next => exact ih next
      | error error last => rfl

theorem outcomeOf_visitListed (rules : RuleSet) (listed : List (KeyPath × Json))
    (progress : Progress) :
    outcomeOf (Json.visitListed rules.copyLeaf [] listed progress) =
      runSteps rules.copy listed progress.draft := by
  induction listed generalizing progress with
  | nil => rfl
  | cons leaf listed ih =>
      have step := outcomeOf_copyLeaf rules leaf.1 leaf.2 progress
      rw [Json.visitListed, runSteps, ← step]
      simp only [List.nil_append]
      cases rules.copyLeaf leaf.1 leaf.2 progress with
      | ok _ next => exact ih next
      | error error last => rfl

/-- A transform moves the listed leaves and finishes the draft, whether or not it failed. -/
theorem value_transform (rules : RuleSet) {tree : Json} (container : tree.isContainer) :
    (rules.transform tree).value =
      ((runSteps rules.move tree.leafPaths (.ofTree tree)).1.finish,
        (runSteps rules.move tree.leafPaths (.ofTree tree)).2) := by
  have run := outcomeOf_moveLeaves rules tree.leafPaths { draft := .ofTree tree }
  simp only [transform, container, Bool.not_true, Bool.false_eq_true, if_false]
  rw [← run]
  cases rules.moveLeaves tree.leafPaths { draft := .ofTree tree } <;> rfl

theorem mapOnto_of_source_noContainer (rules : RuleSet) {source : Json}
    (noContainer : source.isContainer = false) (seed : Json) :
    (rules.mapOnto source seed).value = .error (.noContainer source) := by
  simp [mapOnto, noContainer]

theorem mapOnto_of_seed_noContainer (rules : RuleSet) {source seed : Json}
    (container : source.isContainer) (noContainer : seed.isContainer = false) :
    (rules.mapOnto source seed).value = .error (.noContainer seed) := by
  simp [mapOnto, container, noContainer]

theorem value_mapOnto (rules : RuleSet) {source seed : Json} (sourceContainer : source.isContainer)
    (seedContainer : seed.isContainer) :
    (rules.mapOnto source seed).value =
      (runSteps rules.copy source.leaves (.ofTree seed)).2.map
        fun _ => (runSteps rules.copy source.leaves (.ofTree seed)).1.finish := by
  have run := outcomeOf_visitListed rules source.relativeLeaves { draft := .ofTree seed }
  simp only [mapOnto, sourceContainer, seedContainer, Bool.not_true, Bool.false_eq_true, if_false]
  rw [Json.leaves_eq_relativeLeaves, ← run, Json.visitLeaves, Json.visitBelow_eq_visitListed]
  cases Json.visitListed rules.copyLeaf [] source.relativeLeaves { draft := .ofTree seed } <;> rfl

end Graft.RuleSet
