import Graft.Log.Logged
import Graft.Rule.Reference
import Graft.Rule.Value
import Graft.Tree.Walk

/-!
# Running one set of rules

A rule set is a reference rule with a chain of value rules. As a map it copies the leaves of a
source into a seed, which it extends; as a transform it moves leaves within a tree. In both a leaf
is visited, and then it is skipped because no rule matches, given up by a value rule, or written. A
run stops at the first fault; what was written before stays.

A map visits the leaves of its source as it comes to them. A transform notes the paths of all leaves
first, for it changes the tree it walks, and passes over a path where a write has put something else
since.
-/

namespace Graft

/-- A reference rule and the chain of value rules for the leaves that it matches. -/
structure RuleSet where
  reference : ReferenceRule
  values : List ValueRule

/-- How far a run has come. -/
structure Progress where
  draft : Draft
  tally : Tally := {}
  log : Array Event := #[]

/-- The outcome of one step of a run. -/
abbrev StepResult := EStateM.Result MappingError Progress PUnit

namespace Progress

/-- Appends events to the log. -/
def tell (progress : Progress) (events : List Event) : Progress :=
  { progress with log := progress.log ++ events }

/-- Changes the tally. -/
def count (progress : Progress) (change : Tally → Tally) : Progress :=
  { progress with tally := change progress.tally }

/-- Counts a visited leaf. -/
def countVisited (progress : Progress) : Progress :=
  progress.count fun tally => { tally with visited := tally.visited + 1 }

/-- Counts a leaf that no rule matched. -/
def countSkipped (progress : Progress) : Progress :=
  progress.count fun tally => { tally with skipped := tally.skipped + 1 }

/-- Counts a leaf that a value rule gave up. -/
def countAborted (progress : Progress) : Progress :=
  progress.count fun tally => { tally with aborted := tally.aborted + 1 }

/-- Counts a written leaf. -/
def countWritten (progress : Progress) : Progress :=
  progress.count fun tally => { tally with written := tally.written + 1 }

/-- Takes out the node at a path. -/
def remove (progress : Progress) (path : KeyPath) : Progress :=
  let ⟨draft, tally, log⟩ := progress
  ⟨(draft.remove path).1, tally, log⟩

/-- Writes a leaf, and counts it if the write succeeds. -/
def write (progress : Progress) (target : KeyPath) (value : Json) : StepResult :=
  let ⟨draft, tally, log⟩ := progress
  match draft.write target value with
  | (draft, .ok _) => .ok ⟨⟩ (countWritten ⟨draft, tally, log⟩)
  | (draft, .error error) => .error (.write error) ⟨draft, tally, log⟩

/-- The tree and the log of a run that has come to its end. -/
def finish (mode : Mode) (progress : Progress) : Logged Json where
  value := progress.draft.finish
  log := progress.log.toList ++ [.finished mode progress.tally]

end Progress

namespace RuleSet

/-- Where the leaf at a path goes, if it goes anywhere. -/
def destination (rules : RuleSet) (path : KeyPath) :
    Logged (Except MappingError (Option KeyPath)) := do
  let target ← rules.reference.target path
  pure target.resolve

/-- Visits a leaf, and hands its destination and its revised value to `place` unless the rules
decline it. -/
def settle (rules : RuleSet) (path : KeyPath) (value : Json)
    (place : (target : KeyPath) → (revised : Json) → Progress → StepResult) (progress : Progress) :
    StepResult :=
  let destination := rules.destination path
  let progress := progress.countVisited.tell destination.log
  match destination.value with
  | .error error => .error error progress
  | .ok none => .ok ⟨⟩ progress.countSkipped
  | .ok (some target) =>
      match ValueRule.applyAll rules.values value with
      | none => .ok ⟨⟩ (progress.tell [.aborted path]).countAborted
      | some revised => place target revised progress

/-- One step of a map: copies the leaf of the source at a path. -/
def copyLeaf (rules : RuleSet) (path : KeyPath) (value : Json) :
    EStateM MappingError Progress PUnit :=
  rules.settle path value fun target revised progress =>
    (progress.tell [.writing path target]).write target revised

/-- One step of a transform: moves the leaf at a path, if there is still one. -/
def moveLeaf (rules : RuleSet) (path : KeyPath) (progress : Progress) : StepResult :=
  if progress.draft.isVacated path then .ok ⟨⟩ progress
  else
    match progress.draft.root.get? path with
    | none => .ok ⟨⟩ (progress.tell [.gone path])
    | some value =>
        if value.isLeaf then
          rules.settle path value
            (fun target revised progress =>
              ((progress.tell [.moving path target]).remove path).write target revised)
            progress
        else .ok ⟨⟩ (progress.tell [.gone path])

/-- The steps of a transform: moves the leaves at the given paths, one after the other. -/
def moveLeaves (rules : RuleSet) : List KeyPath → EStateM MappingError Progress PUnit
  | [], progress => .ok ⟨⟩ progress
  | path :: others, progress =>
      match rules.moveLeaf path progress with
      | .ok _ progress => moveLeaves rules others progress
      | .error error progress => .error error progress

/-- Copies the leaves of a source into a seed. -/
def mapOnto (rules : RuleSet) (source seed : Json) : Logged (Except MappingError Json) :=
  if !source.isContainer then pure (.error (.noContainer source))
  else if !seed.isContainer then pure (.error (.noContainer seed))
  else
    match source.visitLeaves rules.copyLeaf { draft := .ofTree seed } with
    | .ok _ progress => do
        let tree ← progress.finish .map
        pure (.ok tree)
    | .error error progress => do
        let _ ← progress.finish .map
        pure (.error error)

/-- Moves the leaves of a tree. Gives the tree as the run left it, whether or not it failed. -/
def transform (rules : RuleSet) (tree : Json) : Logged (Json × Except MappingError Unit) :=
  if !tree.isContainer then pure (tree, .error (.noContainer tree))
  else
    let paths := tree.leafPaths
    match rules.moveLeaves paths { draft := .ofTree tree } with
    | .ok _ progress => do
        let tree ← progress.finish .transform
        pure (tree, .ok ())
    | .error error progress => do
        let tree ← progress.finish .transform
        pure (tree, .error error)

end RuleSet

end Graft
