import Graft.Log.Logged
import Graft.Path.Reader
import Graft.Rule.Target

/-!
# Reference rules

A reference rule decides from the path of a leaf whether the leaf is written, and where. Several
rules can be combined: the first one that does not decline a leaf decides.
-/

namespace Graft

/-- A rule for where leaves go. -/
inductive ReferenceRule where
  /-- Every leaf keeps its path. -/
  | all
  /-- The leaf at one path goes to another path. -/
  | exact (source target : KeyPath)
  /-- A rule of the caller's own. -/
  | custom (choose : KeyPath → Target)
  /-- The first candidate that does not decline a leaf decides. -/
  | firstOf (candidates : List ReferenceRule)

namespace ReferenceRule

mutual

/-- Where a rule sends the leaf at a path. -/
def target (path : KeyPath) : ReferenceRule → Logged Target
  | .all => pure (.path path)
  | .exact source target => pure (if path = source then .path target else .noMatch)
  | .custom choose => pure (choose path)
  | .firstOf candidates => firstTarget path 0 candidates

/-- Where the first of the candidates that does not decline sends the leaf at a path. Candidates are
counted from the given index on. -/
def firstTarget (path : KeyPath) (index : Nat) : List ReferenceRule → Logged Target
  | [] => pure .noMatch
  | candidate :: others => do
      let answer ← target path candidate
      if answer.declines then firstTarget path (index + 1) others
      else
        Logged.event (.matched index path)
        pure answer

end

/-- The rule that sends the leaf at one path to another, or leaves it where it is. -/
def ofPaths (source : KeyPath) (target : Option KeyPath) : ReferenceRule :=
  .exact source (target.getD source)

/-- The rule that two path expressions describe. -/
def ofExpressions (source : String) (target : Option String) :
    Except Path.PathError ReferenceRule := do
  let source ← KeyPath.ofExpression source
  match target with
  | none => .ok (ofPaths source none)
  | some expression => .ok (ofPaths source (some (← KeyPath.ofExpression expression)))

/-- Several rules as one, if there are any; a single rule needs no combination. -/
def combine : List ReferenceRule → Option ReferenceRule
  | [] => none
  | [rule] => some rule
  | rules => some (.firstOf rules)

end ReferenceRule

end Graft
