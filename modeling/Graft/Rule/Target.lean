import Graft.Fault.Mapping
import Graft.Path.NumberKey

/-!
# Targets

A reference rule answers a leaf's path with a target: the rule does not apply, or it gives the path
where the leaf belongs, directly or described in JSON. In JSON an array of strings and numbers is a
path, and `null` and `false` decline the leaf just as well; anything else is a fault of the rule.
-/

namespace Graft

/-- Where a reference rule sends a leaf. -/
inductive Target where
  /-- The rule does not apply to the leaf. -/
  | noMatch
  /-- The leaf belongs at the path. -/
  | path (path : KeyPath)
  /-- The leaf belongs where the value says. -/
  | json (value : Json)
deriving DecidableEq

namespace Target

/-- Whether a target leaves the leaf to other rules. -/
def declines : Target → Bool
  | .noMatch => true
  | .json .null => true
  | .json (.bool false) => true
  | _ => false

/-- The key that an element of a path described in JSON stands for. -/
def key? : Json → Option String
  | .string text => some text
  | .number value => some value.key
  | _ => none

/-- The path that a target stands for, if it stands for one. -/
def resolve : Target → Except MappingError (Option KeyPath)
  | .noMatch => .ok none
  | .path found => .ok (some found)
  | .json .null => .ok none
  | .json (.bool false) => .ok none
  | .json (.array items) =>
      match items.toList.mapM key? with
      | some keys => .ok (some keys)
      | none => .error (.noKeyPath (.array items))
  | .json other => .error (.noKeyPath other)

end Target

end Graft
