import Graft.Json.Printer
import Graft.Path.Printer
import Graft.Tree.Draft

/-!
# Faults of mappings

A mapping can be impossible to build, because something in the place of a rule is none, or it can
fail while it runs. A message names the problem and then the offending value in compact JSON, or the
place in the tree.
-/

namespace Graft

/-- Why a mapping could not be built or did not run to its end. -/
inductive MappingError where
  /-- A reference rule is missing, or the value in its place is no rule. -/
  | noReferenceRule (found : Json)
  /-- The value in the place of the value rules is neither a rule nor a list of rules. -/
  | noValueRules (found : Json)
  /-- An element of a list of rules or stages is none. -/
  | badElement (index : Nat) (found : Json)
  /-- A source or a seed is not a container. -/
  | noContainer (found : Json)
  /-- A rule sent a leaf to something that is not a key-path. -/
  | noKeyPath (found : Json)
  /-- A write failed. -/
  | write (error : WriteError)
deriving DecidableEq

/-- The word for an obstacle. -/
def Obstacle.name : Obstacle → String
  | .array => "array"
  | .leaf => "leaf"

/-- The message of a failed write. -/
def WriteError.message : WriteError → String
  | .emptyPath => "cannot write to an empty key-path"
  | .blocked obstacle location =>
      "cannot write through " ++ obstacle.name ++ " at " ++ location.expression
  | .tooFar position location =>
      "array index " ++ toString position ++ " is too far past the end of the array at " ++
        location.expression

namespace MappingError

/-- The message of an error. -/
def message : MappingError → String
  | .noReferenceRule found => "not a function: " ++ found.text
  | .noValueRules found => "not an array or function: " ++ found.text
  | .badElement index found => "index " ++ toString index ++ " is not a function: " ++ found.text
  | .noContainer found => "not an object: " ++ found.text
  | .noKeyPath found => "not an array: " ++ found.text
  | .write error => error.message

/-- Whether the error arose while a mapping was built, and not while it ran. -/
def isConstruction : MappingError → Bool
  | .noReferenceRule _ => true
  | .noValueRules _ => true
  | .badElement _ _ => true
  | .noContainer _ => false
  | .noKeyPath _ => false
  | .write _ => false

end MappingError

end Graft
