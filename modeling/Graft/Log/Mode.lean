/-!
# Modes of a mapping

A mapping either builds a new tree from its source or changes the source where it is.
-/

namespace Graft

/-- What a mapping does with its source. -/
inductive Mode where
  /-- It copies leaves into another tree. -/
  | map
  /-- It moves leaves within the tree. -/
  | transform
deriving DecidableEq

namespace Mode

/-- The name of a mode in documents and messages. -/
def name : Mode → String
  | .map => "map"
  | .transform => "transform"

/-- The mode of the given name. -/
def ofName? : String → Option Mode
  | "map" => some .map
  | "transform" => some .transform
  | _ => none

end Mode

end Graft
