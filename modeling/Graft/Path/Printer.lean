import Graft.Path.Basic
import Graft.Path.Lexical
import Graft.Text.JsonString

/-!
# Path expressions in written form

A key that is an identifier is written after a dot, or bare at the root if it is not a reserved
word. A position that a double can tell from its neighbours is written in brackets as it is. Every
other key is written in brackets as a JSON string. The empty path is written as the empty text.
-/

namespace Graft.Path

/-- Positions from here on are quoted, for a double may no longer tell them apart. -/
def exactPositions : Nat := 1 <<< 53

/-- The written form of one key; `root` tells whether it is the first of its path. -/
def writeKey (root : Bool) (key : String) : List Char :=
  if isIdentifierName key.toList && !(root && isReservedWord key) then
    if root then key.toList else '.' :: key.toList
  else if (arrayIndex? key).any (· < exactPositions) then '[' :: (key.toList ++ [']'])
  else '[' :: (Text.quoteJson key.toList ++ [']'])

/-- The written form of a path, as characters. -/
def writeKeys : KeyPath → List Char
  | [] => []
  | root :: keys => writeKey true root ++ keys.flatMap (writeKey false)

end Graft.Path

namespace Graft.KeyPath

/-- The written form of a path. -/
def expression (path : KeyPath) : String := String.ofList (Path.writeKeys path)

end Graft.KeyPath
