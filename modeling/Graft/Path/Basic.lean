/-!
# Key-paths

A key-path locates a node of a tree by the keys on the way from the root. A key names a member of
an object; in an array it has to be the decimal form of a position. Only the canonical form counts,
so that two keys never mean the same position.
-/

namespace Graft

/-- The keys that lead from the root of a tree to a node. -/
abbrev KeyPath := List String

/-- Whether characters are a decimal number without superfluous zeros in front. -/
def isCanonicalDecimal (characters : List Char) : Bool :=
  match characters with
  | [] => false
  | [digit] => digit.isDigit
  | first :: rest => first.isDigit && first ≠ '0' && rest.all Char.isDigit

/-- The array position that a key stands for: positions fit a 64-bit word. -/
def arrayIndex? (key : String) : Option Nat :=
  if isCanonicalDecimal key.toList then
    let position := Nat.ofDigitChars 10 key.toList 0
    if position < UInt64.size then some position else none
  else none

namespace KeyPath

/-- The path to the child of the given key. -/
def child (path : KeyPath) (key : String) : KeyPath := path ++ [key]

/-- The path to the parent, and the last key. -/
def splitLast? (path : KeyPath) : Option (KeyPath × String) :=
  path.getLast?.map fun key => (path.dropLast, key)

/-- Whether one path leads to the other's node or to a node above it. -/
def isAtOrAbove (upper path : KeyPath) : Bool := upper.isPrefixOf path

end KeyPath

end Graft
