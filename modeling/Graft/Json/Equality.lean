import Graft.Json.Basic

/-!
# Equality by value

Two values are the same by value if they differ at most in the order of object members and in the
kind of their numbers. Two integers are compared as integers. As soon as a double is involved, both
numbers are compared as doubles, an integer being rounded to the nearest one.
-/

namespace Graft

namespace Number

/-- The finite double nearest to a number. -/
def toBinary64? : Number → Option Binary64
  | .integer value _ _ => Binary64.ofInt? value
  | .float value => some value

/-- Whether two numbers are equal, as integers or else as doubles. -/
def sameValue : Number → Number → Bool
  | .integer left _ _, .integer right _ _ => left = right
  | left, right =>
      match left.toBinary64?, right.toBinary64? with
      | some leftValue, some rightValue => leftValue.sameValue rightValue
      | _, _ => false

end Number

namespace Json

mutual

/-- Whether two values are the same by value. -/
def sameValue : Json → Json → Bool
  | .null, .null => true
  | .bool left, .bool right => left = right
  | .number left, .number right => left.sameValue right
  | .string left, .string right => left = right
  | .array ⟨left⟩, .array ⟨right⟩ => sameItems left right
  | .object left, .object right => left.length = right.length && sameMembers left right
  | _, _ => false

/-- Whether two lists of items are the same by value, place by place. -/
def sameItems : List Json → List Json → Bool
  | [], [] => true
  | left :: leftRest, right :: rightRest => sameValue left right && sameItems leftRest rightRest
  | _, _ => false

/-- Whether every member on the left has a counterpart of the same name and value on the right. -/
def sameMembers : (left right : List (String × Json)) → Bool
  | [], _ => true
  | (name, value) :: rest, right =>
      (match right.lookup name with
        | some other => sameValue value other
        | none => false) && sameMembers rest right

end

end Json

end Graft
