import Graft.Numeric.Binary64

/-!
# JSON values

A JSON value whose objects keep the order of their members. A number is an integer of at most 64
bits, signed or unsigned, or a finite double; the two are different values even when they denote
the same number, and `Graft.Json.Equality` has the comparison that looks through the difference.

Objects are lists of members. Readers and writers of trees keep member names distinct; the type
does not ask for it, and every look-up takes the first member of a name.
-/

namespace Graft

section Words

-- The powers below are those of the core library, whatever else is in scope.
local instance powIntNat : Pow Int Nat := instPowNat

/-- The least integer of a signed 64-bit word. -/
def leastSigned : Int := -2 ^ (63 : Nat)

/-- How many values an unsigned 64-bit word has. -/
def unsignedCount : Int := 2 ^ (64 : Nat)

end Words

/-- A JSON number, as its literal fixes it. -/
inductive Number where
  /-- An integer that fits an unsigned or a signed 64-bit word. -/
  | integer (value : Int) (lower : leastSigned ≤ value) (upper : value < unsignedCount)
  /-- Every other number. -/
  | float (value : Binary64)
deriving DecidableEq

/-- A JSON value. -/
inductive Json where
  | null
  | bool (value : Bool)
  | number (value : Number)
  | string (text : String)
  | array (items : Array Json)
  | object (members : List (String × Json))

namespace Json

instance : Inhabited Json := ⟨.null⟩

/-- Whether a value is an object or an array. -/
def isContainer : Json → Bool
  | .array _ => true
  | .object _ => true
  | _ => false

/-- Whether a value has no children: a scalar or an empty container. -/
def isLeaf : Json → Bool
  | .array items => items.isEmpty
  | .object members => members.isEmpty
  | _ => true

/-- Whether a value is an object. -/
def isObject : Json → Bool
  | .object _ => true
  | _ => false

/-- The value of the first member of the given name, in a value that is an object. -/
def member? (value : Json) (name : String) : Option Json :=
  match value with
  | .object members => members.lookup name
  | _ => none

/-- Gives a member a value: in place if the name is there, else as a new last member. -/
def setMember (name : String) (value : Json) : List (String × Json) → List (String × Json)
  | [] => [(name, value)]
  | (other, old) :: rest =>
      if other = name then (other, value) :: rest else (other, old) :: setMember name value rest

/-- Drops the first member of the given name and keeps the order of the others. -/
def eraseMember (name : String) (members : List (String × Json)) : List (String × Json) :=
  members.eraseP fun member => member.1 = name

mutual

/-- Decides whether two values are the same, member order and number kinds included. -/
def decEq : (left right : Json) → Decidable (left = right)
  | .null, .null => isTrue rfl
  | .bool left, .bool right => decidable_of_iff (left = right) (by simp)
  | .number left, .number right => decidable_of_iff (left = right) (by simp)
  | .string left, .string right => decidable_of_iff (left = right) (by simp)
  | .array ⟨left⟩, .array ⟨right⟩ =>
      let _ := decEqItems left right
      decidable_of_iff (left = right) (by simp)
  | .object left, .object right =>
      let _ := decEqMembers left right
      decidable_of_iff (left = right) (by simp)
  | .null, .bool _ | .null, .number _ | .null, .string _ | .null, .array _ | .null, .object _
  | .bool _, .null | .bool _, .number _ | .bool _, .string _ | .bool _, .array _
  | .bool _, .object _ | .number _, .null | .number _, .bool _ | .number _, .string _
  | .number _, .array _ | .number _, .object _ | .string _, .null | .string _, .bool _
  | .string _, .number _ | .string _, .array _ | .string _, .object _ | .array _, .null
  | .array _, .bool _ | .array _, .number _ | .array _, .string _ | .array _, .object _
  | .object _, .null | .object _, .bool _ | .object _, .number _ | .object _, .string _
  | .object _, .array _ => isFalse nofun

/-- Decides whether two lists of array items are the same. -/
def decEqItems : (left right : List Json) → Decidable (left = right)
  | [], [] => isTrue rfl
  | left :: leftRest, right :: rightRest =>
      let _ := decEq left right
      let _ := decEqItems leftRest rightRest
      decidable_of_iff (left = right ∧ leftRest = rightRest) (by simp)
  | [], _ :: _ | _ :: _, [] => isFalse nofun

/-- Decides whether two lists of object members are the same. -/
def decEqMembers : (left right : List (String × Json)) → Decidable (left = right)
  | [], [] => isTrue rfl
  | (leftName, left) :: leftRest, (rightName, right) :: rightRest =>
      let _ := decEq left right
      let _ := decEqMembers leftRest rightRest
      decidable_of_iff (leftName = rightName ∧ left = right ∧ leftRest = rightRest)
        (by simp [and_assoc])
  | [], _ :: _ | _ :: _, [] => isFalse nofun

end

instance : DecidableEq Json := decEq

end Json

end Graft
