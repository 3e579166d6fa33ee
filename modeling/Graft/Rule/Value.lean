import Graft.Json.Equality

/-!
# Value rules

A value rule gives the value of a leaf another form or keeps the leaf from being written. Rules run
in a chain: each works on what the one before it gave, and the chain ends where a rule gives up the
leaf. Values are compared by `Json.sameValue`.
-/

namespace Graft

/-- A rule for the values of leaves. -/
inductive ValueRule where
  /-- One value is replaced by another. -/
  | replace (value replacement : Json)
  /-- Leaves of one value are not written. -/
  | skip (value : Json)
  /-- A rule of the caller's own. -/
  | custom (revise : Json → Option Json)

namespace ValueRule

/-- The value that a rule makes of a leaf's value, or `none` if the leaf is not to be written. -/
def apply : ValueRule → Json → Option Json
  | .replace value replacement, found =>
      some (if found.sameValue value then replacement else found)
  | .skip value, found => if found.sameValue value then none else some found
  | .custom revise, found => revise found

/-- The value that a chain of rules makes of a leaf's value. -/
def applyAll : List ValueRule → Json → Option Json
  | [], found => some found
  | rule :: others, found =>
      match rule.apply found with
      | some revised => applyAll others revised
      | none => none

end ValueRule

/-- One value rule, or a list of them. -/
inductive ValueRules where
  | one (rule : ValueRule)
  | many (rules : List ValueRule)

namespace ValueRules

/-- The rules as a chain. -/
def toList : ValueRules → List ValueRule
  | .one rule => [rule]
  | .many rules => rules

/-- A short description: whether it is a single rule, or how many there are. -/
def describe : ValueRules → String
  | .one _ => "ValueMaps::One"
  | .many rules => "ValueMaps::Many(" ++ toString rules.length ++ ")"

end ValueRules

/-! ### Revisions for custom value rules -/

namespace Revision

/-- Gives every leaf the same value. -/
def constant (value : Json) : Json → Option Json := fun _ => some value

/-- Gives up every leaf. -/
def abort : Json → Option Json := fun _ => none

/-- Gives up leaves that hold `null`. -/
def dropNulls (value : Json) : Option Json := if value = .null then none else some value

/-- Puts the value into an array of its own. -/
def wrap (value : Json) : Option Json := some (.array #[value])

/-- Puts the value into an object of its own, under the given name. -/
def wrapUnder (name : String) (value : Json) : Option Json := some (.object [(name, value)])

end Revision

end Graft
