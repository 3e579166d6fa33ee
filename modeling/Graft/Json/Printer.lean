import Graft.Json.Basic
import Graft.Numeric.Layout
import Graft.Text.JsonString

/-!
# The compact text of a JSON value

Members and items follow each other without spaces, in their order. Integers are written in
decimal. A double is written with the fewest digits that read back to it: positionally, with at
least one digit after the point, while its leading exponent lies between `-5` and `15`, and with a
signed exponent otherwise.
-/

namespace Graft

/-- The text of a double inside JSON. -/
def Binary64.jsonText (number : Binary64) : List Char :=
  let sign := if number.negative then ['-'] else []
  if number.rank = 0 then sign ++ ['0', '.', '0']
  else
    let decimal := number.shortest .toEven
    if -5 ≤ decimal.leadingExponent ∧ decimal.leadingExponent ≤ 15 then
      sign ++ decimal.positional ['.', '0']
    else sign ++ decimal.scientific

/-- The text of a number inside JSON. -/
def Number.text : Number → String
  | .integer value _ _ => toString value
  | .float value => String.ofList value.jsonText

namespace Json

mutual

/-- Appends the compact text of a value to what is written already. -/
def writeTo (written : String) : Json → String
  | .null => written ++ "null"
  | .bool value => written ++ (if value then "true" else "false")
  | .number value => written ++ value.text
  | .string text => written ++ String.ofList (Text.quoteJson text.toList)
  | .array ⟨items⟩ => (writeItems (written.push '[') true items).push ']'
  | .object members => (writeMembers (written.push '\x7b') true members).push '\x7d'

/-- Appends the items of an array, with a comma before each but the first of them all. -/
def writeItems (written : String) (first : Bool) : List Json → String
  | [] => written
  | item :: rest =>
      let separated := if first then written else written.push ','
      writeItems (writeTo separated item) false rest

/-- Appends the members of an object, with a comma before each but the first of them all. -/
def writeMembers (written : String) (first : Bool) : List (String × Json) → String
  | [] => written
  | (name, value) :: rest =>
      let separated := if first then written else written.push ','
      let named := separated ++ String.ofList (Text.quoteJson name.toList) ++ ":"
      writeMembers (writeTo named value) false rest

end

/-- The compact text of a value. -/
def text (value : Json) : String := value.writeTo ""

end Json

end Graft
