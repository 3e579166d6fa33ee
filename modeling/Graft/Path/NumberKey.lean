import Graft.Json.Basic
import Graft.Numeric.Layout

/-!
# Numbers as keys

A number used as a key is spelled the way numbers are printed as property names. Whole numbers
below `10 ^ 21` are written out in full, without a point. Other numbers have the fewest digits that
read back: positionally from a leading exponent of `-6` up to `20`, with a signed exponent beyond.
-/

namespace Graft

/-- The key that a finite number spells. -/
def Binary64.keyText (number : Binary64) : List Char :=
  if number.isWhole ∧ number.wholeMagnitude < Nat.pow 10 21 then
    let sign := if number.negative ∧ number.wholeMagnitude ≠ 0 then ['-'] else []
    sign ++ Nat.toDigits 10 number.wholeMagnitude
  else
    let sign := if number.negative then ['-'] else []
    let decimal := number.shortest .up
    if -6 ≤ decimal.leadingExponent ∧ decimal.leadingExponent < 21 then
      sign ++ decimal.positional []
    else sign ++ decimal.scientific

/-- The key that a number literal spells when it denotes the given number, or one too large to be
finite. -/
def literalKey : Option Binary64 → String
  | some number => String.ofList number.keyText
  | none => "Infinity"

/-- The key that a JSON number spells: an integer keeps all its digits. -/
def Number.key : Number → String
  | .integer value _ _ => toString value
  | .float value => String.ofList value.keyText

end Graft
