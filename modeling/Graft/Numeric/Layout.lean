import Graft.Numeric.Shortest

/-!
# Writing a decimal in digits

A decimal with `n` digits has a leading exponent: the power of ten of its first digit. The written
form is positional (`1200`, `0.05`, `3.25`) or, with the exponent spelled out, scientific
(`1.2e+30`, `5e-9`). Which of the two a format uses, and whether a whole number keeps a point, is
the format's decision and not made here.
-/

namespace Graft

namespace Decimal

/-- The digits as characters, most significant first. -/
def digitChars (decimal : Decimal) : List Char := Nat.toDigits 10 decimal.digits

/-- The power of ten of the first digit. -/
def leadingExponent (decimal : Decimal) : Int :=
  decimal.exponent + ((decimal.digitChars.length : Int) - 1)

/-- The decimal written out; a whole number ends with `wholeEnding`. -/
def positional (decimal : Decimal) (wholeEnding : List Char) : List Char :=
  let digits := decimal.digitChars
  if 0 ≤ decimal.exponent then
    digits ++ List.replicate decimal.exponent.toNat '0' ++ wholeEnding
  else if 0 ≤ decimal.leadingExponent then
    let whole := decimal.leadingExponent.toNat + 1
    digits.take whole ++ '.' :: digits.drop whole
  else
    '0' :: '.' :: List.replicate (decimal.leadingExponent.natAbs - 1) '0' ++ digits

/-- The decimal with one digit before the point and a signed exponent. -/
def scientific (decimal : Decimal) : List Char :=
  let leading := decimal.digitChars.take 1
  let others := decimal.digitChars.drop 1
  let fraction := if others.isEmpty then [] else '.' :: others
  let sign := if decimal.leadingExponent < 0 then '-' else '+'
  leading ++ fraction ++ 'e' :: sign :: Nat.toDigits 10 decimal.leadingExponent.natAbs

end Decimal

end Graft
