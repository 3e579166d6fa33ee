import Graft.Numeric.Binary64

/-!
# The shortest decimal of a finite number

The decimal of a number is the one with the fewest digits that reads back to the number; among
decimals of that length it is the nearest. A magnitude of `u` units of `2 ^ -1074` is exactly
`u * 5 ^ 1074` units of `10 ^ -1074`, so the neighbours of the magnitude on a grid of `n` decimal
digits are a quotient and its successor, and everything is decided on whole numbers. Seventeen
digits are always enough.
-/

namespace Graft

/-- A decimal magnitude `digits * 10 ^ exponent`. -/
structure Decimal where
  digits : Nat
  exponent : Int
deriving DecidableEq

/-- Where the digit choice goes when two shortest decimals are equally near. -/
inductive TieRule where
  /-- The one whose last digit is even. -/
  | toEven
  /-- The larger one. -/
  | up
deriving DecidableEq

namespace Decimal

/-- Removes up to `limit` trailing zeros from the digits. -/
def trim : (limit : Nat) → Decimal → Decimal
  | 0, decimal => decimal
  | limit + 1, ⟨digits, exponent⟩ =>
      if digits ≠ 0 ∧ digits % 10 = 0 then trim limit ⟨digits / 10, exponent + 1⟩
      else ⟨digits, exponent⟩

end Decimal

/-- How many decimal digits a positive number has. The number of bits fixes the number of digits but
for one, as long as there are fewer than `60000` bits. -/
def decimalLength (number : Nat) : Nat :=
  let least := number.log2 * 30102 / 100000 + 1
  if number < Nat.pow 10 least then least else least + 1

namespace Binary64

/-- The exact magnitude in units of `10 ^ -1074`. -/
def decimalUnits (number : Binary64) : Nat := number.units * Nat.pow 5 1074

/-- Whether a magnitude of `amount` units of `10 ^ -1074` is read as the given number. -/
def readsBack (number : Binary64) (amount : Nat) : Bool :=
  nearestRank amount (Nat.pow 5 1074) = number.rank

/-- The best decimal on the grid of multiples of `10 ^ dropped` units of `10 ^ -1074`, if one of the
two neighbours there reads back. -/
def onGrid? (tie : TieRule) (number : Binary64) (dropped : Nat) : Option Decimal :=
  let step := Nat.pow 10 dropped
  let below := number.decimalUnits / step
  let rest := number.decimalUnits % step
  let nearer :=
    if 2 * rest < step then below
    else if step < 2 * rest then below + 1
    else match tie with
      | .toEven => below + below % 2
      | .up => below + 1
  let farther := if nearer = below then below + 1 else below
  let place : Int := (dropped : Int) - 1074
  if number.readsBack (nearer * step) then some ⟨nearer, place⟩
  else if number.readsBack (farther * step) then some ⟨farther, place⟩
  else none

/-- The shortest decimal that reads back to the magnitude, without trailing zeros. -/
def shortest (tie : TieRule) (number : Binary64) : Decimal :=
  let length := decimalLength number.decimalUnits
  let found := (List.range 17).findSome? fun kept => onGrid? tie number (length - (kept + 1))
  match found with
  | some decimal => decimal.trim 17
  | none => ⟨number.decimalUnits, -1074⟩

end Binary64

end Graft
