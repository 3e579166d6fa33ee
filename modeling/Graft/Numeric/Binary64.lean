/-!
# Finite double-precision numbers

A finite binary64 number is a sign and a rank: its place, counted from zero, among the
non-negative finite numbers in ascending order. The rank is what the 63 magnitude bits of the
encoding spell, so a carry out of the fraction moves to the next binade by itself, and a rank past
the last finite number is an overflow.

Every finite magnitude is a whole number of units of `2 ^ -1074`, the least positive number. All
arithmetic here is on such whole numbers and therefore exact; the only rounding is `nearestRank`,
to the nearest number with ties to an even rank.
-/

namespace Graft

/-- The nearest whole number to `numerator / denominator`; a half goes to the even neighbour. -/
def roundHalfEven (numerator denominator : Nat) : Nat :=
  let quotient := numerator / denominator
  let twice := 2 * (numerator % denominator)
  if twice < denominator then quotient
  else if denominator < twice then quotient + 1
  else quotient + quotient % 2

/-- A finite binary64 number. -/
structure Binary64 where
  /-- Whether the sign bit is set. -/
  negative : Bool
  /-- The place of the magnitude among the non-negative finite numbers. -/
  rank : Nat
  /-- The magnitude is finite. -/
  rank_lt : rank < 2047 <<< 52
deriving DecidableEq

namespace Binary64

/-- How many units of `2 ^ -1074` one is. -/
def unitsInOne : Nat := 1 <<< 1074

/-- Zero with the given sign. -/
def zero (negative : Bool) : Binary64 := ⟨negative, 0, by decide⟩

/-- The magnitude of the number of a given rank, in units of `2 ^ -1074`. -/
def unitsOfRank (rank : Nat) : Nat :=
  let binade := rank >>> 52
  let fraction := rank % (1 <<< 52)
  if binade = 0 then fraction else (1 <<< 52 + fraction) <<< (binade - 1)

/-- The magnitude in units of `2 ^ -1074`. -/
def units (number : Binary64) : Nat := unitsOfRank number.rank

/-- The rank nearest to `numerator / denominator` units, ties going to an even rank.

The spacing of the grid is `2 ^ shift` units: it keeps 53 significant bits, or is one unit below
the point where that many bits are available. -/
def nearestRank (numerator denominator : Nat) : Nat :=
  let shift := Nat.log2 (numerator / denominator) - 52
  shift <<< 52 + roundHalfEven numerator (denominator <<< shift)

/-- The number of a given rank, unless the rank is past the last finite number. -/
def ofRank? (negative : Bool) (rank : Nat) : Option Binary64 :=
  if finite : rank < 2047 <<< 52 then some ⟨negative, rank, finite⟩ else none

/-- The number nearest to a ratio, or `none` if it overflows. -/
def ofRatio? (negative : Bool) (numerator denominator : Nat) : Option Binary64 :=
  ofRank? negative (nearestRank (numerator * unitsInOne) denominator)

/-- The number nearest to an integer, or `none` if it overflows. -/
def ofInt? (value : Int) : Option Binary64 :=
  ofRatio? (value < 0) value.natAbs 1

/-- The number nearest to `digits * 10 ^ exponent`, or `none` if it overflows.

Exponents that decide the answer on their own are settled first, so that no power of ten grows
beyond what the digits warrant: `10 ^ 310` is past the finite range, and what stays below
`2 ^ -1080` is nearest to zero. -/
def ofDecimal? (negative : Bool) (digits : Nat) (exponent : Int) : Option Binary64 :=
  if digits = 0 then some (zero negative)
  else if 310 ≤ exponent then none
  else if 0 ≤ exponent then ofRatio? negative (digits * Nat.pow 10 exponent.toNat) 1
  else if Nat.log2 digits + 1081 ≤ 3 * exponent.natAbs then some (zero negative)
  else ofRatio? negative digits (Nat.pow 10 exponent.natAbs)

/-- Whether a number has no fractional part. -/
def isWhole (number : Binary64) : Bool := number.units % unitsInOne = 0

/-- The magnitude without its fractional part. -/
def wholeMagnitude (number : Binary64) : Nat := number.units / unitsInOne

/-- Numeric equality: the two zeros are the same number, and no other two numbers are. -/
def sameValue (left right : Binary64) : Bool :=
  left.rank = right.rank && (left.negative = right.negative || left.rank = 0)

end Binary64

end Graft
