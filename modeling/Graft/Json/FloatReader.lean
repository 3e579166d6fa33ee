import Graft.Numeric.Literal

/-!
# Reading literals as doubles

A reader of JSON turns a literal that is not kept as an integer into a double. The nearest double
takes exact arithmetic on all the digits of the literal, and readers differ in how close to it they
come. So what reads JSON takes the reader of doubles as a parameter.

The reader that is used where nothing else is asked for does without exact arithmetic. It keeps as
many digits as fit a 64-bit word, and scales them by powers of ten in doubles. Every step rounds, so
that the last bit can be wrong.
-/

namespace Graft.Json

/-- How the magnitude of a literal is read as a double, with `none` for one that is out of range.
The sign of the literal is the sign of the double, whatever the reader gives. -/
abbrev FloatReader := DecimalLiteral → Option Binary64

/-- Appends digits to a number as long as it fits a 64-bit word. Gives the number with the digits
from the first one that does not fit. -/
def appendFitting (number : Nat) : List Char → Nat × List Char
  | [] => (number, [])
  | digit :: rest =>
      let extended := number * 10 + (digit.toNat - '0'.toNat)
      if extended < UInt64.size then appendFitting extended rest else (number, digit :: rest)

/-- The digits of a literal that fit a 64-bit word, and the power of ten they count. A digit before
the point that does not fit counts as a zero, and behind the point nothing is read from the first
digit on that does not fit. -/
def leadingDigits (literal : DecimalLiteral) : Nat × Int :=
  let (front, skipped) := appendFitting 0 literal.whole
  let (digits, ignored) := appendFitting front literal.fraction
  (digits, literal.exponent + skipped.length - (literal.fraction.length - ignored.length : Nat))

/-- The rounded product of two magnitudes. -/
def product? (left right : Binary64) : Option Binary64 :=
  Binary64.ofRatio? false (left.units * right.units) (Binary64.unitsInOne * Binary64.unitsInOne)

/-- The rounded quotient of two magnitudes. -/
def quotient? (left right : Binary64) : Option Binary64 :=
  Binary64.ofRatio? false left.units right.units

/-- The double nearest to a power of ten. -/
def powerOfTen? (power : Nat) : Option Binary64 := Binary64.ofDecimal? false 1 power

/-- The greatest power of ten that is a double. -/
def greatestPower : Nat := 308

/-- Divides by the greatest power of ten, so many times or until nothing is left. -/
def divideDown : (times : Nat) → Binary64 → Option Binary64
  | 0, magnitude => some magnitude
  | times + 1, magnitude =>
      if magnitude.rank = 0 then some magnitude
      else do
        let power ← powerOfTen? greatestPower
        let quotient ← quotient? magnitude power
        divideDown times quotient

/-- Scales by a power of ten, in several steps if the power is too small for a double. -/
def scale? (magnitude : Binary64) (exponent : Int) : Option Binary64 :=
  if 0 ≤ exponent then
    if magnitude.rank = 0 then some magnitude
    else if greatestPower < exponent then none
    else (powerOfTen? exponent.toNat).bind (product? magnitude)
  else do
    let times := (exponent.natAbs - 1) / greatestPower
    let divided ← divideDown times magnitude
    let power ← powerOfTen? (exponent.natAbs - times * greatestPower)
    quotient? divided power

/-- Reads the leading digits as a double and scales it. -/
def bestEffort : FloatReader := fun literal => do
  let (digits, exponent) := leadingDigits literal
  let magnitude ← Binary64.ofRatio? false digits 1
  scale? magnitude exponent

end Graft.Json
