/-!
# Digits of a radix

A digit of a radix up to sixteen is one of `0` to `9` or a letter of either case from `a` on, with a
value below the radix.
-/

namespace Graft.Text

/-- The value of a character as a digit of the given radix. -/
def digitValue? (radix : Nat) (character : Char) : Option Nat :=
  let code := character.toNat
  let value :=
    if 0x30 ≤ code ∧ code ≤ 0x39 then code - 0x30
    else if 0x41 ≤ code ∧ code ≤ 0x5A then code - 0x41 + 10
    else if 0x61 ≤ code ∧ code ≤ 0x7A then code - 0x61 + 10
    else radix
  if value < radix then some value else none

/-- A digit's value is below its radix. -/
theorem lt_of_digitValue? {radix value : Nat} {character : Char}
    (digit : digitValue? radix character = some value) : value < radix := by
  simp only [digitValue?] at digit
  grind

/-- The scalar value that two surrogate halves denote together. -/
def joinSurrogates (high low : Nat) : Nat :=
  0x10000 + (high - 0xD800) * 0x400 + (low - 0xDC00)

/-- Whether a code unit is the first half of a surrogate pair. -/
def isHighSurrogate (unit : Nat) : Bool := 0xD800 ≤ unit && unit < 0xDC00

/-- Whether a code unit is the second half of a surrogate pair. -/
def isLowSurrogate (unit : Nat) : Bool := 0xDC00 ≤ unit && unit < 0xE000

end Graft.Text
