import Graft.Numeric.Binary64

/-!
# Decimal literals

The digits of a literal before and after the point, and its exponent, as a reader finds them. What
the literal denotes is `digits * 10 ^ (exponent - places)`, where `places` is the number of digits
after the point.
-/

namespace Graft

/-- The ASCII digits at the front of a text, and what follows them. -/
def spanDigits (text : List Char) : List Char × List Char :=
  (text.takeWhile Char.isDigit, text.dropWhile Char.isDigit)

/-- Takes a sign off the front of a text and tells whether it was a minus. -/
def spanSign : List Char → Bool × List Char
  | '-' :: rest => (true, rest)
  | '+' :: rest => (false, rest)
  | text => (false, text)

theorem spanDigits_suffix (text : List Char) : (spanDigits text).2 <:+ text :=
  List.dropWhile_suffix _

theorem spanSign_suffix (text : List Char) : (spanSign text).2 <:+ text := by
  unfold spanSign
  split
  · exact List.suffix_cons _ _
  · exact List.suffix_cons _ _
  · exact List.suffix_rfl

/-- The digits and the exponent of a decimal literal. -/
structure DecimalLiteral where
  whole : List Char
  fraction : List Char
  exponent : Int
deriving DecidableEq

namespace DecimalLiteral

/-- The digits before and after the point, as one number. -/
def digits (literal : DecimalLiteral) : Nat :=
  Nat.ofDigitChars 10 (literal.whole ++ literal.fraction) 0

/-- The finite number nearest to the literal, or `none` if it overflows. -/
def toBinary64? (negative : Bool) (literal : DecimalLiteral) : Option Binary64 :=
  Binary64.ofDecimal? negative literal.digits (literal.exponent - literal.fraction.length)

end DecimalLiteral

end Graft
