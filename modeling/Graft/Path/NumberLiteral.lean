import Graft.Numeric.Literal
import Graft.Path.Fault
import Graft.Path.Lexical
import Graft.Path.NumberKey
import Graft.Text.Digit

/-!
# Number literals in path expressions

A number is written in decimal, with a point and an exponent if need be, or as an integer in radix
16, 8 or 2. It is read as a double and stands for the key that the double spells. A decimal is read
as the double nearest to it. The digits of another radix are added to a double one by one.
-/

namespace Graft.Path

/-- Reads the digits of an integer in the given radix, most significant first. Each digit is added
to a double, so that an integer with more digits than a double can hold is rounded on the way. -/
def readRadixDigits (radix : Nat) (text : List Char) :
    Except Fault (Option Binary64 × List Char) :=
  let isDigit (character : Char) : Bool := (Text.digitValue? radix character).isSome
  let digits := text.takeWhile isDigit
  let rest := text.dropWhile isDigit
  let extend (value : Option Binary64) (digit : Nat) : Option Binary64 :=
    value.bind fun number => Binary64.ofRatio? false (number.wholeMagnitude * radix + digit) 1
  if digits.isEmpty then .error ⟨rest, .missingRadixDigits⟩
  else
    .ok ((digits.filterMap (Text.digitValue? radix)).foldl extend (some (.zero false)), rest)

theorem readRadixDigits_leavesSuffix (radix : Nat) (text : List Char) :
    LeavesSuffix text (readRadixDigits radix text) := by
  simp only [readRadixDigits]
  split <;> exact List.dropWhile_suffix _

/-- Reads the exponent of a decimal literal; without one the exponent is zero. -/
def readExponent (text : List Char) : Except Fault (Int × List Char) :=
  match text with
  | [] => .ok (0, [])
  | mark :: rest =>
      if mark = 'e' ∨ mark = 'E' then
        let (negative, unsigned) := spanSign rest
        let (digits, after) := spanDigits unsigned
        let magnitude : Int := Nat.ofDigitChars 10 digits 0
        if digits.isEmpty then .error ⟨unsigned, .missingExponentDigits⟩
        else .ok (if negative then -magnitude else magnitude, after)
      else .ok (0, text)

theorem readExponent_leavesSuffix (text : List Char) : LeavesSuffix text (readExponent text) := by
  unfold readExponent
  split
  · exact List.suffix_rfl
  · rename_i mark rest
    split
    · have within : (spanSign rest).2 <:+ mark :: rest :=
        (spanSign_suffix rest).trans (List.suffix_cons _ _)
      simp only
      split
      · exact within
      · exact (spanDigits_suffix _).trans within
    · exact List.suffix_rfl

/-- Takes a point and the digits after it off the front of a text. -/
def spanFraction (text : List Char) : List Char × List Char :=
  match text with
  | '.' :: rest => spanDigits rest
  | _ => ([], text)

theorem spanFraction_suffix (text : List Char) : (spanFraction text).2 <:+ text := by
  unfold spanFraction
  split
  · exact (List.dropWhile_suffix _).trans (List.suffix_cons _ _)
  · exact List.suffix_rfl

/-- Reads a decimal literal. It may begin or end with its point, but not be a mere point, and may
not have a zero in front of another digit. -/
def readDecimal (text : List Char) : Except Fault (Option Binary64 × List Char) :=
  let (whole, afterWhole) := spanDigits text
  let (fraction, afterFraction) := spanFraction afterWhole
  if 1 < whole.length ∧ whole.head? = some '0' then .error ⟨text, .legacyOctal⟩
  else if whole.isEmpty ∧ fraction.isEmpty then .error ⟨text, .numberExpected⟩
  else
    match readExponent afterFraction with
    | .error fault => .error fault
    | .ok (exponent, rest) =>
        .ok (DecimalLiteral.toBinary64? false ⟨whole, fraction, exponent⟩, rest)

theorem readDecimal_leavesSuffix (text : List Char) : LeavesSuffix text (readDecimal text) := by
  simp only [readDecimal]
  split
  · exact List.suffix_rfl
  · split
    · exact List.suffix_rfl
    · have front : (spanFraction (spanDigits text).2).2 <:+ text :=
        (spanFraction_suffix _).trans (List.dropWhile_suffix _)
      have inner := (readExponent_leavesSuffix (spanFraction (spanDigits text).2).2).trans front
      split
      · rename_i failed
        rw [failed] at inner
        exact inner
      · rename_i taken
        rw [taken] at inner
        exact inner

/-- The radix that the character after a leading zero announces. -/
def radixOfMark? : Char → Option Nat
  | 'x' | 'X' => some 16
  | 'o' | 'O' => some 8
  | 'b' | 'B' => some 2
  | _ => none

/-- Reads the value of a number, with or without a radix mark. -/
def readNumberValue (text : List Char) : Except Fault (Option Binary64 × List Char) :=
  match text with
  | '0' :: mark :: rest =>
      match radixOfMark? mark with
      | some radix => readRadixDigits radix rest
      | none => readDecimal text
  | _ => readDecimal text

theorem readNumberValue_leavesSuffix (text : List Char) :
    LeavesSuffix text (readNumberValue text) := by
  unfold readNumberValue
  split
  · split
    · exact (readRadixDigits_leavesSuffix _ _).trans ⟨[_, _], rfl⟩
    · exact readDecimal_leavesSuffix _
  · exact readDecimal_leavesSuffix _

/-- Reads a number as the key it spells. An identifier may not follow at once. -/
def readNumber (text : List Char) : Except Fault (String × List Char) :=
  match readNumberValue text with
  | .error fault => .error fault
  | .ok (value, rest) =>
      if rest.head?.any isIdentifierPart then .error ⟨text, .identifierAfterNumber⟩
      else .ok (literalKey value, rest)

theorem readNumber_leavesSuffix (text : List Char) : LeavesSuffix text (readNumber text) := by
  unfold readNumber
  have inner := readNumberValue_leavesSuffix text
  split
  · rename_i failed
    rw [failed] at inner
    exact inner
  · rename_i taken
    rw [taken] at inner
    split
    · exact List.suffix_rfl
    · exact inner

end Graft.Path
