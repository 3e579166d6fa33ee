import Graft.Text.Quoted

/-!
# Faults of path expressions

An expression is blank, or it is malformed at some position for some reason. Positions count the
bytes of the expression's UTF-8 form before the fault. The detailed message repeats the expression
and puts a caret under the fault.
-/

namespace Graft.Path

/-- What is wrong at the position where reading stopped. -/
inductive Reason where
  | unexpected (found : Char)
  | reservedWord (word : String)
  | identifierExpected (found : Option Char)
  | emptyBrackets
  | computedProperty
  | literalExpected (found : Char)
  | unterminatedBrackets
  | severalLiterals
  | closingBracketExpected (found : Char)
  | unterminatedString
  | octalEscape
  | hexDigitExpected
  | invalidHexDigit (found : Char)
  | escapeOutOfRange
  | malformedUnicodeEscape
  | unpairedSurrogate
  | invalidUnicodeEscape
  | missingRadixDigits
  | legacyOctal
  | numberExpected
  | missingExponentDigits
  | identifierAfterNumber
  /-- A reason in a caller's own words. -/
  | custom (text : String)
deriving DecidableEq

namespace Reason

/-- A character between apostrophes. -/
private def shown (character : Char) : String := "'" ++ character.toString ++ "'"

/-- The wording of a reason. -/
def text : Reason → String
  | .unexpected found => "unexpected character " ++ shown found
  | .reservedWord word => "reserved word '" ++ word ++ "' cannot start a path"
  | .identifierExpected (some found) => "expected an identifier, found " ++ shown found
  | .identifierExpected none => "expected an identifier, found end of input"
  | .emptyBrackets => "empty brackets"
  | .computedProperty => "computed property; expected a string or number literal"
  | .literalExpected found => "expected a string or number literal, found " ++ shown found
  | .unterminatedBrackets => "unterminated brackets"
  | .severalLiterals => "brackets must hold exactly one literal"
  | .closingBracketExpected found => "expected ']', found " ++ shown found
  | .unterminatedString => "unterminated string literal"
  | .octalEscape => "octal escapes are not supported"
  | .hexDigitExpected => "expected a hex digit"
  | .invalidHexDigit found => "invalid hex digit " ++ shown found
  | .escapeOutOfRange => "unicode escape out of range"
  | .malformedUnicodeEscape => "malformed unicode escape"
  | .unpairedSurrogate => "unpaired surrogate in unicode escape"
  | .invalidUnicodeEscape => "invalid unicode escape"
  | .missingRadixDigits => "missing digits after radix prefix"
  | .legacyOctal => "legacy octal literals are not supported"
  | .numberExpected => "expected a number literal"
  | .missingExponentDigits => "missing exponent digits"
  | .identifierAfterNumber => "identifier starts immediately after numeric literal"
  | .custom text => text

end Reason

/-- Why an expression is not a path. -/
inductive PathError where
  /-- The expression holds nothing but white space. -/
  | blank
  /-- The expression is malformed. -/
  | malformed (input : String) (position : Nat) (reason : Reason)
deriving DecidableEq

namespace PathError

/-- How many of the characters begin before the given byte position. -/
def charactersBefore : (position : Nat) → List Char → Nat
  | 0, _ => 0
  | _ + 1, [] => 0
  | position + 1, character :: rest =>
      charactersBefore (position + 1 - character.utf8Size) rest + 1

/-- The offending expression, if it is worth showing. -/
def input? : PathError → Option String
  | .blank => none
  | .malformed input _ _ => some input

/-- The message on one line. -/
def message : PathError → String
  | .blank => "path cannot be empty"
  | .malformed input position reason =>
      "couldn't convert path to reference list: " ++ Text.quoted input ++ " (" ++ reason.text ++
        " at position " ++ toString position ++ ")"

/-- The message with the expression below it and a caret under the fault. -/
def detailedMessage (error : PathError) : String :=
  match error with
  | .blank => error.message
  | .malformed input position _ =>
      let column := charactersBefore position input.toList
      error.message ++ "\nInput: " ++ input ++ "\n       " ++
        String.ofList (List.replicate column ' ') ++ "^"

end PathError

end Graft.Path
