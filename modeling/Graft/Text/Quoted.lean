import Graft.Unicode.DefaultIgnorable
import Graft.Unicode.GraphemeExtend
import Graft.Unicode.Unprintable

/-!
# Quoted text in messages

A text quoted inside a message has to be legible and unambiguous: quotes and backslashes are
escaped, NUL, tab, carriage return and line feed have short escapes, and every character that would
not show on its own, because it joins its neighbour, may be ignored in print or has no printed form,
is written as its code point in hexadecimal. An apostrophe needs no escape.
-/

namespace Graft.Text

/-- The code point of a character as an escape in braces. -/
def codePointEscape (character : Char) : List Char :=
  '\\' :: 'u' :: '{' :: (Nat.toDigits 16 character.toNat ++ ['}'])

/-- Whether a character is one of the two half-width sound marks of Katakana. They extend the letter
before them, but are as wide as a letter in print. -/
def isHalfwidthSoundMark (character : Char) : Bool :=
  character = '\uff9e' || character = '\uff9f'

/-- Whether a character shows on its own. -/
def isLegible (character : Char) : Bool :=
  !Unicode.isUnprintable character && !Unicode.isDefaultIgnorable character &&
    (!Unicode.isGraphemeExtend character || isHalfwidthSoundMark character)

/-- The form of one character inside a quoted text. -/
def escapeQuoted (character : Char) : List Char :=
  match character with
  | '"' => ['\\', '"']
  | '\\' => ['\\', '\\']
  | '\x00' => ['\\', '0']
  | '\t' => ['\\', 't']
  | '\r' => ['\\', 'r']
  | '\n' => ['\\', 'n']
  | _ => if isLegible character then [character] else codePointEscape character

/-- A text between quotes, as messages show it. -/
def quoted (text : String) : String :=
  String.ofList ('"' :: (text.toList.flatMap escapeQuoted ++ ['"']))

end Graft.Text
