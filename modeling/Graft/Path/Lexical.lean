import Graft.Unicode.Alphabetic
import Graft.Unicode.Numeric
import Graft.Unicode.WhiteSpace

/-!
# The characters and words of path expressions

An identifier begins with an alphabetic character, `_` or `$`; further characters may also be
numeric or one of the two joiners that some scripts need inside a word. The reserved words cannot
begin a path; after a dot they are ordinary names. Blanks are white space and the byte order mark.
-/

namespace Graft.Path

/-- Whether an identifier may begin with the character. -/
def isIdentifierStart (character : Char) : Bool :=
  Unicode.isAlphabetic character || character = '_' || character = '$'

/-- Whether the character may stand inside an identifier. -/
def isIdentifierPart (character : Char) : Bool :=
  isIdentifierStart character || Unicode.isNumeric character ||
    character = '\u200c' || character = '\u200d'

/-- Whether characters can be written as a name after a dot. -/
def isIdentifierName : List Char → Bool
  | [] => false
  | first :: rest => isIdentifierStart first && rest.all isIdentifierPart

/-- Whether a character may stand between the tokens of a path expression. -/
def isBlank (character : Char) : Bool :=
  Unicode.isWhiteSpace character || character = '\ufeff'

/-- The words that cannot begin a path. -/
def reservedWords : List String :=
  ["break", "case", "catch", "class", "const", "continue", "debugger", "default", "delete", "do",
    "else", "enum", "export", "extends", "false", "finally", "for", "function", "if", "import",
    "in", "instanceof", "new", "null", "return", "super", "switch", "this", "throw", "true", "try",
    "typeof", "var", "void", "while", "with"]

/-- Whether a word cannot begin a path. -/
def isReservedWord (word : String) : Bool := reservedWords.contains word

end Graft.Path
