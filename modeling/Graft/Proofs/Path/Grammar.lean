import Graft.Path.Basic
import Graft.Path.NumberLiteral
import Graft.Path.StringLiteral

/-!
# The grammar of path expressions

The rules by which a text spells a path, said without regard to how the text is read:

    path      := blanks root (blanks accessor)* blanks
    root      := identifier | bracketed
    accessor  := '.' blanks identifier | bracketed
    bracketed := '[' blanks (string | number) blanks ']'

Each rule relates a text to what it denotes, and the text of a rule is put together from the texts
of its parts. Nothing here says where one part ends and the next begins: that a text cannot be
divided in two ways is a theorem. Two rules look at the text that follows: `\0` is no escape before
a digit, and nothing that could go on an identifier may follow a number.
-/

namespace Graft.Path.Grammar

/-- A run of blanks. -/
def Blanks (text : List Char) : Prop := ∀ character ∈ text, isBlank character

/-- A digit of the given radix. -/
def IsDigit (radix : Nat) (character : Char) : Prop := (Text.digitValue? radix character).isSome

/-- The value of digits to which one more digit is appended. -/
def appendDigit (radix value : Nat) (digit : Char) : Nat :=
  value * radix + (Text.digitValue? radix digit).getD 0

/-- The number that digits spell. -/
def digitsValue (radix : Nat) (digits : List Char) : Nat := digits.foldl (appendDigit radix) 0

/-- Four hexadecimal digits, or any number of them in braces, denote a code unit. -/
inductive CodeUnit : List Char → Nat → Prop where
  | fourDigits {digits : List Char} (four : digits.length = 4)
      (allDigits : ∀ digit ∈ digits, IsDigit 16 digit) : CodeUnit digits (digitsValue 16 digits)
  | braced {digits : List Char} (nonempty : digits ≠ [])
      (allDigits : ∀ digit ∈ digits, IsDigit 16 digit)
        (inRange : digitsValue 16 digits ≤ 0x10FFFF) :
      CodeUnit ('\x7b' :: (digits ++ ['\x7d'])) (digitsValue 16 digits)

/-- A code unit that is no half of a surrogate pair denotes a character on its own; the two halves
of a pair denote one together. -/
inductive CodePoint : List Char → Char → Prop where
  | single {text : List Char} {unit : Nat} (isUnit : CodeUnit text unit)
      (notHigh : Text.isHighSurrogate unit = false) (notLow : Text.isLowSurrogate unit = false) :
      CodePoint text (Char.ofNat unit)
  | pair {highText lowText : List Char} {high low : Nat} (highUnit : CodeUnit highText high)
      (isHigh : Text.isHighSurrogate high) (lowUnit : CodeUnit lowText low)
      (isLow : Text.isLowSurrogate low) :
      CodePoint (highText ++ '\\' :: 'u' :: lowText) (Char.ofNat (Text.joinSurrogates high low))

/-- The letters that denote a control character after a backslash. -/
def controlEscapes : List (Char × Char) :=
  [('n', '\n'), ('r', '\r'), ('t', '\t'), ('b', '\x08'), ('f', '\x0c'), ('v', '\x0b')]

/-- The characters that continue a string on the next line after a backslash. -/
def lineTerminators : List Char := ['\n', '\r', '\u2028', '\u2029']

/-- A backslash before the character has no meaning of its own. -/
def StandsForItself (character : Char) : Prop :=
  character ∉ controlEscapes.map Prod.fst ∧ character ∉ lineTerminators ∧
    character ∉ ['x', 'u'] ∧ character.isDigit = false

/-- What follows a backslash, with the character that both denote, if any. -/
inductive Escape : List Char → Option Char → Prop where
  | control {letter denoted : Char} (listed : (letter, denoted) ∈ controlEscapes) :
      Escape [letter] (some denoted)
  | zero : Escape ['0'] (some '\x00')
  | byte {digits : List Char} (two : digits.length = 2)
      (allDigits : ∀ digit ∈ digits, IsDigit 16 digit) :
      Escape ('x' :: digits) (some (Char.ofNat (digitsValue 16 digits)))
  | codePoint {text : List Char} {denoted : Char} (isCodePoint : CodePoint text denoted) :
      Escape ('u' :: text) (some denoted)
  | continuation {terminator : Char} (listed : terminator ∈ lineTerminators) :
      Escape [terminator] none
  | returnAndLineFeed : Escape ['\r', '\n'] none
  | itself {character : Char} (plain : StandsForItself character) :
      Escape [character] (some character)

/-- The text between two quotes, with the characters it denotes. -/
inductive Characters (quote : Char) : List Char → List Char → Prop where
  | nil : Characters quote [] []
  | plain {first : Char} {rest denoted : List Char} (notQuote : first ≠ quote)
      (notBackslash : first ≠ '\\') (notBreak : ¬(first = '\n' ∨ first = '\r'))
      (others : Characters quote rest denoted) :
      Characters quote (first :: rest) (first :: denoted)
  | escape {text rest denoted : List Char} {found : Option Char} (isEscape : Escape text found)
      (notOctal : text = ['0'] → startsWithDigit rest = false)
      (others : Characters quote rest denoted) :
      Characters quote ('\\' :: (text ++ rest)) (found.toList ++ denoted)

/-- A run of decimal digits. -/
def Digits (text : List Char) : Prop := ∀ character ∈ text, character.isDigit

/-- The exponent of a decimal numeral, or nothing for the exponent zero. -/
inductive Exponent : List Char → Int → Prop where
  | absent : Exponent [] 0
  | positive {mark : Char} {sign digits : List Char} (isMark : mark = 'e' ∨ mark = 'E')
      (isSign : sign = [] ∨ sign = ['+']) (nonempty : digits ≠ []) (allDigits : Digits digits) :
      Exponent (mark :: (sign ++ digits)) (Nat.ofDigitChars 10 digits 0)
  | negative {mark : Char} {digits : List Char} (isMark : mark = 'e' ∨ mark = 'E')
      (nonempty : digits ≠ []) (allDigits : Digits digits) :
      Exponent (mark :: '-' :: digits) (-(Nat.ofDigitChars 10 digits 0 : Int))

/-- No zero stands in front of another digit. -/
def NoLeadingZero (digits : List Char) : Prop := ¬(1 < digits.length ∧ digits.head? = some '0')

/-- A decimal numeral: digits, with a point in front of, behind or between them if need be, and an
exponent. -/
inductive DecimalNumeral : List Char → DecimalLiteral → Prop where
  | whole {whole exponent : List Char} {power : Int} (nonempty : whole ≠ [])
      (wholeDigits : Digits whole) (noZero : NoLeadingZero whole)
      (isExponent : Exponent exponent power) :
      DecimalNumeral (whole ++ exponent) ⟨whole, [], power⟩
  | point {whole fraction exponent : List Char} {power : Int}
      (nonempty : ¬(whole = [] ∧ fraction = [])) (wholeDigits : Digits whole)
      (noZero : NoLeadingZero whole) (fractionDigits : Digits fraction)
      (isExponent : Exponent exponent power) :
      DecimalNumeral (whole ++ '.' :: (fraction ++ exponent)) ⟨whole, fraction, power⟩

/-- The double that the digits of an integer come to when they are added one by one, or nothing if
it overflows. -/
def radixValue (radix : Nat) (digits : List Char) : Option Binary64 :=
  digits.foldl (fun value digit => value.bind fun number =>
    Binary64.ofRatio? false (appendDigit radix number.wholeMagnitude digit) 1) (some (.zero false))

/-- A decimal numeral, or digits of another radix after the mark of the radix. -/
inductive Numeral : List Char → Option Binary64 → Prop where
  | decimal {text : List Char} {literal : DecimalLiteral}
      (isDecimal : DecimalNumeral text literal) :
      Numeral text (literal.toBinary64? false)
  | radix {mark : Char} {radix : Nat} {digits : List Char} (isMark : radixOfMark? mark = some radix)
      (nonempty : digits ≠ []) (allDigits : ∀ digit ∈ digits, IsDigit radix digit) :
      Numeral ('0' :: mark :: digits) (radixValue radix digits)

/-- A text does not go on with a character that may stand inside an identifier. -/
def EndsIdentifier (rest : List Char) : Prop :=
  ∀ character ∈ rest.head?, isIdentifierPart character = false

/-- A string or a number in brackets, with the key it denotes. -/
inductive Bracketed : List Char → String → Prop where
  | string {before text after denoted : List Char} {quote : Char}
      (isQuote : quote = '\'' ∨ quote = '"') (blanksBefore : Blanks before)
      (characters : Characters quote text denoted) (blanksAfter : Blanks after) :
      Bracketed ('[' :: (before ++ quote :: (text ++ quote :: (after ++ [']']))))
        (String.ofList denoted)
  | number {before text after : List Char} {value : Option Binary64}
      (blanksBefore : Blanks before) (numeral : Numeral text value) (blanksAfter : Blanks after)
      (ends : EndsIdentifier (after ++ [']'])) :
      Bracketed ('[' :: (before ++ (text ++ (after ++ [']'])))) (literalKey value)

/-- The first key of a path. -/
inductive Root : List Char → String → Prop where
  | identifier {name : List Char} (isName : isIdentifierName name)
      (free : isReservedWord (String.ofList name) = false) : Root name (String.ofList name)
  | bracketed {text : List Char} {key : String} (isBracketed : Bracketed text key) : Root text key

/-- A further key. -/
inductive Accessor : List Char → String → Prop where
  | dotted {between name : List Char} (blanks : Blanks between) (isName : isIdentifierName name) :
      Accessor ('.' :: (between ++ name)) (String.ofList name)
  | bracketed {text : List Char} {key : String} (isBracketed : Bracketed text key) :
      Accessor text key

/-- Any number of further keys, up to the end of the text. -/
inductive Accessors : List Char → KeyPath → Prop where
  | nil {blanks : List Char} (areBlanks : Blanks blanks) : Accessors blanks []
  | cons {before text rest : List Char} {key : String} {keys : KeyPath} (blanks : Blanks before)
      (accessor : Accessor text key) (others : Accessors rest keys) :
      Accessors (before ++ (text ++ rest)) (key :: keys)

/-- A whole path. -/
inductive Expression : List Char → KeyPath → Prop where
  | intro {before text rest : List Char} {key : String} {keys : KeyPath} (blanks : Blanks before)
      (root : Root text key) (others : Accessors rest keys) :
      Expression (before ++ (text ++ rest)) (key :: keys)

end Graft.Path.Grammar
