import Graft.Proofs.Path.Acceptance

/-!
# The spellings of a string

A string is spelled character by character, and most characters can be spelled in several ways: as
they are, by a named escape, by their code in hexadecimal digits, by a pair of surrogates, or after
a backslash that means nothing. Line continuations may stand anywhere between them. Whatever the
spelling, the string is read back, and nothing that is no spelling is read.
-/

namespace Graft.Path

open Grammar

/-- The ways to spell a character of a string that stands between the given quotes. -/
inductive Spells (quote : Char) : Char → List Char → Prop where
  /-- The character as it is, unless it is a quote, a backslash or a line break. -/
  | raw {character : Char} (notQuote : character ≠ quote) (notBackslash : character ≠ '\\')
      (notBreak : ¬(character = '\n' ∨ character = '\r')) : Spells quote character [character]
  /-- A named escape. -/
  | named {letter character : Char} (listed : (letter, character) ∈ controlEscapes) :
      Spells quote character ['\\', letter]
  /-- The escape of the null character. -/
  | nul : Spells quote '\x00' ['\\', '0']
  /-- The code in two digits. -/
  | byte {digits : List Char} {character : Char} (two : digits.length = 2)
      (allDigits : ∀ digit ∈ digits, IsDigit 16 digit)
      (isCode : digitsValue 16 digits = character.toNat) :
      Spells quote character ('\\' :: 'x' :: digits)
  /-- The code in four digits, or in any number of them in braces. -/
  | code {text : List Char} {character : Char} (isUnit : CodeUnit text character.toNat) :
      Spells quote character ('\\' :: 'u' :: text)
  /-- The two surrogates of a character beyond the basic plane. -/
  | surrogates {highText lowText : List Char} {high low : Nat} {character : Char}
      (highUnit : CodeUnit highText high) (isHigh : Text.isHighSurrogate high)
      (lowUnit : CodeUnit lowText low) (isLow : Text.isLowSurrogate low)
      (isCode : Text.joinSurrogates high low = character.toNat) :
      Spells quote character ('\\' :: 'u' :: (highText ++ '\\' :: 'u' :: lowText))
  /-- A backslash in front of a character without a special meaning there. -/
  | itself {character : Char} (plain : StandsForItself character) :
      Spells quote character ['\\', character]

/-- The line breaks that a backslash continues a string over. -/
inductive LineBreak : List Char → Prop where
  | single {terminator : Char} (listed : terminator ∈ lineTerminators) : LineBreak [terminator]
  | returnAndLineFeed : LineBreak ['\r', '\n']

/-- A spelling of a string: spellings of its characters one after the other, with line continuations
between them. No digit may follow `\0`. -/
inductive Spelling (quote : Char) : List Char → List Char → Prop where
  | nil : Spelling quote [] []
  | character {character : Char} {spelled text characters : List Char}
      (spells : Spells quote character spelled)
      (notOctal : spelled = ['\\', '0'] → startsWithDigit text = false)
      (others : Spelling quote text characters) :
      Spelling quote (spelled ++ text) (character :: characters)
  | continuation {lineBreak text characters : List Char} (isBreak : LineBreak lineBreak)
      (others : Spelling quote text characters) :
      Spelling quote ('\\' :: (lineBreak ++ text)) characters

theorem isHighSurrogate_toNat (character : Char) :
    Text.isHighSurrogate character.toNat = false := by
  have valid : character.toNat.isValidChar := character.valid
  simp only [Nat.isValidChar] at valid
  simp only [Text.isHighSurrogate, Bool.and_eq_false_imp, decide_eq_true_eq,
    decide_eq_false_iff_not]
  omega

theorem isLowSurrogate_toNat (character : Char) : Text.isLowSurrogate character.toNat = false := by
  have valid : character.toNat.isValidChar := character.valid
  simp only [Nat.isValidChar] at valid
  simp only [Text.isLowSurrogate, Bool.and_eq_false_imp, decide_eq_true_eq, decide_eq_false_iff_not]
  omega

variable {quote : Char}

theorem Spells.characters {character : Char} {spelled text characters : List Char}
    (spells : Spells quote character spelled)
    (notOctal : spelled = ['\\', '0'] → startsWithDigit text = false)
    (others : Characters quote text characters) :
    Characters quote (spelled ++ text) (character :: characters) := by
  cases spells with
  | raw notQuote notBackslash notBreak => exact .plain notQuote notBackslash notBreak others
  | @named letter _ listed =>
      have notZero : letter ≠ '0' := by
        rintro rfl
        revert listed
        simp [controlEscapes]
      exact .escape (.control listed) (fun same => absurd (List.cons.inj same).1 notZero) others
  | nul => exact .escape .zero (fun _ => notOctal rfl) others
  | @byte digits _ two allDigits isCode =>
      have escape := Escape.byte two allDigits
      rw [isCode, Char.ofNat_toNat] at escape
      exact .escape escape (by simp) others
  | code isUnit =>
      have escape := Escape.codePoint
        (.single isUnit (isHighSurrogate_toNat character) (isLowSurrogate_toNat character))
      rw [Char.ofNat_toNat] at escape
      exact .escape escape (by simp) others
  | surrogates highUnit isHigh lowUnit isLow isCode =>
      have escape := Escape.codePoint (.pair highUnit isHigh lowUnit isLow)
      rw [isCode, Char.ofNat_toNat] at escape
      exact .escape escape (by simp) others
  | itself plain =>
      have notZero : character ≠ '0' := by
        rintro rfl
        exact absurd plain.2.2.2 (by decide)
      exact .escape (.itself plain) (fun same => absurd (List.cons.inj same).1 notZero) others

theorem Spelling.characters {text characters : List Char}
    (spelling : Spelling quote text characters) :
    Characters quote text characters := by
  induction spelling with
  | nil => exact .nil
  | character spells notOctal _ ih => exact spells.characters notOctal ih
  | continuation isBreak _ ih =>
      cases isBreak with
      | single listed =>
          refine .escape (.continuation listed) ?_ ih
          intro same
          cases same
          exact absurd listed (by decide)
      | returnAndLineFeed => exact .escape .returnAndLineFeed (by simp) ih

theorem toNat_ofNat_of_isValidChar {code : Nat} (valid : code.isValidChar) :
    (Char.ofNat code).toNat = code := by
  rw [Char.ofNat, dif_pos valid]
  rfl

theorem isValidChar_joinSurrogates {high low : Nat} (isHigh : Text.isHighSurrogate high)
    (isLow : Text.isLowSurrogate low) : (Text.joinSurrogates high low).isValidChar := by
  simp only [Text.isHighSurrogate, Text.isLowSurrogate, Bool.and_eq_true, decide_eq_true_eq]
    at isHigh isLow
  unfold Text.joinSurrogates
  refine Or.inr ⟨?_, ?_⟩ <;> omega

theorem Grammar.CodeUnit.le {text : List Char} {unit : Nat} (isUnit : CodeUnit text unit) :
    unit ≤ 0x10FFFF := by
  cases isUnit with
  | fourDigits four allDigits =>
      have small := digitsValue_lt allDigits
      rw [four] at small
      omega
  | braced _ _ inRange => exact inRange

theorem Grammar.Escape.spells {text : List Char} {character : Char}
    (isEscape : Escape text (some character)) : Spells quote character ('\\' :: text) := by
  cases isEscape with
  | control listed => exact .named listed
  | zero => exact .nul
  | @byte digits two allDigits =>
      have small := digitsValue_lt allDigits
      rw [two] at small
      have valid : (digitsValue 16 digits).isValidChar := by
        simp only [Nat.isValidChar]
        omega
      exact .byte two allDigits (toNat_ofNat_of_isValidChar valid).symm
  | codePoint isCodePoint =>
      cases isCodePoint with
      | @single text unit isUnit notHigh notLow =>
          have inRange := isUnit.le
          have valid : unit.isValidChar := by
            simp only [Text.isHighSurrogate, Text.isLowSurrogate, Bool.and_eq_false_imp,
              decide_eq_true_eq, decide_eq_false_iff_not] at notHigh notLow
            simp only [Nat.isValidChar]
            omega
          rw [← toNat_ofNat_of_isValidChar valid] at isUnit
          exact .code isUnit
      | pair highUnit isHigh lowUnit isLow =>
          have valid := isValidChar_joinSurrogates isHigh isLow
          exact .surrogates highUnit isHigh lowUnit isLow (toNat_ofNat_of_isValidChar valid).symm
  | itself plain => exact .itself plain

theorem Grammar.Escape.lineBreak {text : List Char} (isEscape : Escape text none) :
    LineBreak text := by
  cases isEscape with
  | continuation listed => exact .single listed
  | returnAndLineFeed => exact .returnAndLineFeed

theorem Grammar.Characters.spelling {text denoted : List Char}
    (characters : Characters quote text denoted) : Spelling quote text denoted := by
  induction characters with
  | nil => exact .nil
  | @plain first _ _ notQuote notBackslash notBreak _ ih =>
      have notOctal : [first] ≠ ['\\', '0'] := by simp
      exact .character (.raw notQuote notBackslash notBreak) (fun same => absurd same notOctal) ih
  | @escape text rest _ found isEscape notOctal _ ih =>
      cases found with
      | none => exact .continuation isEscape.lineBreak ih
      | some character =>
          exact .character isEscape.spells (fun same => notOctal (List.cons.inj same).2) ih

/-- Every character can be spelled in a way that any text may follow. -/
theorem exists_spells (isQuote : quote = '\'' ∨ quote = '"') (character : Char) :
    ∃ spelled, Spells quote character spelled ∧ spelled ≠ ['\\', '0'] := by
  by_cases isBreak : character = '\n' ∨ character = '\r'
  case pos =>
    rcases isBreak with rfl | rfl
    · exact ⟨['\\', 'n'], .named (by simp [controlEscapes]), by simp⟩
    · exact ⟨['\\', 'r'], .named (by simp [controlEscapes]), by simp⟩
  case neg =>
    by_cases special : character = quote ∨ character = '\\'
    case pos =>
      have plain : StandsForItself character := by
        unfold StandsForItself
        rcases special with rfl | rfl
        · rcases isQuote with rfl | rfl <;> decide
        · decide
      refine ⟨['\\', character], .itself plain, ?_⟩
      intro same
      cases same
      exact absurd plain.2.2.2 (by decide)
    case neg =>
      rcases not_or.mp special with ⟨notQuote, notBackslash⟩
      exact ⟨[character], .raw notQuote notBackslash isBreak, by simp⟩

theorem exists_spelling (isQuote : quote = '\'' ∨ quote = '"') (characters : List Char) :
    ∃ text, Spelling quote text characters := by
  induction characters with
  | nil => exact ⟨[], .nil⟩
  | cons character characters ih =>
      rcases ih with ⟨text, others⟩
      rcases exists_spells isQuote character with ⟨spelled, spells, notNul⟩
      exact ⟨spelled ++ text, .character spells (fun same => absurd same notNul) others⟩

/-- The text behind a backslash begins with something that is no escape: a digit other than a lone
zero, half of a surrogate pair without the other half, or a code beyond the last character. -/
inductive OffendingEscape : List Char → Prop where
  | octal {digit : Char} {rest : List Char} (isDigit : digit.isDigit)
      (notNul : digit = '0' → startsWithDigit rest) : OffendingEscape (digit :: rest)
  | unpairedHigh {text rest : List Char} {unit : Nat} (isUnit : CodeUnit text unit)
      (isHigh : Text.isHighSurrogate unit)
      (unpaired : ∀ lowText low after, CodeUnit lowText low → Text.isLowSurrogate low →
        rest ≠ '\\' :: 'u' :: (lowText ++ after)) : OffendingEscape ('u' :: (text ++ rest))
  | unpairedLow {text rest : List Char} {unit : Nat} (isUnit : CodeUnit text unit)
      (isLow : Text.isLowSurrogate unit) : OffendingEscape ('u' :: (text ++ rest))
  | outOfRange {digits rest : List Char} (allDigits : ∀ digit ∈ digits, IsDigit 16 digit)
      (tooLarge : 0x10FFFF < digitsValue 16 digits) :
      OffendingEscape ('u' :: '\x7b' :: (digits ++ rest))

/-- A text begins with something that may not stand in a string: a line break, or an escape that is
none. -/
inductive Offends : List Char → Prop where
  | lineBreak {first : Char} {rest : List Char} (isBreak : first = '\n' ∨ first = '\r') :
      Offends (first :: rest)
  | escape {text : List Char} (offending : OffendingEscape text) : Offends ('\\' :: text)

theorem not_isLowSurrogate_of_isHighSurrogate {unit : Nat} (isHigh : Text.isHighSurrogate unit) :
    Text.isLowSurrogate unit = false := by
  simp only [Text.isHighSurrogate, Bool.and_eq_true, decide_eq_true_eq] at isHigh
  simp only [Text.isLowSurrogate, Bool.and_eq_false_imp, decide_eq_true_eq, decide_eq_false_iff_not]
  omega

/-- A Unicode escape opens with a code unit that is no second half of a pair, and goes on with one
if it is a first half. -/
theorem exists_readUnit_of_readEscape {found : Option Char} {text rest : List Char}
    (read : readEscape ('u' :: text) = .ok (found, rest)) :
    ∃ unit after, readUnit text = .ok (unit, after) ∧ Text.isLowSurrogate unit = false ∧
      (Text.isHighSurrogate unit → ∃ low, readLowUnit after = .ok (low, rest)) := by
  simp only [readEscape, readCodePoint] at read
  split at read
  case h_1 => cases read
  case h_2 character left taken =>
    cases read
    split at taken
    case h_1 => cases taken
    case h_2 unit after takenUnit =>
      refine ⟨unit, after, takenUnit, ?_⟩
      split at taken
      case isTrue isHigh =>
        refine ⟨not_isLowSurrogate_of_isHighSurrogate isHigh, fun _ => ?_⟩
        split at taken
        case h_1 => cases taken
        case h_2 low _ takenLow =>
          rcases Prod.mk.inj (Except.ok.inj taken) with ⟨_, rfl⟩
          exact ⟨low, takenLow⟩
      case isFalse notHigh =>
        split at taken
        case isTrue => cases taken
        case isFalse notLow => exact ⟨by simpa using notLow, fun isHigh => absurd isHigh notHigh⟩

/-- The digits in braces come to no more than the code that is read, however many of them there
are. -/
theorem digitsValue_le_of_readUnit {digits rest after : List Char} {unit : Nat}
    (allDigits : ∀ digit ∈ digits, IsDigit 16 digit)
    (read : readUnit ('\x7b' :: (digits ++ rest)) = .ok (unit, after)) :
    digitsValue 16 digits ≤ 0x10FFFF := by
  have braced : readBracedUnit false 0 (digits ++ rest) = .ok (unit, after) := read
  rcases readBracedUnit_eq_ok_iff.mp braced with ⟨found, some, _, isValue, inRange, same⟩
  have nonempty : found ≠ [] := by simpa using some
  have longer : ∃ further, found = digits ++ further := by
    rcases List.append_eq_append_iff.mp same with ⟨others, isDigits, isRest⟩ | ⟨others, isFound, _⟩
    · rcases others with _ | ⟨first, others⟩
      · exact ⟨[], by simpa using isDigits.symm⟩
      · cases isRest
        have isDigit := allDigits '\x7d' (by simp [isDigits])
        exact absurd isDigit (by simp [IsDigit]; decide)
    · exact ⟨others, isFound⟩
  rcases longer with ⟨further, rfl⟩
  rw [List.foldl_append] at isValue
  calc digitsValue 16 digits ≤ unit := isValue ▸ le_foldl_appendDigit _ further
    _ ≤ 0x10FFFF := inRange nonempty

theorem OffendingEscape.readEscape_ne_ok {text rest : List Char} {found : Option Char}
    (offending : OffendingEscape text) : readEscape text ≠ .ok (found, rest) := by
  intro read
  cases offending with
  | octal isDigit notNul =>
      simp only [readEscape] at read
      split at read
      case h_13 =>
        split at read
        case isTrue isNul => exact isNul.2 (notNul isNul.1)
        case isFalse => cases read
      all_goals exact absurd isDigit (by decide)
  | @unpairedHigh text behind unit isUnit isHigh unpaired =>
      rcases exists_readUnit_of_readEscape read with ⟨_, _, taken, _, paired⟩
      rw [readUnit_eq_ok_iff.mpr ⟨text, isUnit, rfl⟩] at taken
      cases taken
      rcases paired isHigh with ⟨low, takenLow⟩
      rcases readLowUnit_eq_ok_iff.mp takenLow with ⟨lowText, lowUnit, isLow, isBehind⟩
      exact unpaired lowText low rest lowUnit isLow isBehind.symm
  | @unpairedLow text _ unit isUnit isLow =>
      rcases exists_readUnit_of_readEscape read with ⟨_, _, taken, notLow, _⟩
      rw [readUnit_eq_ok_iff.mpr ⟨text, isUnit, rfl⟩] at taken
      cases taken
      rw [isLow] at notLow
      cases notLow
  | outOfRange allDigits tooLarge =>
      rcases exists_readUnit_of_readEscape read with ⟨_, _, taken, _⟩
      exact Nat.not_lt.mpr (digitsValue_le_of_readUnit allDigits taken) tooLarge

theorem Offends.startsWithDigit_eq {text : List Char} (offends : Offends text) :
    startsWithDigit text = false := by
  cases offends with
  | lineBreak isBreak => rcases isBreak with rfl | rfl <;> rfl
  | escape => rfl

theorem Offends.readCharacters_ne_ok {opening text : List Char} (offends : Offends text)
    (isQuote : quote = '\'' ∨ quote = '"') (read : List Char × List Char) :
    readCharacters quote opening text ≠ .ok read := by
  intro isRead
  rw [readCharacters.eq_def] at isRead
  cases offends with
  | lineBreak isBreak =>
      simp only [isBreak, if_true] at isRead
      cases isRead
  | escape offending =>
      have notQuote : '\\' ≠ quote := by rcases isQuote with rfl | rfl <;> decide
      dsimp only at isRead
      rw [if_neg (by decide), if_neg notQuote, if_pos rfl] at isRead
      split at isRead
      case h_1 => cases isRead
      case h_2 taken => exact offending.readEscape_ne_ok taken

/-- What is wrong behind a spelling is wrong in the string. -/
theorem Spelling.readCharacters_ne_ok {opening front characters text : List Char}
    (spelling : Spelling quote front characters) (isQuote : quote = '\'' ∨ quote = '"')
    (offends : Offends text) (apart : front.getLast? = some '\r' → text.head? ≠ some '\n')
    (read : List Char × List Char) : readCharacters quote opening (front ++ text) ≠ .ok read := by
  rw [spelling.characters.readCharacters_append isQuote opening offends.startsWithDigit_eq apart]
  intro isRead
  rcases taken : readCharacters quote opening text with fault | found
  · rw [taken] at isRead
    cases isRead
  · exact offends.readCharacters_ne_ok isQuote found taken

theorem characters_of_readBracket {before text rest : List Char} {key : String}
    (isQuote : quote = '\'' ∨ quote = '"') (blanks : Blanks before)
    (read : readBracket (before ++ quote :: text) = .ok (key, rest)) :
    ∃ characters after, Blanks after ∧ key = String.ofList characters ∧
      readCharacters quote (quote :: text) text = .ok (characters, after ++ ']' :: rest) := by
  have noBlank : isBlank quote = false := by rcases isQuote with rfl | rfl <;> decide
  simp only [readBracket, skipBlanks_append blanks (show ∀ character ∈ (quote :: text).head?, _ by
    simpa using noBlank), readLiteral, isQuote, if_true] at read
  rcases taken : readCharacters quote (quote :: text) text with fault | ⟨characters, left⟩
  · simp [taken] at read
  · simp only [taken] at read
    rcases exists_blanks_append_skipBlanks left with ⟨after, blanksAfter, isLeft⟩
    rcases closeBracket_eq_ok_iff.mp read with ⟨closing, rfl⟩
    rw [closing] at isLeft
    exact ⟨characters, after, blanksAfter, rfl, by rw [isLeft]⟩

/-- A string in brackets is read back however its characters are spelled. Nothing is read once a
spelling goes on with a line break, an octal escape, half of a surrogate pair or a code that is too
large; all that is read as a string is a spelling, and the key is what it spells. -/
theorem readBracket_spelling (isQuote : quote = '\'' ∨ quote = '"') :
    (∀ text : String, ∃ spelled, Spelling quote spelled text.toList) ∧
      (∀ (text : String) (spelled : List Char), Spelling quote spelled text.toList →
        IsReadAs (quote :: (spelled ++ [quote])) text) ∧
      (∀ before front characters offending, Blanks before → Spelling quote front characters →
        Offends offending → (front.getLast? = some '\r' → offending.head? ≠ some '\n') →
        ∀ key rest, readBracket (before ++ quote :: (front ++ offending)) ≠ .ok (key, rest)) ∧
      ∀ before inner key rest, Blanks before →
        readBracket (before ++ quote :: inner) = .ok (key, rest) →
        ∃ spelled after, Spelling quote spelled key.toList ∧ Blanks after ∧
          inner = spelled ++ quote :: (after ++ ']' :: rest) := by
  refine ⟨?_, ?_, ?_, ?_⟩
  · intro text
    exact exists_spelling isQuote text.toList
  · intro text spelled spelling
    have isRead := spelling.characters.isReadAs isQuote
    rwa [String.ofList_toList] at isRead
  · intro before front characters offending blanks spelling offends apart key rest read
    rcases characters_of_readBracket isQuote blanks read with ⟨found, after, _, _, taken⟩
    exact spelling.readCharacters_ne_ok isQuote offends apart _ taken
  · intro before inner key rest blanks read
    rcases characters_of_readBracket isQuote blanks read with
      ⟨found, after, blanksAfter, rfl, taken⟩
    rcases characters_of_readCharacters taken with ⟨spelled, characters, rfl⟩
    refine ⟨spelled, after, ?_, blanksAfter, rfl⟩
    rw [String.toList_ofList]
    exact characters.spelling

/-- A code in two digits, in four, in braces behind zeros and as two surrogates, a named escape, a
letter behind a backslash and a null character that a continuation keeps apart from a digit: the
string is read, but not with an octal escape behind it. -/
theorem readBracket_spelling_mixture :
    IsReadAs ("'\\x41\\u0042\\u\x7b000043\x7d\\\r\n\\uD83D\\uDE00\\n\\q\\0\\\n1" ++ "'").toList
        "ABC😀\nq\x001" ∧
      ∀ key rest, readBracket
        ("'\\x41\\u0042\\u\x7b000043\x7d\\\r\n\\uD83D\\uDE00\\n\\q\\0\\\n1" ++ "\\07']").toList ≠
          .ok (key, rest) := by
  have digit : Spelling '\'' ['1'] ['1'] :=
    .character (.raw (by decide) (by decide) (by decide)) (by simp) .nil
  have null : Spelling '\'' ['\\', '0', '\\', '\n', '1'] ['\x00', '1'] :=
    .character .nul (fun _ => rfl) (.continuation (.single (by decide)) digit)
  have letter := Spelling.character (@Spells.itself '\'' 'q' (by unfold StandsForItself; decide))
    (by simp) null
  have lineFeed := Spelling.character (@Spells.named '\'' 'n' '\n' (by decide)) (by simp) letter
  have isHigh : CodeUnit ['D', '8', '3', 'D'] 0xD83D :=
    .fourDigits rfl (by simp [IsDigit]; decide)
  have isLow : CodeUnit ['D', 'E', '0', '0'] 0xDE00 :=
    .fourDigits rfl (by simp [IsDigit]; decide)
  have face := Spelling.character (@Spells.surrogates '\'' _ _ _ _ '😀' isHigh rfl isLow rfl rfl)
    (by simp) lineFeed
  have isC : CodeUnit ['\x7b', '0', '0', '0', '0', '4', '3', '\x7d'] 'C'.toNat :=
    @CodeUnit.braced ['0', '0', '0', '0', '4', '3'] (by simp) (by simp [IsDigit]; decide)
      (by decide)
  have isB : CodeUnit ['0', '0', '4', '2'] 'B'.toNat :=
    .fourDigits rfl (by simp [IsDigit]; decide)
  have continued := Spelling.continuation .returnAndLineFeed face
  have codes := Spelling.character (.code isB) (by simp)
    (.character (.code isC) (by simp) continued)
  have spelling := Spelling.character
    (@Spells.byte '\'' ['4', '1'] 'A' rfl (by simp [IsDigit]; decide) rfl) (by simp) codes
  have octal : Offends ['\\', '0', '7', '\'', ']'] := .escape (.octal (by decide) fun _ => rfl)
  have isQuote : '\'' = '\'' ∨ '\'' = '"' := Or.inl rfl
  refine ⟨?_, ?_⟩
  · exact (readBracket_spelling isQuote).2.1 "ABC😀\nq\x001" _ spelling
  · exact (readBracket_spelling isQuote).2.2.1 [] _ _ _ (by simp [Blanks]) spelling octal (by simp)

end Graft.Path
