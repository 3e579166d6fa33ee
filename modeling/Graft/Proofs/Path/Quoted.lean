import Graft.Path.StringLiteral
import Graft.Text.JsonString

/-!
# Quoted keys read back

The escapes of a JSON string are escapes of a string literal too, and denote the same characters
there. What a JSON string leaves unescaped may stand for itself in a string literal.
-/

namespace Graft

namespace Text

theorem digitValue?_digitChar {value : Nat} (small : value < 16) :
    digitValue? 16 (Nat.digitChar value) = some value := by
  have all := (by decide : ∀ value : Fin 16,
    digitValue? 16 (Nat.digitChar value.val) = some value.val)
  exact all ⟨value, small⟩

end Text

namespace Path

open Text

/-- A control is read back from its code point in four hexadecimal digits. -/
theorem readEscape_control {character : Char} (control : character.toNat < 0x20)
    (text : List Char) :
    readEscape ('u' :: '0' :: '0' :: Nat.digitChar (character.toNat / 16) ::
      Nat.digitChar (character.toNat % 16) :: text) = .ok (some character, text) := by
  have high := digitValue?_digitChar (show character.toNat / 16 < 16 by omega)
  have low := digitValue?_digitChar (show character.toNat % 16 < 16 by omega)
  have zero : digitValue? 16 '0' = some 0 := by decide
  have value : character.toNat / 16 * 16 + character.toNat % 16 = character.toNat := by omega
  have unit : readUnit ('0' :: '0' :: Nat.digitChar (character.toNat / 16) ::
      Nat.digitChar (character.toNat % 16) :: text) = .ok (character.toNat, text) := by
    simp [readUnit, readHexDigits, high, low, zero, value]
  have notHigh : isHighSurrogate character.toNat = false := by
    simp [isHighSurrogate]
    omega
  have notLow : isLowSurrogate character.toNat = false := by
    simp [isLowSurrogate]
    omega
  have codePoint : readCodePoint ('0' :: '0' :: Nat.digitChar (character.toNat / 16) ::
      Nat.digitChar (character.toNat % 16) :: text) = .ok (character, text) := by
    simp [readCodePoint, unit, notHigh, notLow, Char.ofNat_toNat]
  rw [readEscape.eq_def]
  simp only [codePoint]

/-- An escape denotes its character, if any, in front of what the others denote. -/
theorem readCharacters_backslash_eq {quote : Char} {found : Option Char}
    {opening text after : List Char} (notQuote : '\\' ≠ quote)
    (escape : readEscape text = .ok (found, after)) :
    readCharacters quote opening ('\\' :: text) =
      (readCharacters quote opening after).map fun read => (found.toList ++ read.1, read.2) := by
  rw [readCharacters.eq_def]
  dsimp only
  rw [if_neg (by decide), if_neg notQuote, if_pos rfl]
  split
  case h_1 fault failed =>
    rw [escape] at failed
    cases failed
  case h_2 found rest taken =>
    rw [escape] at taken
    cases taken
    rcases readCharacters quote opening after with fault | ⟨characters, left⟩
    · rfl
    · rfl

theorem readCharacters_backslash {quote : Char} {found : Option Char}
    {opening text left characters after : List Char} (notQuote : '\\' ≠ quote)
    (escape : readEscape text = .ok (found, after))
    (read : readCharacters quote opening after = .ok (characters, left)) :
    readCharacters quote opening ('\\' :: text) = .ok (found.toList ++ characters, left) := by
  rw [readCharacters_backslash_eq notQuote escape, read]
  rfl

theorem readCharacters_escape {quote escaped : Char} {opening text left : List Char}
    {characters after : List Char} (notQuote : '\\' ≠ quote)
    (escape : readEscape text = .ok (some escaped, after))
    (read : readCharacters quote opening after = .ok (characters, left)) :
    readCharacters quote opening ('\\' :: text) = .ok (escaped :: characters, left) :=
  readCharacters_backslash notQuote escape read

/-- A character that needs no escape denotes itself in front of what the others denote. -/
theorem readCharacters_plain_eq {quote first : Char} (notBreak : ¬(first = '\n' ∨ first = '\r'))
    (notQuote : first ≠ quote) (notBackslash : first ≠ '\\') (opening text : List Char) :
    readCharacters quote opening (first :: text) =
      (readCharacters quote opening text).map fun read => (first :: read.1, read.2) := by
  rw [readCharacters.eq_def]
  dsimp only
  rw [if_neg notBreak, if_neg notQuote, if_neg notBackslash]
  rcases readCharacters quote opening text with fault | ⟨characters, left⟩
  · rfl
  · rfl

theorem readCharacters_plain {quote first : Char} {opening text left : List Char}
    {characters : List Char} (notBreak : ¬(first = '\n' ∨ first = '\r')) (notQuote : first ≠ quote)
    (notBackslash : first ≠ '\\')
    (read : readCharacters quote opening text = .ok (characters, left)) :
    readCharacters quote opening (first :: text) = .ok (first :: characters, left) := by
  rw [readCharacters_plain_eq notBreak notQuote notBackslash, read]
  rfl

/-- The written form of a character is read back as the character. -/
theorem readCharacters_escapeJson {opening text left characters : List Char} (character : Char)
    (read : readCharacters '"' opening text = .ok (characters, left)) :
    readCharacters '"' opening (escapeJson character ++ text) =
      .ok (character :: characters, left) := by
  have backslash : '\\' ≠ '"' := by decide
  unfold escapeJson
  split
  case h_1 => exact readCharacters_escape backslash rfl read
  case h_2 => exact readCharacters_escape backslash rfl read
  case h_3 => exact readCharacters_escape backslash rfl read
  case h_4 => exact readCharacters_escape backslash rfl read
  case h_5 => exact readCharacters_escape backslash rfl read
  case h_6 => exact readCharacters_escape backslash rfl read
  case h_7 => exact readCharacters_escape backslash rfl read
  case h_8 notQuote notBackslash notLineFeed notReturn _ _ _ =>
    split
    case isTrue control =>
      exact readCharacters_escape backslash (readEscape_control control text) read
    case isFalse =>
      exact readCharacters_plain (not_or.mpr ⟨notLineFeed, notReturn⟩) notQuote notBackslash read

/-- The written form of a string is read back up to its closing quote. -/
theorem readCharacters_flatMap_escapeJson (opening characters rest : List Char) :
    readCharacters '"' opening (characters.flatMap escapeJson ++ '"' :: rest) =
      .ok (characters, rest) := by
  induction characters with
  | nil =>
      rw [List.flatMap_nil, List.nil_append, readCharacters.eq_def]
      simp
  | cons character characters ih =>
      rw [List.flatMap_cons, List.append_assoc]
      exact readCharacters_escapeJson character ih

end Path

end Graft
