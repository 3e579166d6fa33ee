import Graft.Path.Lexical

/-!
# Identifiers, blanks and punctuation

The characters of identifiers are neither blanks nor the punctuation of path expressions, so that a
token is recognised by its first character and an identifier ends where the next token begins.
-/

namespace Graft

namespace Unicode

/-- The code points that a table covers, one by one. -/
def codePoints (ranges : List (Nat × Nat)) : List Nat :=
  ranges.flatMap fun range => List.range' range.1 (range.2 + 1 - range.1)

theorem mem_codePoints_of_inRanges {ranges : List (Nat × Nat)} {codePoint : Nat}
    (found : inRanges ranges codePoint) : codePoint ∈ codePoints ranges := by
  rcases exists_range_of_inRanges found with ⟨range, isRange, lower, upper⟩
  simp only [codePoints, List.mem_flatMap, List.mem_range'_1]
  exact ⟨range, isRange, lower, by omega⟩

/-- No code point of white space is one of letters or of numbers. -/
theorem not_letter_of_mem_whiteSpace :
    ∀ codePoint ∈ codePoints whiteSpaceRanges,
      inRanges alphabeticRanges codePoint = false ∧ inRanges numericRanges codePoint = false := by
  decide +kernel

end Unicode

namespace Path

/-- A run that is cut off where it stops is the whole run. -/
theorem span_append {found : Char → Bool} {run rest : List Char}
    (inside : ∀ character ∈ run, found character)
    (stops : ∀ character ∈ rest.head?, found character = false) :
    (run ++ rest).takeWhile found = run ∧ (run ++ rest).dropWhile found = rest := by
  rw [List.takeWhile_append_of_pos inside, List.dropWhile_append_of_pos inside]
  cases rest with
  | nil => simp
  | cons first rest => simp [stops first rfl]

/-- A run and what stops it make up the text. -/
theorem span_spec (found : Char → Bool) (text : List Char) :
    (∀ character ∈ text.takeWhile found, found character) ∧
      text.takeWhile found ++ text.dropWhile found = text :=
  ⟨fun _ inside => List.all_eq_true.mp List.all_takeWhile _ inside, List.takeWhile_append_dropWhile⟩

theorem isIdentifierPart_of_isIdentifierStart {character : Char}
    (start : isIdentifierStart character) : isIdentifierPart character := by
  simp [isIdentifierPart, start]

theorem not_isIdentifierPart_of_isWhiteSpace {character : Char}
    (space : Unicode.isWhiteSpace character) : isIdentifierPart character = false := by
  have covered := Unicode.mem_codePoints_of_inRanges space
  rcases Unicode.not_letter_of_mem_whiteSpace _ covered with ⟨noLetter, noNumber⟩
  have punctuation : ∀ other : Char, Unicode.isWhiteSpace other = false → character ≠ other := by
    rintro other noSpace rfl
    rw [space] at noSpace
    cases noSpace
  simp [isIdentifierPart, isIdentifierStart, Unicode.isAlphabetic, Unicode.isNumeric, noLetter,
    noNumber, punctuation '_' (by decide), punctuation '$' (by decide),
    punctuation '\u200c' (by decide), punctuation '\u200d' (by decide)]

theorem not_isBlank_of_isIdentifierPart {character : Char} (part : isIdentifierPart character) :
    isBlank character = false := by
  have noMark : character ≠ '\ufeff' := by
    rintro rfl
    revert part
    decide +kernel
  have noSpace : Unicode.isWhiteSpace character = false := by
    apply Bool.eq_false_iff.mpr
    intro space
    rw [not_isIdentifierPart_of_isWhiteSpace space] at part
    cases part
  simp [isBlank, noMark, noSpace]

theorem not_isIdentifierPart_of_mem_punctuation :
    ∀ character ∈ ['.', '[', ']', '\'', '"'], isIdentifierPart character = false := by
  intro character inside
  simp only [List.mem_cons, List.not_mem_nil, or_false] at inside
  rcases inside with rfl | rfl | rfl | rfl | rfl
  all_goals rfl

theorem isIdentifierPart_of_isDigit {digit : Char} (isDigit : digit.isDigit) :
    isIdentifierPart digit := by
  have bounds : 48 ≤ digit.toNat ∧ digit.toNat ≤ 57 := by
    simpa [Char.isDigit, UInt32.le_iff_toNat_le] using isDigit
  have lower : ¬digit.toNat < 48 := by omega
  have numeric : Unicode.isNumeric digit := by
    simp [Unicode.isNumeric, Unicode.numericRanges, Unicode.inRanges, lower, bounds.2]
  simp [isIdentifierPart, numeric]

end Path

end Graft
