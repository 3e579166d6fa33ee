import Graft.Path.Printer
import Graft.Path.Reader
import Graft.Proofs.Numeric.Whole
import Graft.Proofs.Path.Characters
import Graft.Proofs.Path.Position
import Graft.Proofs.Path.Quoted

/-!
# The written form of a path reads back

Each of the three notations of a key is read back by the branch of the reader that its first
character selects, and leaves the text from the next key on. So a written path is read key by key,
and no two paths have the same written form.
-/

namespace Graft

namespace Path

/-- The text is at its end or goes on with another key. -/
def StartsKey (text : List Char) : Prop :=
  ∀ character ∈ text.head?, character = '.' ∨ character = '['

theorem skipBlanks_cons_of_isIdentifierPart {first : Char} (part : isIdentifierPart first)
    (rest : List Char) : skipBlanks (first :: rest) = first :: rest := by
  simp [skipBlanks, not_isBlank_of_isIdentifierPart part]

theorem StartsKey.not_part {text : List Char} (starts : StartsKey text) :
    ∀ character ∈ text.head?, isIdentifierPart character = false := by
  intro character inside
  apply not_isIdentifierPart_of_mem_punctuation
  rcases starts character inside with rfl | rfl <;> simp

/-- A name is read whole if the text does not go on with a character that may stand inside one. -/
theorem readIdentifier_append {name rest : List Char} (isName : isIdentifierName name)
    (stops : ∀ character ∈ rest.head?, isIdentifierPart character = false) :
    readIdentifier (name ++ rest) = .ok (String.ofList name, rest) := by
  cases name with
  | nil => cases isName
  | cons first others =>
      simp only [isIdentifierName, Bool.and_eq_true, List.all_eq_true] at isName
      rcases isName with ⟨start, parts⟩
      rcases span_append parts stops with ⟨taken, dropped⟩
      simp [readIdentifier, start, taken, dropped]

/-- A literal that reads as a key is that key in brackets. -/
theorem readBracket_of_readLiteral {literal rest : List Char} {key : String}
    (noBlank : skipBlanks (literal ++ ']' :: rest) = literal ++ ']' :: rest)
    (read : readLiteral (literal ++ ']' :: rest) = .ok (key, ']' :: rest)) :
    readBracket (literal ++ ']' :: rest) = .ok (key, rest) := by
  have closing : skipBlanks (']' :: rest) = ']' :: rest := by
    simp [skipBlanks, (by decide : isBlank ']' = false)]
  simp [readBracket, noBlank, read, closing, closeBracket]

theorem readBracket_quoteJson (key : String) (rest : List Char) :
    readBracket (Text.quoteJson key.toList ++ ']' :: rest) = .ok (key, rest) := by
  apply readBracket_of_readLiteral
  · simp [Text.quoteJson, skipBlanks, (by decide : isBlank '"' = false)]
  · have characters := readCharacters_flatMap_escapeJson
      (Text.quoteJson key.toList ++ ']' :: rest) key.toList (']' :: rest)
    simp only [Text.quoteJson, List.cons_append, List.append_assoc, List.nil_append] at characters ⊢
    simp [readLiteral, characters]

theorem readNumberValue_of_canonical {digits : List Char} (canonical : isCanonicalDecimal digits)
    (rest : List Char) :
    readNumberValue (digits ++ ']' :: rest) =
      .ok (DecimalLiteral.toBinary64? false ⟨digits, [], 0⟩, ']' :: rest) := by
  have allDigits : ∀ digit ∈ digits, digit.isDigit := by
    intro digit inside
    rw [← toDigits_ofDigitChars_of_canonical canonical] at inside
    exact Nat.isDigit_of_mem_toDigits (by decide) (by decide) inside
  have whole : spanDigits (digits ++ ']' :: rest) = (digits, ']' :: rest) := by
    simp [spanDigits, List.takeWhile_append_of_pos allDigits,
      List.dropWhile_append_of_pos allDigits]
  have noOctal : ¬(1 < digits.length ∧ digits.head? = some '0') := by
    rintro ⟨long, zero⟩
    rcases digits with _ | ⟨first, _ | ⟨second, others⟩⟩
    · cases zero
    · simp only [List.length_singleton, Nat.lt_irrefl] at long
    · cases zero
      simp [isCanonicalDecimal] at canonical
  have nonempty : digits ≠ [] := by
    rintro rfl
    cases canonical
  have decimal : readDecimal (digits ++ ']' :: rest) =
      .ok (DecimalLiteral.toBinary64? false ⟨digits, [], 0⟩, ']' :: rest) := by
    simp [readDecimal, whole, spanFraction, noOctal, nonempty, readExponent]
  rw [readNumberValue.eq_def]
  split
  case h_1 mark others isZero =>
    have unmarked : radixOfMark? mark = none := by
      rcases digits with _ | ⟨first, _ | ⟨second, digits⟩⟩
      · exact absurd rfl nonempty
      · cases isZero
        rfl
      · cases isZero
        exact absurd ⟨by simp, rfl⟩ noOctal
    rw [unmarked]
    exact decimal
  case h_2 => exact decimal

theorem readBracket_position {key : String} {position : Nat}
    (spelled : arrayIndex? key = some position) (exactly : position < exactPositions)
    (rest : List Char) : readBracket (key.toList ++ ']' :: rest) = .ok (key, rest) := by
  rcases arrayIndex?_eq_some_iff.mp spelled with ⟨_, rfl⟩
  rw [Nat.toString_eq_repr, Nat.toList_repr]
  have canonical := isCanonicalDecimal_toDigits position
  have value := Nat.ofDigitChars_ten_toDigits (n := position)
  generalize Nat.toDigits 10 position = digits at canonical value
  have key_eq : literalKey (DecimalLiteral.toBinary64? false ⟨digits, [], 0⟩) = position.repr := by
    rw [literalKey_whole (by rw [value]; exact exactly), value, Nat.repr_eq_ofList_toDigits]
  have number : readNumber (digits ++ ']' :: rest) = .ok (position.repr, ']' :: rest) := by
    have ends : isIdentifierPart ']' = false :=
      not_isIdentifierPart_of_mem_punctuation _ (by simp)
    simp [readNumber, readNumberValue_of_canonical canonical, key_eq, ends]
  cases digits with
  | nil => cases canonical
  | cons first others =>
      have digit : first.isDigit := by
        cases others with
        | nil => exact canonical
        | cons second others =>
            simp only [isCanonicalDecimal, Bool.and_eq_true] at canonical
            exact canonical.1.1
      apply readBracket_of_readLiteral
      · exact skipBlanks_cons_of_isIdentifierPart (isIdentifierPart_of_isDigit digit) _
      · have noQuote : ¬(first = '\'' ∨ first = '"') := by
          rintro (rfl | rfl) <;> revert digit <;> decide
        rw [List.cons_append] at number ⊢
        rw [readLiteral.eq_def]
        simp only [noQuote, digit, true_or, if_false, if_true, number]

theorem readBracket_writeKey (root : Bool) {key : String}
    (bracketed : (isIdentifierName key.toList && !(root && isReservedWord key)) = false)
    (rest : List Char) :
    ∃ text, writeKey root key ++ rest = '[' :: text ∧ readBracket text = .ok (key, rest) := by
  simp only [writeKey, bracketed, Bool.false_eq_true, if_false]
  split
  case isTrue exactly =>
    rcases spelled : arrayIndex? key with _ | position
    · rw [spelled] at exactly
      cases exactly
    · rw [spelled] at exactly
      simp only [Option.any_some, decide_eq_true_eq] at exactly
      refine ⟨key.toList ++ ']' :: rest, by simp, ?_⟩
      exact readBracket_position spelled exactly rest
  case isFalse =>
    exact ⟨Text.quoteJson key.toList ++ ']' :: rest, by simp, readBracket_quoteJson key rest⟩

/-- A key after the first reads back up to the next key. -/
theorem readAccessor_writeKey (key : String) {rest : List Char} (starts : StartsKey rest) :
    ∃ first text, writeKey false key ++ rest = first :: text ∧ (first = '.' ∨ first = '[') ∧
      readAccessor first text = .ok (key, rest) := by
  rcases isName : isIdentifierName key.toList with _ | _
  · have bracketed : (isIdentifierName key.toList && !(false && isReservedWord key)) = false := by
      simp [isName]
    rcases readBracket_writeKey false bracketed rest with ⟨text, written, read⟩
    exact ⟨'[', text, written, Or.inr rfl, by simp [readAccessor, read]⟩
  · refine ⟨'.', key.toList ++ rest, by simp [writeKey, isName], Or.inl rfl, ?_⟩
    have noBlank : skipBlanks (key.toList ++ rest) = key.toList ++ rest := by
      rcases characters : key.toList with _ | ⟨first, others⟩
      · rw [characters] at isName
        cases isName
      · rw [characters] at isName
        simp only [isIdentifierName, Bool.and_eq_true] at isName
        exact skipBlanks_cons_of_isIdentifierPart
          (isIdentifierPart_of_isIdentifierStart isName.1) _
    simp [readAccessor, noBlank, readIdentifier_append isName starts.not_part, String.ofList_toList]

/-- The first key reads back up to the next key, and its written form begins with no blank. -/
theorem readRoot_writeKey (key : String) {rest : List Char} (starts : StartsKey rest) :
    ∃ first text, writeKey true key ++ rest = first :: text ∧ isBlank first = false ∧
      readRoot (first :: text) = .ok (key, rest) := by
  rcases bare : (isIdentifierName key.toList && !(true && isReservedWord key)) with _ | _
  · rcases readBracket_writeKey true bare rest with ⟨text, written, read⟩
    exact ⟨'[', text, written, by decide, by simpa [readRoot] using read⟩
  · have written : writeKey true key ++ rest = key.toList ++ rest := by
      simp only [writeKey, bare, if_true]
    simp only [Bool.true_and, Bool.and_eq_true, Bool.not_eq_true'] at bare
    rcases bare with ⟨isName, free⟩
    have read := readIdentifier_append isName starts.not_part
    rw [written]
    rcases characters : key.toList with _ | ⟨first, others⟩
    · rw [characters] at isName
      cases isName
    · rw [characters] at isName read
      simp only [isIdentifierName, Bool.and_eq_true] at isName
      have part := isIdentifierPart_of_isIdentifierStart isName.1
      have noBracket : first ≠ '[' := by
        rintro rfl
        rw [not_isIdentifierPart_of_mem_punctuation _ (by simp)] at part
        cases part
      refine ⟨first, others ++ rest, rfl, not_isBlank_of_isIdentifierPart part, ?_⟩
      rw [List.cons_append] at read
      have key_eq : String.ofList (first :: others) = key := by
        rw [← characters, String.ofList_toList]
      rw [readRoot.eq_def]
      split
      case h_1 isBracket =>
        cases isBracket
        exact absurd rfl noBracket
      case h_2 =>
        rw [read]
        simp [key_eq, free]

theorem startsKey_flatMap_writeKey (keys : KeyPath) :
    StartsKey (keys.flatMap (writeKey false)) := by
  cases keys with
  | nil => simp [StartsKey]
  | cons key keys =>
      intro character inside
      rw [List.flatMap_cons] at inside
      have nothing : StartsKey [] := by simp [StartsKey]
      rcases readAccessor_writeKey key nothing with ⟨first, text, written, start, _⟩
      rw [List.append_nil] at written
      rw [written] at inside
      cases inside
      exact start

theorem readAccessors_flatMap_writeKey (keys : KeyPath) :
    readAccessors (keys.flatMap (writeKey false)) = .ok keys := by
  induction keys with
  | nil =>
      rw [readAccessors.eq_def]
      rfl
  | cons key keys ih =>
      rcases readAccessor_writeKey key (startsKey_flatMap_writeKey keys) with
        ⟨first, text, written, start, read⟩
      have noBlank : skipBlanks (first :: text) = first :: text := by
        have unblank : isBlank first = false := by
          rcases start with rfl | rfl <;> decide
        simp [skipBlanks, unblank]
      rw [List.flatMap_cons, written, readAccessors.eq_def]
      split
      case h_1 nothing =>
        rw [noBlank] at nothing
        cases nothing
      case h_2 taken others isTaken =>
        rw [noBlank] at isTaken
        cases isTaken
        split
        case h_1 fault failed =>
          rw [read] at failed
          cases failed
        case h_2 found after isRead =>
          rw [read] at isRead
          cases isRead
          rw [ih]

end Path

namespace KeyPath

open Graft.Path

theorem ofExpression_cons (root : String) (keys : KeyPath) :
    ofExpression (expression (root :: keys)) = .ok (root :: keys) := by
  rcases readRoot_writeKey root (startsKey_flatMap_writeKey keys) with
    ⟨first, text, written, unblank, read⟩
  have visible : Unicode.isWhiteSpace first = false := by
    simp only [isBlank, Bool.or_eq_false_iff] at unblank
    exact unblank.1
  have noBlank : skipBlanks (first :: text) = first :: text := by
    simp [skipBlanks, unblank]
  simp [ofExpression, expression, writeKeys, written, visible, readKeys, noBlank, read,
    readAccessors_flatMap_writeKey]

theorem ne_nil_of_ofExpression {text : String} {path : KeyPath}
    (read : ofExpression text = .ok path) : path ≠ [] := by
  rintro rfl
  simp only [ofExpression, readKeys] at read
  grind

/-- Every non-empty path is what its written form reads as. So different paths have different
written forms, and a path that was read reads again from its own written form. -/
theorem expression_roundTrip :
    (∀ path : KeyPath, path ≠ [] → ofExpression path.expression = .ok path) ∧
      Function.Injective expression ∧
      ∀ (text : String) (path : KeyPath), ofExpression text = .ok path →
        ofExpression path.expression = .ok path := by
  have readsBack : ∀ path : KeyPath, path ≠ [] → ofExpression path.expression = .ok path := by
    rintro (_ | ⟨root, keys⟩) nonempty
    · exact absurd rfl nonempty
    · exact ofExpression_cons root keys
  refine ⟨readsBack, ?_, ?_⟩
  · intro left right same
    have empty : ∀ path : KeyPath, path ≠ [] → expression path ≠ expression [] := by
      intro path nonempty same
      have read := readsBack path nonempty
      rw [same] at read
      cases read
    by_cases leftEmpty : left = [] <;> by_cases rightEmpty : right = []
    · rw [leftEmpty, rightEmpty]
    · rw [leftEmpty] at same
      exact absurd same.symm (empty right rightEmpty)
    · rw [rightEmpty] at same
      exact absurd same (empty left leftEmpty)
    · have read := readsBack left leftEmpty
      rw [same, readsBack right rightEmpty] at read
      exact (Except.ok.inj read).symm
  · intro text path read
    exact readsBack path (ne_nil_of_ofExpression read)

/-- A path that mixes the notations: a reserved word, an empty key, a key with a blank, a position
no double holds, escapes, and a bare position. -/
theorem ofExpression_expression_mixed :
    ["if", "", "a b", "9007199254740993", "\"\\\n\x00\u2028", "12"] ≠ [] ∧
      ofExpression
          (expression ["if", "", "a b", "9007199254740993", "\"\\\n\x00\u2028", "12"]) =
        .ok ["if", "", "a b", "9007199254740993", "\"\\\n\x00\u2028", "12"] :=
  ⟨by simp, expression_roundTrip.1 _ (by simp)⟩

end KeyPath

end Graft
