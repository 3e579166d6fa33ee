import Graft.Proofs.Path.Numerals
import Graft.Proofs.Path.RoundTrip
import Graft.Proofs.Path.Strings

/-!
# Path expressions are read by their grammar

A text is read as a path just if the grammar derives the path from it. In one direction each reader
leaves the text of a rule behind, in the other a text that a rule derives is read whole, for
whatever may follow a token cannot be taken for a part of it. So the grammar derives at most one
path from a text.
-/

namespace Graft.Path

open Grammar

theorem skipBlanks_append {before rest : List Char} (blanks : Blanks before)
    (stops : ∀ character ∈ rest.head?, isBlank character = false) :
    skipBlanks (before ++ rest) = rest :=
  (span_append blanks stops).2

theorem exists_blanks_append_skipBlanks (text : List Char) :
    ∃ before, Blanks before ∧ before ++ skipBlanks text = text :=
  ⟨text.takeWhile isBlank, span_spec isBlank text⟩

theorem not_isIdentifierPart_of_isBlank {character : Char} (blank : isBlank character) :
    isIdentifierPart character = false := by
  apply Bool.eq_false_iff.mpr
  intro part
  rw [not_isBlank_of_isIdentifierPart part] at blank
  cases blank

/-- What may follow blanks may also follow what they follow. -/
theorem Grammar.EndsIdentifier.append {blanks rest : List Char} (areBlanks : Blanks blanks)
    (ends : EndsIdentifier rest) : EndsIdentifier (blanks ++ rest) := by
  cases blanks with
  | nil => exact ends
  | cons first blanks =>
      intro character inside
      cases inside
      exact not_isIdentifierPart_of_isBlank (areBlanks _ List.mem_cons_self)

theorem literal_of_readLiteral {text rest : List Char} {key : String}
    (read : readLiteral text = .ok (key, rest)) :
    (∃ quote token denoted, (quote = '\'' ∨ quote = '"') ∧ Characters quote token denoted ∧
        String.ofList denoted = key ∧ quote :: (token ++ quote :: rest) = text) ∨
      ∃ token value, Numeral token value ∧ literalKey value = key ∧ EndsIdentifier rest ∧
        token ++ rest = text := by
  unfold readLiteral at read
  split at read
  case h_1 => cases read
  case h_2 first others =>
    split at read
    case isTrue isQuote =>
      split at read
      case h_1 => cases read
      case h_2 denoted after taken =>
        cases read
        rcases characters_of_readCharacters taken with ⟨token, characters, rfl⟩
        exact Or.inl ⟨first, token, denoted, isQuote, characters, rfl, rfl⟩
    case isFalse =>
      split at read
      case isTrue => exact Or.inr (numeral_of_readNumber read)
      case isFalse =>
        split at read
        case isTrue => cases read
        case isFalse => split at read <;> cases read

theorem closeBracket_eq_ok_iff {key found : String} {text rest : List Char} :
    closeBracket key text = .ok (found, rest) ↔ text = ']' :: rest ∧ key = found := by
  unfold closeBracket
  split
  case h_1 => simp
  case h_2 first others =>
    by_cases closing : first = ']'
    · simp [closing, and_comm]
    · simp only [closing, if_false, List.cons.injEq, false_and, iff_false]
      split <;> simp

theorem bracketed_of_readBracket {text rest : List Char} {key : String}
    (read : readBracket text = .ok (key, rest)) :
    ∃ token, Bracketed ('[' :: token) key ∧ token ++ rest = text := by
  rcases exists_blanks_append_skipBlanks text with ⟨before, blanksBefore, isText⟩
  unfold readBracket at read
  split at read
  case h_1 => cases read
  case h_2 found left taken =>
    rcases exists_blanks_append_skipBlanks left with ⟨after, blanksAfter, isLeft⟩
    rcases closeBracket_eq_ok_iff.mp read with ⟨closing, rfl⟩
    rw [closing] at isLeft
    subst isLeft
    rcases literal_of_readLiteral taken with
      ⟨quote, token, denoted, isQuote, characters, rfl, isToken⟩ |
      ⟨token, value, numeral, rfl, ends, isToken⟩
    · refine ⟨_, .string isQuote blanksBefore characters blanksAfter, ?_⟩
      rw [← isText, ← isToken]
      simp
    · have endsHere : EndsIdentifier (after ++ [']']) := by
        cases after <;> exact ends
      refine ⟨_, .number blanksBefore numeral blanksAfter endsHere, ?_⟩
      rw [← isText, ← isToken]
      simp

theorem Grammar.Numeral.exists_first {token : List Char} {value : Option Binary64}
    (numeral : Numeral token value) :
    ∃ first others, token = first :: others ∧ (first.isDigit ∨ first = '.') := by
  cases numeral with
  | decimal isDecimal =>
      cases isDecimal with
      | @whole whole _ _ nonempty wholeDigits =>
          rcases whole with _ | ⟨first, whole⟩
          · exact absurd rfl nonempty
          · exact ⟨first, _, rfl, Or.inl (wholeDigits first List.mem_cons_self)⟩
      | @point whole _ _ _ _ wholeDigits =>
          rcases whole with _ | ⟨first, whole⟩
          · exact ⟨'.', _, rfl, Or.inr rfl⟩
          · exact ⟨first, _, rfl, Or.inl (wholeDigits first List.mem_cons_self)⟩
  | radix => exact ⟨'0', _, rfl, Or.inl rfl⟩

theorem Grammar.Bracketed.readBracket {token : List Char} {key : String}
    (bracketed : Bracketed token key) (rest : List Char) :
    ∃ inner, token = '[' :: inner ∧ readBracket (inner ++ rest) = .ok (key, rest) := by
  have closing : ∀ {after}, Blanks after → skipBlanks (after ++ ']' :: rest) = ']' :: rest :=
    fun blanks => skipBlanks_append blanks (by simp; decide)
  cases bracketed with
  | @string before text after denoted quote isQuote blanksBefore characters blanksAfter =>
      have noBlank : isBlank quote = false := by rcases isQuote with rfl | rfl <;> decide
      have opening : skipBlanks (before ++ quote :: (text ++ quote :: (after ++ ']' :: rest))) =
          quote :: (text ++ quote :: (after ++ ']' :: rest)) :=
        skipBlanks_append blanksBefore (by simpa using noBlank)
      refine ⟨_, rfl, ?_⟩
      simp only [List.append_assoc, List.cons_append, List.nil_append, Path.readBracket, opening,
        readLiteral, isQuote, if_true, characters.readCharacters isQuote, closing blanksAfter]
      exact closeBracket_eq_ok_iff.mpr ⟨rfl, rfl⟩
  | @number before text after value blanksBefore numeral blanksAfter ends =>
      have noPart : EndsIdentifier (after ++ ']' :: rest) := by
        cases after <;> exact ends
      have noPoint : ∀ character ∈ (after ++ ']' :: rest).head?, character ≠ '.' := by
        rintro character inside rfl
        rcases after with _ | ⟨first, after⟩
        · cases inside
        · cases inside
          exact absurd (blanksAfter _ List.mem_cons_self) (by decide)
      have read := numeral.readNumber noPart noPoint
      rcases numeral.exists_first with ⟨first, others, rfl, isFirst⟩
      have noBlank : isBlank first = false := by
        rcases isFirst with isDigit | rfl
        · exact not_isBlank_of_isIdentifierPart (isIdentifierPart_of_isDigit isDigit)
        · decide
      have noQuote : ¬(first = '\'' ∨ first = '"') := by
        rintro (rfl | rfl) <;> revert isFirst <;> decide
      have opening : skipBlanks (before ++ (first :: others ++ (after ++ ']' :: rest))) =
          first :: others ++ (after ++ ']' :: rest) :=
        skipBlanks_append blanksBefore (by simpa using noBlank)
      refine ⟨_, rfl, ?_⟩
      simp only [List.append_assoc, List.cons_append, List.nil_append] at opening read ⊢
      simp only [Path.readBracket, opening, readLiteral, noQuote, isFirst, if_false, if_true, read,
        closing blanksAfter]
      exact closeBracket_eq_ok_iff.mpr ⟨rfl, rfl⟩

/-- A literal is read as a key, with any blanks around it and whatever follows its brackets. -/
def IsReadAs (literal : List Char) (key : String) : Prop :=
  ∀ before after rest, Blanks before → Blanks after →
    readBracket (before ++ (literal ++ (after ++ ']' :: rest))) = .ok (key, rest)

theorem Grammar.Numeral.isReadAs {literal : List Char} {value : Option Binary64}
    (numeral : Numeral literal value) : IsReadAs literal (literalKey value) := by
  intro before after rest blanksBefore blanksAfter
  have ends : EndsIdentifier (after ++ [']']) :=
    .append blanksAfter (by simp [EndsIdentifier]; decide)
  rcases (Bracketed.number blanksBefore numeral blanksAfter ends).readBracket rest with
    ⟨inner, isInner, read⟩
  cases isInner
  simpa using read

theorem Grammar.Characters.isReadAs {quote : Char} {text denoted : List Char}
    (characters : Characters quote text denoted) (isQuote : quote = '\'' ∨ quote = '"') :
    IsReadAs (quote :: (text ++ [quote])) (String.ofList denoted) := by
  intro before after rest blanksBefore blanksAfter
  rcases (Bracketed.string isQuote blanksBefore characters blanksAfter).readBracket rest with
    ⟨inner, isInner, read⟩
  cases isInner
  simpa using read

theorem name_of_readIdentifier {text rest : List Char} {key : String}
    (read : readIdentifier text = .ok (key, rest)) :
    ∃ name, isIdentifierName name ∧ String.ofList name = key ∧ name ++ rest = text := by
  unfold readIdentifier at read
  split at read
  case h_1 => cases read
  case h_2 first others =>
    split at read
    case isTrue start =>
      cases read
      refine ⟨first :: others.takeWhile isIdentifierPart, ?_, rfl, ?_⟩
      · simp [isIdentifierName, start, List.all_takeWhile]
      · rw [List.cons_append, List.takeWhile_append_dropWhile]
    case isFalse => cases read

theorem exists_first_of_isIdentifierName {name : List Char} (isName : isIdentifierName name) :
    ∃ first others, name = first :: others ∧ isIdentifierPart first := by
  rcases name with _ | ⟨first, others⟩
  · cases isName
  · simp only [isIdentifierName, Bool.and_eq_true] at isName
    exact ⟨first, others, rfl, isIdentifierPart_of_isIdentifierStart isName.1⟩

theorem root_of_readRoot {text rest : List Char} {key : String}
    (read : readRoot text = .ok (key, rest)) :
    ∃ token, Root token key ∧ token ++ rest = text := by
  unfold readRoot at read
  split at read
  case h_1 others =>
    rcases bracketed_of_readBracket read with ⟨token, bracketed, rfl⟩
    exact ⟨_, .bracketed bracketed, rfl⟩
  case h_2 =>
    split at read
    case h_1 => cases read
    case h_2 name after taken =>
      split at read
      case isTrue => cases read
      case isFalse free =>
        cases read
        rcases name_of_readIdentifier taken with ⟨name, isName, rfl, isText⟩
        exact ⟨name, .identifier isName (by simpa using free), isText⟩

/-- The first key is read whole, and begins with no blank. -/
theorem Grammar.Root.readRoot {token rest : List Char} {key : String} (root : Root token key)
    (ends : EndsIdentifier rest) :
    ∃ first inner, token = first :: inner ∧ isBlank first = false ∧
      readRoot (first :: (inner ++ rest)) = .ok (key, rest) := by
  cases root with
  | identifier isName free =>
      have read := readIdentifier_append isName ends
      rcases exists_first_of_isIdentifierName isName with ⟨first, others, rfl, part⟩
      have noBracket : first ≠ '[' := by
        rintro rfl
        rw [not_isIdentifierPart_of_mem_punctuation _ (by simp)] at part
        cases part
      refine ⟨first, others, rfl, not_isBlank_of_isIdentifierPart part, ?_⟩
      rw [Path.readRoot.eq_def]
      split
      case h_1 same => exact absurd (List.cons.inj same).1 noBracket
      case h_2 =>
        rw [List.cons_append] at read
        rw [read]
        simp only [free, Bool.false_eq_true, if_false]
  | bracketed isBracketed =>
      rcases isBracketed.readBracket rest with ⟨inner, rfl, read⟩
      exact ⟨'[', inner, rfl, by decide, read⟩

theorem accessor_of_readAccessor {first : Char} {rest after : List Char} {key : String}
    (read : readAccessor first rest = .ok (key, after)) :
    ∃ token, Accessor token key ∧ token ++ after = first :: rest := by
  unfold readAccessor at read
  split at read
  case isTrue isDot =>
    rcases exists_blanks_append_skipBlanks rest with ⟨between, blanks, isRest⟩
    rcases name_of_readIdentifier read with ⟨name, isName, rfl, isName'⟩
    refine ⟨_, .dotted blanks isName, ?_⟩
    rw [isDot, List.cons_append, List.append_assoc, isName', isRest]
  case isFalse =>
    split at read
    case isTrue isBracket =>
      rcases bracketed_of_readBracket read with ⟨token, bracketed, rfl⟩
      exact ⟨_, .bracketed bracketed, by rw [isBracket]; rfl⟩
    case isFalse => cases read

/-- A further key is read whole, and begins with a dot or a bracket. -/
theorem Grammar.Accessor.readAccessor {token rest : List Char} {key : String}
    (accessor : Accessor token key) (ends : EndsIdentifier rest) :
    ∃ first inner, token = first :: inner ∧ (first = '.' ∨ first = '[') ∧
      readAccessor first (inner ++ rest) = .ok (key, rest) := by
  cases accessor with
  | @dotted between name blanks isName =>
      have noBlank : ∀ character ∈ (name ++ rest).head?, isBlank character = false := by
        rcases exists_first_of_isIdentifierName isName with ⟨first, others, rfl, part⟩
        simpa using not_isBlank_of_isIdentifierPart part
      refine ⟨'.', _, rfl, Or.inl rfl, ?_⟩
      simp only [Path.readAccessor, if_true, List.append_assoc, skipBlanks_append blanks noBlank]
      exact readIdentifier_append isName ends
  | bracketed isBracketed =>
      rcases isBracketed.readBracket rest with ⟨inner, rfl, read⟩
      exact ⟨'[', inner, rfl, Or.inr rfl, by simpa [Path.readAccessor] using read⟩

theorem accessors_of_readAccessors {text : List Char} {keys : KeyPath}
    (read : readAccessors text = .ok keys) : Accessors text keys := by
  fun_induction readAccessors text generalizing keys with
  | case1 text trimmed =>
      cases read
      rcases exists_blanks_append_skipBlanks text with ⟨before, blanks, isText⟩
      rw [trimmed, List.append_nil] at isText
      rw [← isText]
      exact .nil blanks
  | case2 => cases read
  | case3 => cases read
  | case4 text first rest trimmed key after taken keys others ih =>
      cases read
      rcases exists_blanks_append_skipBlanks text with ⟨before, blanks, isText⟩
      rcases accessor_of_readAccessor taken with ⟨token, accessor, isToken⟩
      rw [trimmed, ← isToken] at isText
      rw [← isText]
      exact .cons blanks accessor (ih others)

theorem readAccessors_append {before token rest : List Char} {key : String} {keys : KeyPath}
    (blanks : Blanks before) (accessor : Accessor token key) (ends : EndsIdentifier rest)
    (others : readAccessors rest = .ok keys) :
    readAccessors (before ++ (token ++ rest)) = .ok (key :: keys) ∧
      EndsIdentifier (before ++ (token ++ rest)) := by
  rcases accessor.readAccessor ends with ⟨first, inner, rfl, isFirst, read⟩
  have noBlank : isBlank first = false := by rcases isFirst with rfl | rfl <;> decide
  have noPart : isIdentifierPart first = false := by
    apply not_isIdentifierPart_of_mem_punctuation
    rcases isFirst with rfl | rfl <;> simp
  have trimmed : skipBlanks (before ++ (first :: (inner ++ rest))) = first :: (inner ++ rest) :=
    skipBlanks_append blanks (by simpa using noBlank)
  rw [List.cons_append]
  constructor
  · rw [readAccessors.eq_def]
    split
    case h_1 nothing =>
      rw [trimmed] at nothing
      cases nothing
    case h_2 found left isTrimmed =>
      rw [trimmed] at isTrimmed
      cases isTrimmed
      split
      case h_1 failed =>
        rw [read] at failed
        cases failed
      case h_2 taken =>
        rw [read] at taken
        cases taken
        rw [others]
  · apply EndsIdentifier.append blanks
    simpa [EndsIdentifier] using noPart

/-- Further keys are read to the end of the text, and no identifier goes on into them. -/
theorem Grammar.Accessors.readAccessors {text : List Char} {keys : KeyPath}
    (accessors : Accessors text keys) :
    readAccessors text = .ok keys ∧ EndsIdentifier text := by
  induction accessors with
  | @nil blanks areBlanks =>
      have trimmed : skipBlanks (blanks ++ []) = [] := skipBlanks_append areBlanks (by simp)
      have ends : EndsIdentifier (blanks ++ []) := .append areBlanks (by simp [EndsIdentifier])
      rw [List.append_nil] at trimmed ends
      refine ⟨?_, ends⟩
      rw [Path.readAccessors.eq_def]
      split
      case h_1 => rfl
      case h_2 found left isTrimmed =>
        rw [trimmed] at isTrimmed
        cases isTrimmed
  | cons blanks accessor _ ih => exact readAccessors_append blanks accessor ih.2 ih.1

theorem readKeys_eq_ok_iff {text : List Char} {path : KeyPath} :
    readKeys text = .ok path ↔ Expression text path := by
  constructor
  · intro read
    rcases exists_blanks_append_skipBlanks text with ⟨before, blanks, isText⟩
    unfold readKeys at read
    split at read
    case h_1 => cases read
    case h_2 root rest taken =>
      split at read
      case h_1 => cases read
      case h_2 keys others =>
        cases read
        rcases root_of_readRoot taken with ⟨token, isRoot, isToken⟩
        rw [← isToken] at isText
        rw [← isText]
        exact .intro blanks isRoot (accessors_of_readAccessors others)
  · rintro ⟨blanks, root, others⟩
    rcases others.readAccessors with ⟨readOthers, ends⟩
    rcases root.readRoot ends with ⟨first, inner, rfl, noBlank, readRoot⟩
    rw [readKeys, skipBlanks_append blanks (by simpa using noBlank), List.cons_append, readRoot]
    simp only [readOthers]

/-- A text from which a path is derived holds more than white space. -/
theorem Grammar.Expression.not_all_isWhiteSpace {text : List Char} {path : KeyPath}
    (derived : Expression text path) : text.all Unicode.isWhiteSpace = false := by
  rcases derived with ⟨_, root, others⟩
  rcases root.readRoot others.readAccessors.2 with ⟨first, inner, rfl, noBlank, _⟩
  have visible : Unicode.isWhiteSpace first = false := by
    simp only [isBlank, Bool.or_eq_false_iff] at noBlank
    exact noBlank.1
  simp [visible]

end Graft.Path

namespace Graft.KeyPath

open Graft.Path Grammar

/-- A text is read as a path just if the grammar derives the path from the text; the grammar derives
at most one path from a text; and a text is refused as blank just if it holds nothing but white
space. -/
theorem ofExpression_accepts_grammar :
    (∀ (text : String) (path : KeyPath),
        ofExpression text = .ok path ↔ Expression text.toList path) ∧
      (∀ (text : List Char) (left right : KeyPath),
        Expression text left → Expression text right → left = right) ∧
      ∀ text : String, ofExpression text = .error .blank ↔
        ∀ character ∈ text.toList, Unicode.isWhiteSpace character := by
  refine ⟨?_, ?_, ?_⟩
  · intro text path
    constructor
    · intro read
      apply readKeys_eq_ok_iff.mp
      simp only [ofExpression] at read
      split at read
      case isTrue => cases read
      case isFalse =>
        split at read
        case h_1 keys taken =>
          cases read
          exact taken
        case h_2 => cases read
    · intro derived
      simp only [ofExpression, derived.not_all_isWhiteSpace, readKeys_eq_ok_iff.mpr derived,
        Bool.false_eq_true, if_false]
  · intro text left right isLeft isRight
    have same := (readKeys_eq_ok_iff.mpr isLeft).symm.trans (readKeys_eq_ok_iff.mpr isRight)
    exact Except.ok.inj same
  · intro text
    rw [← List.all_eq_true]
    simp only [ofExpression]
    split
    case isTrue blank => simp [blank]
    case isFalse visible =>
      split <;> simp [visible]

/-- A byte order mark, a string with an escape, a reserved word after a dot, and a numeral with a
point and an exponent: the only path that the grammar derives here is the one that is read. -/
theorem ofExpression_mixedTokens :
    ofExpression "\ufeff['\\x41b' ]. if[.5e1]" = .ok ["Ab", "if", "5"] ∧
      ∀ path, Expression "\ufeff['\\x41b' ]. if[.5e1]".toList path → path = ["Ab", "if", "5"] := by
  have letter : Characters '\'' ['b'] ['b'] := .plain (by decide) (by decide) (by decide) .nil
  have byte : Escape ['x', '4', '1'] (some 'A') := .byte rfl (by simp [IsDigit]; decide)
  have characters : Characters '\'' ['\\', 'x', '4', '1', 'b'] ['A', 'b'] :=
    .escape byte (by simp) letter
  have string : Bracketed ['[', '\'', '\\', 'x', '4', '1', 'b', '\'', ' ', ']'] "Ab" :=
    @Bracketed.string [] _ [' '] _ _ (Or.inl rfl) (by simp [Blanks]) characters
      (by simp [Blanks]; decide)
  have exponent : Exponent ['e', '1'] 1 :=
    @Exponent.positive _ [] _ (Or.inl rfl) (Or.inl rfl) (by simp) (by simp [Digits])
  have decimal : Numeral ['.', '5', 'e', '1'] (DecimalLiteral.toBinary64? false ⟨[], ['5'], 1⟩) :=
    .decimal (@DecimalNumeral.point [] ['5'] _ _ (by simp) (by simp [Digits])
      (by simp [NoLeadingZero]) (by simp [Digits]) exponent)
  have isFive : literalKey (DecimalLiteral.toBinary64? false ⟨[], ['5'], 1⟩) = "5" := by
    decide +kernel
  have number := @Bracketed.number [] _ [] _ (by simp [Blanks]) decimal (by simp [Blanks])
    (by simp [EndsIdentifier]; decide)
  rw [isFive] at number
  have name : Accessor ['.', ' ', 'i', 'f'] "if" :=
    @Accessor.dotted [' '] ['i', 'f'] (by simp [Blanks]; decide) (by decide)
  have lastKey : Accessors ['[', '.', '5', 'e', '1', ']'] ["5"] :=
    @Accessors.cons [] _ [] _ _ (by simp [Blanks]) (.bracketed number) (.nil (by simp [Blanks]))
  have furtherKeys : Accessors ['.', ' ', 'i', 'f', '[', '.', '5', 'e', '1', ']'] ["if", "5"] :=
    @Accessors.cons [] _ _ _ _ (by simp [Blanks]) name lastKey
  have derived : Expression "\ufeff['\\x41b' ]. if[.5e1]".toList ["Ab", "if", "5"] :=
    @Expression.intro ['\ufeff'] _ _ _ _ (by simp [Blanks]; decide) (.bracketed string) furtherKeys
  refine ⟨(ofExpression_accepts_grammar.1 _ _).mpr derived, ?_⟩
  intro path other
  exact ofExpression_accepts_grammar.2.1 _ _ _ other derived

end Graft.KeyPath
