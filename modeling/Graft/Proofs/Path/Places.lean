import Graft.Path.Reader
import Mathlib.Logic.Relation

/-!
# Places in a path expression

Reading moves through an expression one character after the other. A place records what has been
read, what is left, and a position, which moves on by the bytes of every character that is read. So
at every place what was read and what is left make up the expression, and the position is the length
of what was read.

Every reader moves on from the place where it begins, whether it gives a value or a fault. The
position of a malformed expression is therefore a boundary between two characters of its UTF-8 form,
and the caret stands below the character there.
-/

namespace Graft.Path

theorem byteLength_cons (character : Char) (text : List Char) :
    byteLength (character :: text) = character.utf8Size + byteLength text := by
  have from_start (start : Nat) (text : List Char) :
      text.foldl (fun length character => length + character.utf8Size) start =
        start + byteLength text := by
    induction text generalizing start with
    | nil => rfl
    | cons first rest ih =>
        rw [byteLength, List.foldl_cons, List.foldl_cons, ih, ih (0 + first.utf8Size)]
        omega
  rw [byteLength, List.foldl_cons, from_start, Nat.zero_add]

theorem byteLength_singleton (character : Char) : byteLength [character] = character.utf8Size :=
  byteLength_cons character []

theorem byteLength_append (first second : List Char) :
    byteLength (first ++ second) = byteLength first + byteLength second := by
  induction first with
  | nil => exact (Nat.zero_add _).symm
  | cons character first ih =>
      rw [List.cons_append, byteLength_cons, byteLength_cons, ih, Nat.add_assoc]

theorem byteLength_toList (text : String) : byteLength text.toList = text.utf8ByteSize := by
  have ofList (characters : List Char) :
      byteLength characters = (String.ofList characters).utf8ByteSize := by
    induction characters with
    | nil => rfl
    | cons character rest ih =>
        rw [byteLength_cons, ih, String.ofList_cons, String.utf8ByteSize_append,
          String.utf8ByteSize_singleton]
  rw [ofList, String.ofList_toList]

/-- A position after whole characters has as many characters before it as were counted. -/
theorem charactersBefore_byteLength (before rest : List Char) :
    PathError.charactersBefore (byteLength before) (before ++ rest) = before.length := by
  induction before with
  | nil => simp [byteLength, PathError.charactersBefore]
  | cons character before ih =>
      have positive := character.utf8Size_pos
      rcases width : byteLength (character :: before) with _ | position
      · rw [byteLength_cons] at width
        omega
      · rw [byteLength_cons] at width
        have moved : position + 1 - character.utf8Size = byteLength before := by omega
        rw [List.cons_append, PathError.charactersBefore, moved, ih, List.length_cons]

/-- A place in a text: what was read before it, what is left from it on, and how far it is from the
front. -/
structure Place where
  before : List Char
  rest : List Char
  position : Nat

namespace Place

/-- The place at the front of a text. -/
def front (text : List Char) : Place := ⟨[], text, 0⟩

/-- From one place to the next by one character, and by its length in bytes. -/
inductive Next : Place → Place → Prop where
  | mk (before : List Char) (character : Char) (rest : List Char) (position : Nat) :
      Next ⟨before, character :: rest, position⟩
        ⟨before ++ [character], rest, position + character.utf8Size⟩

/-- From one place to another by any number of characters. -/
abbrev Reaches : Place → Place → Prop := Relation.ReflTransGen Next

/-- Whether a place is one of a text: what was read and what is left make up the text, and the
position is the length of what was read. -/
structure LiesIn (place : Place) (text : List Char) : Prop where
  whole : place.before ++ place.rest = text
  counted : place.position = byteLength place.before

theorem liesIn_front (text : List Char) : (front text).LiesIn text := ⟨rfl, rfl⟩

theorem LiesIn.next {place later : Place} {text : List Char} (lies : place.LiesIn text)
    (next : place.Next later) : later.LiesIn text := by
  rcases next with ⟨before, character, rest, position⟩
  rcases lies with ⟨whole, counted⟩
  refine ⟨?_, ?_⟩
  · rw [← whole, List.append_assoc]
    rfl
  · change position + character.utf8Size = byteLength (before ++ [character])
    rw [byteLength_append, byteLength_singleton, ← counted]

theorem LiesIn.reaches {place later : Place} {text : List Char} (lies : place.LiesIn text)
    (reaches : place.Reaches later) : later.LiesIn text := by
  induction reaches with
  | refl => exact lies
  | tail _ next ih => exact ih.next next

/-- What is left at a later place is any end of what is left. -/
theorem exists_reaches_of_suffix {place : Place} {rest : List Char} (isEnd : rest <:+ place.rest) :
    ∃ later, place.Reaches later ∧ later.rest = rest := by
  rcases place with ⟨before, whole, position⟩
  rcases isEnd with ⟨read, rfl⟩
  induction read generalizing before position with
  | nil => exact ⟨_, .refl, rfl⟩
  | cons character read ih =>
      rcases ih (before ++ [character]) (position + character.utf8Size) with ⟨later, reaches, left⟩
      exact ⟨later, .head (.mk before character (read ++ rest) position) reaches, left⟩

end Place

/-- Whether a result was come to by reading on from a place: what is left after the value, or at the
fault, is left at a place that is reached from there. -/
def EndsFrom {α : Type} (place : Place) (result : Except Fault (α × List Char)) : Prop :=
  ∃ later, place.Reaches later ∧
    later.rest = match result with
      | .ok (_, rest) => rest
      | .error fault => fault.rest

theorem LeavesSuffix.endsFrom {α : Type} {place : Place} {result : Except Fault (α × List Char)}
    (leaves : LeavesSuffix place.rest result) : EndsFrom place result := by
  cases result with
  | ok taken => exact Place.exists_reaches_of_suffix leaves
  | error fault => exact Place.exists_reaches_of_suffix leaves

/-- Whether a reader reads on from every place. -/
def ReadsOn {α : Type} (reader : List Char → Except Fault (α × List Char)) : Prop :=
  ∀ place, EndsFrom place (reader place.rest)

/-- Whether every reader of path expressions reads on from where it begins. The fault of a string
that does not end is at its opening quote, so its characters are read on from there. -/
structure ReadersReadOn : Prop where
  blanks : ∀ place, ∃ later, Place.Reaches place later ∧ later.rest = skipBlanks place.rest
  identifier : ReadsOn readIdentifier
  hexDigits : ∀ count value, ReadsOn (readHexDigits count value)
  bracedUnit : ∀ any value, ReadsOn (readBracedUnit any value)
  unit : ReadsOn readUnit
  lowUnit : ReadsOn readLowUnit
  codePoint : ReadsOn readCodePoint
  escape : ReadsOn readEscape
  characters : ∀ quote place text, text <:+ Place.rest place →
    EndsFrom place (readCharacters quote place.rest text)
  radixDigits : ∀ radix, ReadsOn (readRadixDigits radix)
  exponent : ReadsOn readExponent
  decimal : ReadsOn readDecimal
  numberValue : ReadsOn readNumberValue
  number : ReadsOn readNumber
  literal : ReadsOn readLiteral
  closing : ∀ key, ReadsOn (closeBracket key)
  bracket : ReadsOn readBracket
  root : ReadsOn readRoot
  accessor : ∀ place first rest, Place.rest place = first :: rest →
    EndsFrom place (readAccessor first rest)

theorem readersReadOn : ReadersReadOn where
  blanks place := Place.exists_reaches_of_suffix (skipBlanks_suffix place.rest)
  identifier place := (readIdentifier_leavesSuffix place.rest).endsFrom
  hexDigits count value place := (readHexDigits_leavesSuffix count value place.rest).endsFrom
  bracedUnit any value place := (readBracedUnit_leavesSuffix any value place.rest).endsFrom
  unit place := (readUnit_leavesSuffix place.rest).endsFrom
  lowUnit place := (readLowUnit_leavesSuffix place.rest).endsFrom
  codePoint place := (readCodePoint_leavesSuffix place.rest).endsFrom
  escape place := (readEscape_leavesSuffix place.rest).endsFrom
  characters _ _ _ within := (readCharacters_leavesSuffix within).endsFrom
  radixDigits radix place := (readRadixDigits_leavesSuffix radix place.rest).endsFrom
  exponent place := (readExponent_leavesSuffix place.rest).endsFrom
  decimal place := (readDecimal_leavesSuffix place.rest).endsFrom
  numberValue place := (readNumberValue_leavesSuffix place.rest).endsFrom
  number place := (readNumber_leavesSuffix place.rest).endsFrom
  literal place := (readLiteral_leavesSuffix place.rest).endsFrom
  closing key place := (closeBracket_leavesSuffix key place.rest).endsFrom
  bracket place := (readBracket_leavesSuffix place.rest).endsFrom
  root place := (readRoot_leavesSuffix place.rest).endsFrom
  accessor place first rest starts := by
    have leaves := readAccessor_leavesSuffix first rest
    rw [← starts] at leaves
    exact leaves.endsFrom

theorem suffix_of_readAccessors {text : List Char} {fault : Fault}
    (failed : readAccessors text = .error fault) : fault.rest <:+ text := by
  fun_induction readAccessors text with
  | case1 => cases failed
  | case2 text first rest trimmed other taken =>
      cases failed
      have inner := readAccessor_leavesSuffix first rest
      rw [taken, ← trimmed] at inner
      exact List.IsSuffix.trans inner (skipBlanks_suffix text)
  | case3 text first rest trimmed key after taken other readOn ih =>
      cases failed
      have inner := readAccessor_leavesSuffix first rest
      rw [taken, ← trimmed] at inner
      exact ((ih readOn).trans inner).trans (skipBlanks_suffix text)
  | case4 => cases failed

theorem suffix_of_readKeys {text : List Char} {fault : Fault}
    (failed : readKeys text = .error fault) : fault.rest <:+ text := by
  have inner := readRoot_leavesSuffix (skipBlanks text)
  have blanks := skipBlanks_suffix text
  unfold readKeys at failed
  split at failed
  case h_1 other taken =>
    cases failed
    rw [taken] at inner
    exact List.IsSuffix.trans inner blanks
  case h_2 root rest taken =>
    rw [taken] at inner
    split at failed
    case h_1 other readOn =>
      cases failed
      exact ((suffix_of_readAccessors readOn).trans inner).trans blanks
    case h_2 => cases failed

/-- What was read before a place of an expression ends at a boundary of the expression's UTF-8
form. -/
theorem Place.LiesIn.isValid {place : Place} {expression : String}
    (lies : place.LiesIn expression.toList) :
    String.Pos.Raw.IsValid expression ⟨place.position⟩ := by
  apply String.Pos.Raw.isValid_iff_exists_append.mpr
  refine ⟨String.ofList place.before, String.ofList place.rest, ?_, ?_⟩
  · rw [← String.ofList_append, lies.whole, String.ofList_toList]
  · rw [lies.counted, String.rawEndPos, ← byteLength_toList, String.toList_ofList]

theorem Place.LiesIn.position_le {place : Place} {expression : String}
    (lies : place.LiesIn expression.toList) : place.position ≤ expression.utf8ByteSize := by
  rw [lies.counted, ← byteLength_toList, ← lies.whole, byteLength_append]
  exact Nat.le_add_right _ _

/-- The position that an expression's fault is given is the one that was counted on the way
there. -/
theorem Place.LiesIn.position_eq {place : Place} {text : List Char} (lies : place.LiesIn text) :
    byteLength text - byteLength place.rest = place.position := by
  rw [lies.counted, ← lies.whole, byteLength_append, Nat.add_sub_cancel]

/-- The line of the caret is indented like the line above it. -/
theorem detailedMessage_of_liesIn {place : Place} {expression : String} (reason : Reason)
    (lies : place.LiesIn expression.toList) :
    (PathError.malformed expression place.position reason).detailedMessage =
      (PathError.malformed expression place.position reason).message ++ "\nInput: " ++ expression ++
        "\n" ++ String.ofList (List.replicate ("Input: ".length + place.before.length) ' ') ++
        "^" := by
  have column : PathError.charactersBefore place.position expression.toList =
      place.before.length := by
    rw [lies.counted, ← lies.whole, charactersBefore_byteLength]
  have indent : "\n       " = "\n" ++ String.ofList (List.replicate "Input: ".length ' ') := by
    decide
  rw [← List.replicate_append_replicate, String.ofList_append]
  simp only [PathError.detailedMessage, column, indent, String.append_assoc]

/-- At every place that reading an expression comes to, what was read and what is left make up the
expression, and the position is the length of what was read. The fault of a malformed expression is
at such a place: the error tells the whole expression and the position of that place, which is a
boundary of the expression's UTF-8 form, and the caret stands behind as many spaces more than the
prefix has as there are characters before the place. -/
theorem ofExpression_fault_position (expression : String) :
    ReadersReadOn ∧
      (∀ place, (Place.front expression.toList).Reaches place →
        place.LiesIn expression.toList) ∧
      ∀ input position reason,
        KeyPath.ofExpression expression = .error (.malformed input position reason) →
        input = expression ∧ String.Pos.Raw.IsValid expression ⟨position⟩ ∧
          position ≤ expression.utf8ByteSize ∧
          ∃ place, (Place.front expression.toList).Reaches place ∧
            readKeys expression.toList = .error ⟨place.rest, reason⟩ ∧
            place.position = position ∧
            (PathError.malformed input position reason).detailedMessage =
              (PathError.malformed input position reason).message ++ "\nInput: " ++ expression ++
                "\n" ++
                String.ofList (List.replicate ("Input: ".length + place.before.length) ' ') ++
                "^" := by
  have sound (place : Place) (reaches : (Place.front expression.toList).Reaches place) :
      place.LiesIn expression.toList :=
    (Place.liesIn_front expression.toList).reaches reaches
  refine ⟨readersReadOn, sound, ?_⟩
  intro input position reason failed
  simp only [KeyPath.ofExpression] at failed
  split at failed
  case isTrue => cases failed
  case isFalse =>
    split at failed
    case h_1 => cases failed
    case h_2 fault faulted =>
      rcases (Place.front expression.toList).exists_reaches_of_suffix
          (suffix_of_readKeys faulted) with
        ⟨place, reaches, left⟩
      have lies := sound place reaches
      cases failed
      rw [← left, lies.position_eq]
      exact ⟨rfl, lies.isValid, lies.position_le, place, reaches, by rw [left, faulted], rfl,
        detailedMessage_of_liesIn fault.reason lies⟩

/-- An expression with a fault behind characters of two and of four bytes. -/
def wideExpression : String := "[\"ñ😀\", 1]"

theorem readKeys_wideExpression :
    readKeys wideExpression.toList = .error ⟨", 1]".toList, .severalLiterals⟩ := by
  have opening : skipBlanks wideExpression.toList = wideExpression.toList := rfl
  have quote : skipBlanks "\"ñ😀\", 1]".toList = "\"ñ😀\", 1]".toList := rfl
  have literal : readLiteral "\"ñ😀\", 1]".toList = .ok ("ñ😀", ", 1]".toList) := by
    simp [readLiteral, readCharacters]
  have root : readRoot wideExpression.toList = .error ⟨", 1]".toList, .severalLiterals⟩ := by
    change readBracket "\"ñ😀\", 1]".toList = _
    rw [readBracket, quote, literal]
    rfl
  rw [readKeys, opening, root]

theorem fault_position_wideExpression :
    KeyPath.ofExpression wideExpression =
        .error (.malformed wideExpression 9 .severalLiterals) ∧
      String.Pos.Raw.IsValid wideExpression ⟨9⟩ ∧ 9 ≤ wideExpression.utf8ByteSize ∧
      ∃ place : Place, place.LiesIn wideExpression.toList ∧ place.position = 9 ∧
        (PathError.malformed wideExpression 9 .severalLiterals).detailedMessage =
          (PathError.malformed wideExpression 9 .severalLiterals).message ++ "\nInput: " ++
            wideExpression ++ "\n" ++
              String.ofList (List.replicate ("Input: ".length + place.before.length) ' ') ++
              "^" := by
  have failed : KeyPath.ofExpression wideExpression =
      .error (.malformed wideExpression 9 .severalLiterals) := by
    have notBlank : wideExpression.toList.all Unicode.isWhiteSpace = false := rfl
    simp only [KeyPath.ofExpression, notBlank, readKeys_wideExpression]
    rfl
  rcases ofExpression_fault_position wideExpression with ⟨_, sound, positions⟩
  rcases positions wideExpression 9 .severalLiterals failed with
    ⟨_, isValid, inside, place, reaches, _, position, message⟩
  exact ⟨failed, isValid, inside, place, sound place reaches, position, message⟩

end Graft.Path
