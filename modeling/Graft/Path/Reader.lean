import Graft.Path.Basic
import Graft.Path.NumberLiteral
import Graft.Path.StringLiteral

/-!
# Reading path expressions

A path expression names a key, bare or in brackets, and then any number of further keys after a dot
or in brackets:

    path      := root accessor*
    root      := identifier | '[' literal ']'
    accessor  := '.' identifier | '[' literal ']'
    literal   := string | number

Blanks may stand between any two tokens. An identifier at the root is not a reserved word.
-/

namespace Graft.Path

/-- The text without the blanks in front. -/
def skipBlanks (text : List Char) : List Char := text.dropWhile isBlank

theorem skipBlanks_suffix (text : List Char) : skipBlanks text <:+ text :=
  List.dropWhile_suffix _

/-- Reads an identifier: a character that may begin one, and all that may follow inside one. -/
def readIdentifier : List Char → Except Fault (String × List Char)
  | [] => .error ⟨[], .identifierExpected none⟩
  | first :: rest =>
      if isIdentifierStart first then
        .ok (String.ofList (first :: rest.takeWhile isIdentifierPart),
          rest.dropWhile isIdentifierPart)
      else .error ⟨first :: rest, .identifierExpected (some first)⟩

theorem readIdentifier_leavesSuffix (text : List Char) :
    LeavesSuffix text (readIdentifier text) := by
  unfold readIdentifier
  split
  · exact List.suffix_rfl
  · split
    · exact (List.dropWhile_suffix _).trans (List.suffix_cons _ _)
    · exact List.suffix_rfl

/-- Reads a string or a number as the key it denotes. -/
def readLiteral (text : List Char) : Except Fault (String × List Char) :=
  match text with
  | [] => .error ⟨[], .unterminatedBrackets⟩
  | first :: rest =>
      if first = '\'' ∨ first = '"' then
        match readCharacters first text rest with
        | .error fault => .error fault
        | .ok (characters, after) => .ok (String.ofList characters, after)
      else if first.isDigit ∨ first = '.' then readNumber text
      else if first = ']' then .error ⟨text, .emptyBrackets⟩
      else if isIdentifierStart first then .error ⟨text, .computedProperty⟩
      else .error ⟨text, .literalExpected first⟩

theorem readLiteral_leavesSuffix (text : List Char) : LeavesSuffix text (readLiteral text) := by
  unfold readLiteral
  split
  · exact List.suffix_rfl
  · rename_i first rest
    split
    · have inner := @readCharacters_leavesSuffix first _ _ (List.suffix_cons first rest)
      split
      · rename_i failed
        rw [failed] at inner
        exact inner
      · rename_i taken
        rw [taken] at inner
        exact inner
    · split
      · exact readNumber_leavesSuffix _
      · split
        · exact List.suffix_rfl
        · split <;> exact List.suffix_rfl

/-- Reads the closing bracket after a key. -/
def closeBracket (key : String) (text : List Char) : Except Fault (String × List Char) :=
  match text with
  | [] => .error ⟨[], .unterminatedBrackets⟩
  | first :: rest =>
      if first = ']' then .ok (key, rest)
      else if first = ',' then .error ⟨text, .severalLiterals⟩
      else .error ⟨text, .closingBracketExpected first⟩

theorem closeBracket_leavesSuffix (key : String) (text : List Char) :
    LeavesSuffix text (closeBracket key text) := by
  unfold closeBracket
  split
  · exact List.suffix_rfl
  · split
    · exact List.suffix_cons _ _
    · split <;> exact List.suffix_rfl

/-- Reads a key in brackets, after the opening one. -/
def readBracket (text : List Char) : Except Fault (String × List Char) :=
  match readLiteral (skipBlanks text) with
  | .error fault => .error fault
  | .ok (key, rest) => closeBracket key (skipBlanks rest)

theorem readBracket_leavesSuffix (text : List Char) : LeavesSuffix text (readBracket text) := by
  unfold readBracket
  have inner := (readLiteral_leavesSuffix (skipBlanks text)).trans (skipBlanks_suffix text)
  split
  · rename_i failed
    rw [failed] at inner
    exact inner
  · rename_i key rest taken
    rw [taken] at inner
    exact (closeBracket_leavesSuffix _ _).trans ((skipBlanks_suffix rest).trans inner)

/-- Reads the first key of a path. -/
def readRoot (text : List Char) : Except Fault (String × List Char) :=
  match text with
  | '[' :: rest => readBracket rest
  | _ =>
      match readIdentifier text with
      | .error fault => .error fault
      | .ok (name, rest) =>
          if isReservedWord name then .error ⟨text, .reservedWord name⟩ else .ok (name, rest)

theorem readRoot_leavesSuffix (text : List Char) : LeavesSuffix text (readRoot text) := by
  unfold readRoot
  split
  · exact (readBracket_leavesSuffix _).trans (List.suffix_cons _ _)
  · have inner := readIdentifier_leavesSuffix text
    split
    · rename_i failed
      rw [failed] at inner
      exact inner
    · rename_i taken
      rw [taken] at inner
      split
      · exact List.suffix_rfl
      · exact inner

/-- Reads one key after the first, at the given first character of the text. -/
def readAccessor (first : Char) (rest : List Char) : Except Fault (String × List Char) :=
  if first = '.' then readIdentifier (skipBlanks rest)
  else if first = '[' then readBracket rest
  else .error ⟨first :: rest, .unexpected first⟩

theorem readAccessor_leavesSuffix (first : Char) (rest : List Char) :
    LeavesSuffix (first :: rest) (readAccessor first rest) := by
  unfold readAccessor
  split
  · exact (readIdentifier_leavesSuffix _).trans
      ((skipBlanks_suffix rest).trans (List.suffix_cons _ _))
  · split
    · exact (readBracket_leavesSuffix rest).trans (List.suffix_cons _ _)
    · exact List.suffix_rfl

theorem readAccessor_length_le {first : Char} {rest after : List Char} {key : String}
    (success : readAccessor first rest = .ok (key, after)) : after.length ≤ rest.length := by
  unfold readAccessor at success
  split at success
  · have inner := (readIdentifier_leavesSuffix (skipBlanks rest)).trans (skipBlanks_suffix rest)
    rw [success] at inner
    exact List.IsSuffix.length_le inner
  · split at success
    · have inner := readBracket_leavesSuffix rest
      rw [success] at inner
      exact List.IsSuffix.length_le inner
    · simp at success

/-- Reads the keys after the first, up to the end of the text. -/
def readAccessors (text : List Char) : Except Fault KeyPath :=
  match _trimmed : skipBlanks text with
  | [] => .ok []
  | first :: rest =>
      match _taken : readAccessor first rest with
      | .error fault => .error fault
      | .ok (key, after) =>
          match readAccessors after with
          | .error fault => .error fault
          | .ok keys => .ok (key :: keys)
termination_by text.length
decreasing_by
  have blanks := (skipBlanks_suffix text).length_le
  rw [_trimmed, List.length_cons] at blanks
  have := readAccessor_length_le _taken
  omega

/-- Reads a whole path. -/
def readKeys (text : List Char) : Except Fault KeyPath :=
  match readRoot (skipBlanks text) with
  | .error fault => .error fault
  | .ok (root, rest) =>
      match readAccessors rest with
      | .error fault => .error fault
      | .ok keys => .ok (root :: keys)

/-- The length of a text in UTF-8, in bytes. -/
def byteLength (text : List Char) : Nat :=
  text.foldl (fun length character => length + character.utf8Size) 0

end Graft.Path

namespace Graft.KeyPath

open Graft.Path

/-- The path that an expression denotes. -/
def ofExpression (expression : String) : Except PathError KeyPath :=
  let text := expression.toList
  if text.all Unicode.isWhiteSpace then .error .blank
  else
    match readKeys text with
    | .ok keys => .ok keys
    | .error fault =>
        .error (.malformed expression (byteLength text - byteLength fault.rest) fault.reason)

end Graft.KeyPath
