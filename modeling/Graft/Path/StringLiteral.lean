import Graft.Path.Fault
import Graft.Text.Digit

/-!
# String literals in path expressions

A string stands between apostrophes or quotes and may not hold a line break, except after a
backslash, where the line break counts for nothing. Named escapes, two hexadecimal digits after `x`,
and four of them or any number in braces after `u` denote a character; a pair of surrogate escapes
denotes one character together, and neither half of a pair may stand alone. A backslash before any
other character but a digit stands for that character.
-/

namespace Graft.Path

/-- Reads exactly `count` hexadecimal digits, after digits of the given value. -/
def readHexDigits : (count value : Nat) → List Char → Except Fault (Nat × List Char)
  | 0, value, text => .ok (value, text)
  | count + 1, value, text =>
      match text with
      | [] => .error ⟨[], .hexDigitExpected⟩
      | first :: rest =>
          match Text.digitValue? 16 first with
          | some digit => readHexDigits count (value * 16 + digit) rest
          | none => .error ⟨first :: rest, .hexDigitExpected⟩

theorem readHexDigits_leavesSuffix (count value : Nat) (text : List Char) :
    LeavesSuffix text (readHexDigits count value text) := by
  fun_induction readHexDigits count value text with
  | case1 => exact List.suffix_rfl
  | case2 => exact List.suffix_rfl
  | case3 _ _ _ _ _ _ ih => exact ih.trans (List.suffix_cons _ _)
  | case4 => exact List.suffix_rfl

/-- Reads hexadecimal digits up to a closing brace, after digits of the given value if there were
`any`. -/
def readBracedUnit (any : Bool) (value : Nat) : List Char → Except Fault (Nat × List Char)
  | [] => .error ⟨[], .malformedUnicodeEscape⟩
  | first :: rest =>
      if first = '\x7d' then
        if any then .ok (value, rest) else .error ⟨first :: rest, .malformedUnicodeEscape⟩
      else
        match Text.digitValue? 16 first with
        | none => .error ⟨first :: rest, .invalidHexDigit first⟩
        | some digit =>
            if 0x10FFFF < value * 16 + digit then .error ⟨first :: rest, .escapeOutOfRange⟩
            else readBracedUnit true (value * 16 + digit) rest

theorem readBracedUnit_leavesSuffix (any : Bool) (value : Nat) (text : List Char) :
    LeavesSuffix text (readBracedUnit any value text) := by
  fun_induction readBracedUnit any value text with
  | case1 => exact List.suffix_rfl
  | case2 => exact List.suffix_cons _ _
  | case3 => exact List.suffix_rfl
  | case4 => exact List.suffix_rfl
  | case5 => exact List.suffix_rfl
  | case6 _ _ _ _ _ _ _ _ ih => exact ih.trans (List.suffix_cons _ _)

/-- Reads the code unit of an escape: four digits, or any number of them in braces. -/
def readUnit (text : List Char) : Except Fault (Nat × List Char) :=
  match text with
  | '\x7b' :: rest => readBracedUnit false 0 rest
  | _ => readHexDigits 4 0 text

theorem readUnit_leavesSuffix (text : List Char) : LeavesSuffix text (readUnit text) := by
  unfold readUnit
  split
  · exact (readBracedUnit_leavesSuffix _ _ _).trans (List.suffix_cons _ _)
  · exact readHexDigits_leavesSuffix _ _ _

/-- Reads the second half of a surrogate pair, escape characters included. -/
def readLowUnit (text : List Char) : Except Fault (Nat × List Char) :=
  match text with
  | '\\' :: 'u' :: rest =>
      match readUnit rest with
      | .error fault => .error fault
      | .ok (unit, after) =>
          if Text.isLowSurrogate unit then .ok (unit, after)
          else .error ⟨after, .unpairedSurrogate⟩
  | '\\' :: rest => .error ⟨rest, .unpairedSurrogate⟩
  | _ => .error ⟨text, .unpairedSurrogate⟩

theorem readLowUnit_leavesSuffix (text : List Char) : LeavesSuffix text (readLowUnit text) := by
  unfold readLowUnit
  split
  · rename_i rest
    have inner := readUnit_leavesSuffix rest
    have within : rest <:+ '\\' :: 'u' :: rest := ⟨['\\', 'u'], rfl⟩
    split
    · rename_i fault failed
      rw [failed] at inner
      exact inner.trans within
    · rename_i unit after taken
      rw [taken] at inner
      split <;> exact List.IsSuffix.trans inner within
  · exact List.suffix_cons _ _
  · exact List.suffix_rfl

/-- Reads the character that a Unicode escape denotes. -/
def readCodePoint (text : List Char) : Except Fault (Char × List Char) :=
  match readUnit text with
  | .error fault => .error fault
  | .ok (unit, rest) =>
      if Text.isHighSurrogate unit then
        match readLowUnit rest with
        | .error fault => .error fault
        | .ok (low, after) => .ok (Char.ofNat (Text.joinSurrogates unit low), after)
      else if Text.isLowSurrogate unit then .error ⟨rest, .invalidUnicodeEscape⟩
      else .ok (Char.ofNat unit, rest)

theorem readCodePoint_leavesSuffix (text : List Char) :
    LeavesSuffix text (readCodePoint text) := by
  unfold readCodePoint
  have outer := readUnit_leavesSuffix text
  split
  · rename_i failed
    rw [failed] at outer
    exact outer
  · rename_i unit rest taken
    rw [taken] at outer
    split
    · have inner := readLowUnit_leavesSuffix rest
      split
      · rename_i failed
        rw [failed] at inner
        exact List.IsSuffix.trans inner outer
      · rename_i takenLow
        rw [takenLow] at inner
        exact List.IsSuffix.trans inner outer
    · split <;> exact outer

/-- Takes a line feed off the front of a text. -/
def dropLineFeed : List Char → List Char
  | '\n' :: rest => rest
  | text => text

theorem dropLineFeed_suffix (text : List Char) : dropLineFeed text <:+ text := by
  unfold dropLineFeed
  split
  · exact List.suffix_cons _ _
  · exact List.suffix_rfl

/-- Whether the text goes on with a decimal digit. -/
def startsWithDigit (text : List Char) : Bool := text.head?.any Char.isDigit

/-- Reads what follows a backslash. A line continuation denotes no character. -/
def readEscape : List Char → Except Fault (Option Char × List Char)
  | [] => .error ⟨[], .unterminatedString⟩
  | first :: rest =>
      match first with
      | 'n' => .ok (some '\n', rest)
      | 'r' => .ok (some '\r', rest)
      | 't' => .ok (some '\t', rest)
      | 'b' => .ok (some '\x08', rest)
      | 'f' => .ok (some '\x0c', rest)
      | 'v' => .ok (some '\x0b', rest)
      | 'x' =>
          match readHexDigits 2 0 rest with
          | .error fault => .error fault
          | .ok (code, after) => .ok (some (Char.ofNat code), after)
      | 'u' =>
          match readCodePoint rest with
          | .error fault => .error fault
          | .ok (character, after) => .ok (some character, after)
      | '\r' => .ok (none, dropLineFeed rest)
      | '\n' => .ok (none, rest)
      | '\u2028' => .ok (none, rest)
      | '\u2029' => .ok (none, rest)
      | _ =>
          if first = '0' ∧ ¬startsWithDigit rest then .ok (some '\x00', rest)
          else if first.isDigit then .error ⟨rest, .octalEscape⟩
          else .ok (some first, rest)

theorem readEscape_leavesSuffix (text : List Char) : LeavesSuffix text (readEscape text) := by
  unfold readEscape
  split
  · exact List.suffix_rfl
  · rename_i first rest
    split
    case h_7 =>
      have inner := readHexDigits_leavesSuffix 2 0 rest
      split
      · rename_i failed
        rw [failed] at inner
        exact inner.trans (List.suffix_cons _ _)
      · rename_i taken
        rw [taken] at inner
        exact List.IsSuffix.trans inner (List.suffix_cons _ _)
    case h_8 =>
      have inner := readCodePoint_leavesSuffix rest
      split
      · rename_i failed
        rw [failed] at inner
        exact inner.trans (List.suffix_cons _ _)
      · rename_i taken
        rw [taken] at inner
        exact List.IsSuffix.trans inner (List.suffix_cons _ _)
    case h_9 => exact (dropLineFeed_suffix rest).trans (List.suffix_cons _ _)
    case h_13 =>
      split
      · exact List.suffix_cons _ _
      · split <;> exact List.suffix_cons _ _
    all_goals exact List.suffix_cons _ _

/-- Reads the characters of a string up to its closing quote. If there is none, the fault is at the
opening quote, where the text was `opening`. -/
def readCharacters (quote : Char) (opening text : List Char) :
    Except Fault (List Char × List Char) :=
  match text with
  | [] => .error ⟨opening, .unterminatedString⟩
  | first :: rest =>
      if first = '\n' ∨ first = '\r' then .error ⟨opening, .unterminatedString⟩
      else if first = quote then .ok ([], rest)
      else if first = '\\' then
        match _taken : readEscape rest with
        | .error fault => .error fault
        | .ok (escaped, after) =>
            match readCharacters quote opening after with
            | .error fault => .error fault
            | .ok (characters, left) => .ok (escaped.toList ++ characters, left)
      else
        match readCharacters quote opening rest with
        | .error fault => .error fault
        | .ok (characters, left) => .ok (first :: characters, left)
termination_by text.length
decreasing_by
  · have inner := readEscape_leavesSuffix rest
    rw [_taken] at inner
    have := List.IsSuffix.length_le inner
    simp only [List.length_cons]
    omega
  · simp

theorem readCharacters_leavesSuffix {quote : Char} {opening text : List Char}
    (within : text <:+ opening) : LeavesSuffix opening (readCharacters quote opening text) := by
  fun_induction readCharacters quote opening text with
  | case1 => exact List.suffix_rfl
  | case2 => exact List.suffix_rfl
  | case3 => exact (List.suffix_cons _ _).trans within
  | case4 =>
      rename_i rest fault failed _ _
      have inner := readEscape_leavesSuffix rest
      rw [failed] at inner
      exact (List.IsSuffix.trans inner (List.suffix_cons _ _)).trans within
  | case5 =>
      rename_i rest escaped after taken fault failed _ _ ih
      have inner := readEscape_leavesSuffix rest
      rw [taken] at inner
      have step := ih ((List.IsSuffix.trans inner (List.suffix_cons _ _)).trans within)
      rw [failed] at step
      exact step
  | case6 =>
      rename_i rest escaped after taken characters left read _ _ ih
      have inner := readEscape_leavesSuffix rest
      rw [taken] at inner
      have step := ih ((List.IsSuffix.trans inner (List.suffix_cons _ _)).trans within)
      rw [read] at step
      exact step
  | case7 =>
      rename_i failed ih
      have step := ih ((List.suffix_cons _ _).trans within)
      rw [failed] at step
      exact step
  | case8 =>
      rename_i read ih
      have step := ih ((List.suffix_cons _ _).trans within)
      rw [read] at step
      exact step

end Graft.Path
