import Graft.Json.Basic
import Graft.Json.FloatReader
import Graft.Text.Digit

/-!
# Reading JSON scalars

Literal names, numbers and strings. A fault is one of two: the text ended before the scalar was
complete, or it holds something that no continuation can repair. The readers take the text after the
character that announced them and give what they read with the text that follows, which is an end of
the text they were given.
-/

namespace Graft.Json

/-- Why a text is not a JSON value. -/
inductive ReadFault where
  /-- The text ended inside the value, or holds no value. -/
  | ended
  /-- The text holds a character or a value that is not allowed where it stands. -/
  | malformed
deriving DecidableEq

/-- What an item's reader leaves is the end of the text it was given. -/
def LeavesSuffix {α : Type} (read : List Char → Except ReadFault (α × List Char)) : Prop :=
  ∀ {text rest : List Char} {item : α}, read text = .ok (item, rest) → rest <:+ text

/-- Reads the remaining characters of a literal name. -/
def readWord : (word text : List Char) → Except ReadFault (List Char)
  | [], text => .ok text
  | _ :: _, [] => .error .ended
  | expected :: word, found :: text =>
      if found = expected then readWord word text else .error .malformed

theorem readWord_suffix {word text rest : List Char} (success : readWord word text = .ok rest) :
    rest <:+ text := by
  induction word generalizing text with
  | nil => simp_all [readWord]
  | cons expected word ih =>
      cases text with
      | nil => simp [readWord] at success
      | cons found text =>
          simp only [readWord] at success
          split at success
          · exact (ih success).trans (List.suffix_cons _ _)
          · simp at success

/-- Reads digits, of which there has to be at least one. -/
def readDigits (text : List Char) : Except ReadFault (List Char × List Char) :=
  let (digits, rest) := spanDigits text
  if digits.isEmpty then .error (if rest.isEmpty then .ended else .malformed)
  else .ok (digits, rest)

theorem readDigits_suffix : LeavesSuffix readDigits := by
  intro text rest item success
  have suffix := spanDigits_suffix text
  simp only [readDigits] at success
  split at success <;> simp_all

theorem readDigits_ne_nil {text digits rest : List Char}
    (success : readDigits text = .ok (digits, rest)) : digits ≠ [] := by
  simp only [readDigits] at success
  split at success <;> simp_all

theorem readDigits_length_lt {text digits rest : List Char}
    (success : readDigits text = .ok (digits, rest)) : rest.length < text.length := by
  have nonempty := readDigits_ne_nil success
  have joined : digits ++ rest = text := by
    have whole := List.takeWhile_append_dropWhile (p := Char.isDigit) (l := text)
    simp only [readDigits, spanDigits] at success
    by_cases empty : (text.takeWhile Char.isDigit).isEmpty
    · simp [empty] at success
    · simp only [empty, Bool.false_eq_true, if_false, Except.ok.injEq, Prod.mk.injEq] at success
      rw [← success.1, ← success.2, whole]
  rw [← joined, List.length_append]
  have := List.length_pos_iff.mpr nonempty
  omega

/-- Reads the digits before the point: a zero, or digits that do not begin with a zero. -/
def readWhole (text : List Char) : Except ReadFault (List Char × List Char) := do
  let (digits, rest) ← readDigits text
  match digits with
  | '0' :: _ :: _ => .error .malformed
  | _ => .ok (digits, rest)

theorem readWhole_length_lt {text digits rest : List Char}
    (success : readWhole text = .ok (digits, rest)) : rest.length < text.length := by
  simp only [readWhole, bind, Except.bind] at success
  split at success
  · simp at success
  · rename_i pair taken
    have shorter := readDigits_length_lt taken
    split at success <;> simp_all

/-- Reads a point and the digits after it, if there is a point. -/
def readFraction (text : List Char) : Except ReadFault (Option (List Char) × List Char) :=
  match text with
  | '.' :: rest => do
      let (digits, rest) ← readDigits rest
      .ok (some digits, rest)
  | _ => .ok (none, text)

theorem readFraction_suffix : LeavesSuffix readFraction := by
  intro text rest item success
  unfold readFraction at success
  split at success
  · simp only [bind, Except.bind] at success
    split at success
    · simp at success
    · rename_i pair taken
      have suffix := readDigits_suffix taken
      simp only [Except.ok.injEq, Prod.mk.injEq] at success
      rw [← success.2]
      exact suffix.trans (List.suffix_cons _ _)
  · simp_all

/-- Reads an exponent, if there is one. -/
def readExponent (text : List Char) : Except ReadFault (Option Int × List Char) :=
  match text with
  | [] => .ok (none, [])
  | mark :: rest =>
      if mark = 'e' ∨ mark = 'E' then do
        let (negative, rest) := spanSign rest
        let (digits, rest) ← readDigits rest
        let magnitude : Int := Nat.ofDigitChars 10 digits 0
        .ok (some (if negative then -magnitude else magnitude), rest)
      else .ok (none, text)

theorem readExponent_suffix : LeavesSuffix readExponent := by
  intro text rest item success
  unfold readExponent at success
  split at success
  · simp_all
  · rename_i mark after
    split at success
    · simp only [bind, Except.bind] at success
      split at success
      · simp at success
      · rename_i pair taken
        have suffix := readDigits_suffix taken
        simp only [Except.ok.injEq, Prod.mk.injEq] at success
        rw [← success.2]
        exact (suffix.trans (spanSign_suffix after)).trans (List.suffix_cons _ _)
    · simp_all

/-- The number that a literal is read as. Without a point and an exponent it is an integer if it
fits one, minus zero excepted; otherwise it is the double that the reader of doubles gives. -/
def numberOfLiteral? (readFloat : FloatReader) (negative : Bool) (whole : List Char)
    (fraction : Option (List Char)) (exponent : Option Int) : Option Number :=
  let value : Int :=
    if negative then -(Nat.ofDigitChars 10 whole 0 : Int) else Nat.ofDigitChars 10 whole 0
  if integral : fraction = none ∧ exponent = none ∧ ¬(negative ∧ value = 0) ∧
      leastSigned ≤ value ∧ value < unsignedCount then
    some (.integer value integral.2.2.2.1 integral.2.2.2.2)
  else
    (readFloat ⟨whole, fraction.getD [], exponent.getD 0⟩).map fun magnitude =>
      .float { magnitude with negative }

/-- Reads a number after its sign. -/
def readNumber (readFloat : FloatReader) (negative : Bool) (text : List Char) :
    Except ReadFault (Number × List Char) := do
  let (whole, rest) ← readWhole text
  let (fraction, rest) ← readFraction rest
  let (exponent, rest) ← readExponent rest
  match numberOfLiteral? readFloat negative whole fraction exponent with
  | some value => .ok (value, rest)
  | none => .error .malformed

theorem readNumber_length_lt {readFloat : FloatReader} {negative : Bool} {text rest : List Char}
    {number : Number} (success : readNumber readFloat negative text = .ok (number, rest)) :
    rest.length < text.length := by
  simp only [readNumber, bind, Except.bind] at success
  split at success
  · simp at success
  · rename_i whole takenWhole
    have shorter := readWhole_length_lt takenWhole
    split at success
    · simp at success
    · rename_i fraction takenFraction
      have afterFraction :=
        (readFraction_suffix takenFraction).length_le
      split at success
      · simp at success
      · rename_i exponent takenExponent
        have afterExponent :=
          (readExponent_suffix takenExponent).length_le
        split at success
        · simp only [Except.ok.injEq, Prod.mk.injEq] at success
          rw [← success.2]
          omega
        · simp at success

/-- Reads the four hexadecimal digits of an escape. They count as missing, and not as wrong, only
if fewer than four bytes are left. -/
def readUnit (text : List Char) : Except ReadFault (Nat × List Char) :=
  let available := (text.take 4).foldl (fun length character => length + character.utf8Size) 0
  if available < 4 then .error .ended
  else match text with
    | first :: second :: third :: fourth :: rest =>
        match [first, second, third, fourth].mapM (Text.digitValue? 16) with
        | some digits => .ok (digits.foldl (fun value digit => value * 16 + digit) 0, rest)
        | none => .error .malformed
    | _ => .error .malformed

theorem readUnit_suffix : LeavesSuffix readUnit := by
  intro text rest item success
  simp only [readUnit] at success
  split at success
  · simp at success
  · split at success
    · split at success
      · simp only [Except.ok.injEq, Prod.mk.injEq] at success
        rw [← success.2]
        exact ⟨[_, _, _, _], rfl⟩
      · simp at success
    · simp at success

/-- Reads the second half of a surrogate pair, escape characters included. -/
def readLowUnit : List Char → Except ReadFault (Nat × List Char)
  | [] => .error .ended
  | ['\\'] => .error .ended
  | '\\' :: 'u' :: rest => do
      let (unit, rest) ← readUnit rest
      if Text.isLowSurrogate unit then .ok (unit, rest) else .error .malformed
  | _ => .error .malformed

theorem readLowUnit_suffix : LeavesSuffix readLowUnit := by
  intro text rest item success
  unfold readLowUnit at success
  split at success
  · simp at success
  · simp at success
  · rename_i after
    simp only [bind, Except.bind] at success
    split at success
    · simp at success
    · rename_i unit read
      split at success
      · simp only [Except.ok.injEq, Prod.mk.injEq] at success
        have suffix := readUnit_suffix read
        rw [← success.2]
        exact suffix.trans ⟨['\\', 'u'], rfl⟩
      · simp at success
  · simp at success

/-- Reads a character given by its code units. -/
def readCodePoint (text : List Char) : Except ReadFault (Char × List Char) := do
  let (unit, rest) ← readUnit text
  if Text.isHighSurrogate unit then
    let (low, rest) ← readLowUnit rest
    .ok (Char.ofNat (Text.joinSurrogates unit low), rest)
  else if Text.isLowSurrogate unit then .error .malformed
  else .ok (Char.ofNat unit, rest)

theorem readCodePoint_suffix : LeavesSuffix readCodePoint := by
  intro text rest item success
  simp only [readCodePoint, bind, Except.bind] at success
  split at success
  · simp at success
  · rename_i unit read
    have suffix := readUnit_suffix read
    split at success
    · split at success
      · simp at success
      · rename_i low readLow
        have lowSuffix := readLowUnit_suffix readLow
        simp only [Except.ok.injEq, Prod.mk.injEq] at success
        rw [← success.2]
        exact lowSuffix.trans suffix
    · split at success
      · simp at success
      · simp only [Except.ok.injEq, Prod.mk.injEq] at success
        rw [← success.2]
        exact suffix

/-- Reads what follows the backslash of an escape. -/
def readEscape : List Char → Except ReadFault (Char × List Char)
  | [] => .error .ended
  | 'u' :: rest => readCodePoint rest
  | '"' :: rest => .ok ('"', rest)
  | '\\' :: rest => .ok ('\\', rest)
  | '/' :: rest => .ok ('/', rest)
  | 'b' :: rest => .ok ('\x08', rest)
  | 'f' :: rest => .ok ('\x0c', rest)
  | 'n' :: rest => .ok ('\n', rest)
  | 'r' :: rest => .ok ('\r', rest)
  | 't' :: rest => .ok ('\t', rest)
  | _ :: _ => .error .malformed

theorem readEscape_suffix : LeavesSuffix readEscape := by
  intro text rest item success
  unfold readEscape at success
  split at success <;> try simp at success
  · exact (readCodePoint_suffix success).trans (List.suffix_cons _ _)
  all_goals
    rw [← success.2]
    exact List.suffix_cons _ _

/-- Reads the characters of a string up to its closing quote, after those read before. -/
def readCharacters (before text : List Char) : Except ReadFault (String × List Char) :=
  match text with
  | [] => .error .ended
  | character :: rest =>
      if character = '"' then .ok (String.ofList before.reverse, rest)
      else if character = '\\' then
        match _taken : readEscape rest with
        | .error fault => .error fault
        | .ok (escaped, after) => readCharacters (escaped :: before) after
      else if character.toNat < 0x20 then .error .malformed
      else readCharacters (character :: before) rest
termination_by text.length
decreasing_by
  · have := (readEscape_suffix _taken).length_le
    simp only [List.length_cons]
    omega
  · simp

theorem readCharacters_length_le {before text rest : List Char} {string : String}
    (success : readCharacters before text = .ok (string, rest)) : rest.length ≤ text.length := by
  fun_induction readCharacters before text with
  | case1 => simp at success
  | case2 => simp_all
  | case3 => simp at success
  | case4 =>
      rename_i taken _ ih
      have := ih success
      have := (readEscape_suffix taken).length_le
      simp only [List.length_cons]
      omega
  | case5 => simp at success
  | case6 _ _ _ _ _ _ ih =>
      have := ih success
      simp only [List.length_cons]
      omega

/-- Reads a string after its opening quote. -/
def readString (text : List Char) : Except ReadFault (String × List Char) := readCharacters [] text

/-- Reads a literal name after its first character. -/
def readLiteral (value : Json) (letters text : List Char) :
    Except ReadFault (Json × List Char) := do
  let after ← readWord letters text
  .ok (value, after)

theorem readLiteral_suffix (value : Json) (letters : List Char) :
    LeavesSuffix (readLiteral value letters) := by
  intro text rest item success
  simp only [readLiteral, bind, Except.bind] at success
  split at success
  · simp at success
  · rename_i taken
    simp only [Except.ok.injEq, Prod.mk.injEq] at success
    rw [← success.2]
    exact readWord_suffix taken

/-- Reads a scalar at the given first character. -/
def readScalar (readFloat : FloatReader) (first : Char) (rest : List Char) :
    Except ReadFault (Json × List Char) :=
  match first with
  | '"' => do
      let (text, after) ← readString rest
      .ok (.string text, after)
  | 'n' => readLiteral .null ['u', 'l', 'l'] rest
  | 't' => readLiteral (.bool true) ['r', 'u', 'e'] rest
  | 'f' => readLiteral (.bool false) ['a', 'l', 's', 'e'] rest
  | '-' => do
      let (value, after) ← readNumber readFloat true rest
      .ok (.number value, after)
  | _ =>
      if first.isDigit then do
        let (value, after) ← readNumber readFloat false (first :: rest)
        .ok (.number value, after)
      else .error .malformed

theorem readScalar_length_le {readFloat : FloatReader} {first : Char} {rest after : List Char}
    {value : Json} (success : readScalar readFloat first rest = .ok (value, after)) :
    after.length ≤ rest.length := by
  unfold readScalar at success
  split at success
  · simp only [bind, Except.bind] at success
    split at success
    · simp at success
    · rename_i taken
      simp only [Except.ok.injEq, Prod.mk.injEq] at success
      rw [← success.2]
      exact readCharacters_length_le taken
  · exact (readLiteral_suffix _ _ success).length_le
  · exact (readLiteral_suffix _ _ success).length_le
  · exact (readLiteral_suffix _ _ success).length_le
  · simp only [bind, Except.bind] at success
    split at success
    · simp at success
    · rename_i taken
      simp only [Except.ok.injEq, Prod.mk.injEq] at success
      rw [← success.2]
      exact Nat.le_of_lt (readNumber_length_lt taken)
  · simp only [bind, Except.bind] at success
    split at success
    · split at success
      · simp at success
      · rename_i taken
        simp only [Except.ok.injEq, Prod.mk.injEq] at success
        rw [← success.2]
        exact Nat.le_of_lt_succ (readNumber_length_lt taken)
    · simp at success

end Graft.Json
