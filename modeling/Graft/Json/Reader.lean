import Graft.Json.Scalar

/-!
# Reading JSON text

A reader of one value with nothing after it but blanks. Containers may nest without bound or up to a
given depth; what lies deeper is malformed.

The reader goes from token to token and keeps the open containers in a list, so that its own depth
does not grow with that of the text. It ends because each token leaves a shorter text. How doubles
are read is a parameter.
-/

namespace Graft.Json

/-- Whether a character may stand between the tokens of a JSON text. -/
def isBlank (character : Char) : Bool :=
  character = ' ' || character = '\t' || character = '\n' || character = '\r'

/-- A container that is still open, around the value being read. -/
inductive Frame where
  /-- An array, with the items before the value. -/
  | items (before : Array Json)
  /-- An object, with the members before the value and the value's name. -/
  | member (before : List (String × Json)) (name : String)

/-- The reader between two tokens. The open containers are listed from the innermost outwards. -/
inductive ReadState where
  /-- A value has to follow. -/
  | value (frames : List Frame)
  /-- An array was just opened inside the frames. -/
  | firstItem (frames : List Frame)
  /-- An object was just opened inside the frames. -/
  | firstMember (frames : List Frame)
  /-- Another member of the object inside the frames has to follow. -/
  | nextMember (before : List (String × Json)) (frames : List Frame)
  /-- An item of the array inside the frames is complete. -/
  | afterItem (items : Array Json) (frames : List Frame)
  /-- A member of the object inside the frames is complete. -/
  | afterMember (members : List (String × Json)) (frames : List Frame)
  /-- The outermost value is complete. -/
  | finished (value : Json)

/-- Hands a complete value to the innermost open container. A member named before gives up its
value and keeps its place. -/
def complete (value : Json) : List Frame → ReadState
  | [] => .finished value
  | .items before :: outer => .afterItem (before.push value) outer
  | .member before name :: outer => .afterMember (setMember name value before) outer

/-- Whether no further container may be opened inside the frames. -/
def isFull (depthLimit : Option Nat) (frames : List Frame) : Bool :=
  depthLimit.any (· ≤ frames.length)

/-- Reads a scalar, or opens a container, at the given first character. -/
def readValue (readFloat : FloatReader) (depthLimit : Option Nat) (frames : List Frame)
    (first : Char) (rest : List Char) : Except ReadFault (ReadState × List Char) :=
  if first = '[' ∨ first = '\x7b' then
    if isFull depthLimit frames then .error .malformed
    else .ok (if first = '[' then .firstItem frames else .firstMember frames, rest)
  else do
    let (value, after) ← readScalar readFloat first rest
    .ok (complete value frames, after)

theorem readValue_length_le {readFloat : FloatReader} {depthLimit : Option Nat}
    {frames : List Frame} {first : Char} {rest after : List Char} {state : ReadState}
    (success : readValue readFloat depthLimit frames first rest = .ok (state, after)) :
    after.length ≤ rest.length := by
  simp only [readValue, bind, Except.bind] at success
  split at success
  · split at success
    · simp at success
    · simp only [Except.ok.injEq, Prod.mk.injEq] at success
      simp [success.2]
  · split at success
    · simp at success
    · rename_i taken
      simp only [Except.ok.injEq, Prod.mk.injEq] at success
      rw [← success.2]
      exact readScalar_length_le taken

/-- Reads the name of a member and the colon after it. -/
def readName (before : List (String × Json)) (frames : List Frame) (first : Char)
    (rest : List Char) : Except ReadFault (ReadState × List Char) :=
  if first = '"' then
    match readString rest with
    | .error fault => .error fault
    | .ok (name, after) =>
        match after.dropWhile isBlank with
        | [] => .error .ended
        | ':' :: after => .ok (.value (.member before name :: frames), after)
        | _ :: _ => .error .malformed
  else .error .malformed

theorem readName_length_le {before : List (String × Json)} {frames : List Frame} {first : Char}
    {rest after : List Char} {state : ReadState}
    (success : readName before frames first rest = .ok (state, after)) :
    after.length ≤ rest.length := by
  unfold readName at success
  split at success
  · split at success
    · simp at success
    · rename_i name left taken
      have := readCharacters_length_le taken
      have blanks := (List.dropWhile_suffix (l := left) isBlank).length_le
      split at success
      · simp at success
      · rename_i colon
        simp only [Except.ok.injEq, Prod.mk.injEq] at success
        rw [colon, List.length_cons] at blanks
        rw [← success.2]
        omega
      · simp at success
  · simp at success

/-- Reads one token, or a name with its colon, at the given first character. -/
def readToken (readFloat : FloatReader) (depthLimit : Option Nat) (state : ReadState)
    (first : Char) (rest : List Char) : Except ReadFault (ReadState × List Char) :=
  match state with
  | .value frames => readValue readFloat depthLimit frames first rest
  | .firstItem frames =>
      if first = ']' then .ok (complete (.array #[]) frames, rest)
      else readValue readFloat depthLimit (.items #[] :: frames) first rest
  | .firstMember frames =>
      if first = '\x7d' then .ok (complete (.object []) frames, rest)
      else readName [] frames first rest
  | .nextMember before frames => readName before frames first rest
  | .afterItem items frames =>
      if first = ',' then .ok (.value (.items items :: frames), rest)
      else if first = ']' then .ok (complete (.array items) frames, rest)
      else .error .malformed
  | .afterMember members frames =>
      if first = ',' then .ok (.nextMember members frames, rest)
      else if first = '\x7d' then .ok (complete (.object members) frames, rest)
      else .error .malformed
  | .finished _ => .error .malformed

/-- A token, past its first character, takes nothing back. -/
theorem readToken_length_le {readFloat : FloatReader} {depthLimit : Option Nat}
    {state next : ReadState} {first : Char} {rest after : List Char}
    (success : readToken readFloat depthLimit state first rest = .ok (next, after)) :
    after.length ≤ rest.length := by
  unfold readToken at success
  split at success
  · exact readValue_length_le success
  · split at success
    · simp_all
    · exact readValue_length_le success
  · split at success
    · simp_all
    · exact readName_length_le success
  · exact readName_length_le success
  · split at success
    · simp_all
    · split at success <;> simp_all
  · split at success
    · simp_all
    · split at success <;> simp_all
  · simp at success

/-- Reads tokens from the given state on until the text ends. -/
def readTokens (readFloat : FloatReader) (depthLimit : Option Nat) (state : ReadState)
    (text : List Char) : Except ReadFault Json :=
  match _trimmed : text.dropWhile isBlank with
  | [] =>
      match state with
      | .finished value => .ok value
      | _ => .error .ended
  | first :: rest =>
      match _taken : readToken readFloat depthLimit state first rest with
      | .error fault => .error fault
      | .ok (next, after) => readTokens readFloat depthLimit next after
termination_by text.length
decreasing_by
  have blanks := (List.dropWhile_suffix (l := text) isBlank).length_le
  rw [_trimmed, List.length_cons] at blanks
  have := readToken_length_le _taken
  omega

/-- Reads a text that holds one value. With a depth limit, no more than that many containers may
be open at once. -/
def readText (readFloat : FloatReader) (depthLimit : Option Nat) (text : String) :
    Except ReadFault Json :=
  readTokens readFloat depthLimit (.value []) text.toList

/-- Reads a text that holds one value, and doubles without exact arithmetic. -/
def ofText (depthLimit : Option Nat) (text : String) : Except ReadFault Json :=
  readText bestEffort depthLimit text

end Graft.Json
