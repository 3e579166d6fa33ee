import Graft.Json.Reader
import Graft.Proofs.Path.Numerals

/-!
# JSON texts that are numbers

A JSON text that is no container is one scalar with blanks around it, for once a container has been
opened the reader ends with a container. A number without a sign is a decimal numeral of the grammar
of path expressions.
-/

namespace Graft.Json

open Path.Grammar

variable {readFloat : FloatReader}

/-- A container has been opened, with which the reader will end. -/
def ReadState.Opened : ReadState → Prop
  | .value frames => frames ≠ []
  | .finished outermost => outermost.isContainer
  | _ => True

theorem opened_complete {value : Json} {frames : List Frame}
    (opened : frames ≠ [] ∨ value.isContainer) : (complete value frames).Opened := by
  rcases frames with _ | ⟨frame, outer⟩
  · exact opened.resolve_left (not_not_intro rfl)
  · cases frame <;> trivial

theorem opened_readValue {depthLimit : Option Nat} {frames : List Frame} {first : Char}
    {rest after : List Char} {next : ReadState} (inside : frames ≠ [])
    (read : readValue readFloat depthLimit frames first rest = .ok (next, after)) :
    next.Opened := by
  simp only [readValue, bind, Except.bind] at read
  split at read
  case isTrue =>
    split at read
    case isTrue => cases read
    case isFalse =>
      cases read
      split <;> trivial
  case isFalse =>
    split at read
    case h_1 => cases read
    case h_2 =>
      cases read
      exact opened_complete (Or.inl inside)

theorem opened_readName {before : List (String × Json)} {frames : List Frame} {first : Char}
    {rest after : List Char} {next : ReadState}
    (read : readName before frames first rest = .ok (next, after)) : next.Opened := by
  unfold readName at read
  split at read
  case isTrue =>
    split at read
    case h_1 => cases read
    case h_2 =>
      split at read
      case h_1 => cases read
      case h_2 =>
        cases read
        exact List.cons_ne_nil _ _
      case h_3 => cases read
  case isFalse => cases read

/-- A token inside a container either leaves it open or completes it. -/
theorem ReadState.Opened.readToken {depthLimit : Option Nat} {state next : ReadState} {first : Char}
    {rest after : List Char} (opened : state.Opened)
    (read : readToken readFloat depthLimit state first rest = .ok (next, after)) : next.Opened := by
  unfold Json.readToken at read
  split at read
  case h_1 frames => exact opened_readValue opened read
  case h_2 frames =>
    split at read
    case isTrue =>
      cases read
      exact opened_complete (Or.inr rfl)
    case isFalse => exact opened_readValue (List.cons_ne_nil _ _) read
  case h_3 frames =>
    split at read
    case isTrue =>
      cases read
      exact opened_complete (Or.inr rfl)
    case isFalse => exact opened_readName read
  case h_4 before frames => exact opened_readName read
  case h_5 items frames =>
    split at read
    case isTrue =>
      cases read
      exact List.cons_ne_nil _ _
    case isFalse =>
      split at read
      case isTrue =>
        cases read
        exact opened_complete (Or.inr rfl)
      case isFalse => cases read
  case h_6 members frames =>
    split at read
    case isTrue =>
      cases read
      trivial
    case isFalse =>
      split at read
      case isTrue =>
        cases read
        exact opened_complete (Or.inr rfl)
      case isFalse => cases read
  case h_7 => cases read

theorem ReadState.Opened.isContainer {depthLimit : Option Nat} {state : ReadState}
    {text : List Char} {value : Json} (opened : state.Opened)
    (read : readTokens readFloat depthLimit state text = .ok value) : value.isContainer := by
  fun_induction readTokens readFloat depthLimit state text with
  | case1 text trimmed finished =>
      cases read
      exact opened
  | case2 => cases read
  | case3 => cases read
  | case4 state text first rest trimmed next after taken ih =>
      exact ih (opened.readToken taken) read

/-- A text that is no container is a scalar with blanks around it. -/
theorem scalar_of_readText {depthLimit : Option Nat} {text : String} {value : Json}
    (read : readText readFloat depthLimit text = .ok value)
    (noContainer : value.isContainer = false) :
    ∃ before first rest after, (∀ character ∈ before, isBlank character) ∧
      before ++ first :: rest = text.toList ∧ readScalar readFloat first rest = .ok (value, after) ∧
      ∀ character ∈ after, isBlank character := by
  rcases Path.span_spec isBlank text.toList with ⟨blanks, isText⟩
  rw [readText, readTokens.eq_def] at read
  split at read
  case h_1 => cases read
  case h_2 first rest trimmed =>
    split at read
    case h_1 => cases read
    case h_2 next after taken =>
      simp only [readToken, readValue, bind, Except.bind] at taken
      split at taken
      case isTrue =>
        -- The reader does not come back from an open container.
        have opened : next.Opened := by
          split at taken
          case isTrue => cases taken
          case isFalse =>
            cases taken
            split <;> trivial
        rw [opened.isContainer read] at noContainer
        cases noContainer
      case isFalse =>
        split at taken
        case h_1 => cases taken
        case h_2 pair scalar =>
          cases taken
          rcases Path.span_spec isBlank pair.2 with ⟨areBlanks, isAfter⟩
          rw [complete, readTokens.eq_def] at read
          split at read
          case h_1 nothing =>
            cases read
            rw [nothing, List.append_nil] at isAfter
            rw [trimmed] at isText
            exact ⟨_, first, rest, pair.2, blanks, isText, scalar, isAfter ▸ areBlanks⟩
          case h_2 =>
            split at read
            case h_1 => cases read
            case h_2 taken => cases taken

theorem readText_of_readScalar {depthLimit : Option Nat} {first : Char} {rest : List Char}
    {value : Json} (noBlank : isBlank first = false) (noContainer : ¬(first = '[' ∨ first = '\x7b'))
    (read : readScalar readFloat first rest = .ok (value, [])) :
    readText readFloat depthLimit (String.ofList (first :: rest)) = .ok value := by
  have atEnd : readTokens readFloat depthLimit (.finished value) [] = .ok value := by
    rw [readTokens.eq_def]
    rfl
  have trimmed : (first :: rest).dropWhile isBlank = first :: rest := by
    rw [List.dropWhile_cons, noBlank]
    rfl
  have taken : readToken readFloat depthLimit (.value []) first rest =
      .ok (.finished value, []) := by
    simp only [readToken, readValue, noContainer, if_false, read]
    rfl
  rw [readText, String.toList_ofList, readTokens.eq_def]
  split
  case h_1 nothing =>
    rw [trimmed] at nothing
    cases nothing
  case h_2 found left isTrimmed =>
    rw [trimmed] at isTrimmed
    cases isTrimmed
    split
    case h_1 failed =>
      rw [taken] at failed
      cases failed
    case h_2 next after isNext =>
      rw [taken] at isNext
      cases isNext
      exact atEnd

/-- A scalar that is a number begins with a minus or is a number without a sign. -/
theorem readNumber_of_readScalar {first : Char} {rest after : List Char} {number : Number}
    (read : readScalar readFloat first rest = .ok (.number number, after)) :
    first = '-' ∨ readNumber readFloat false (first :: rest) = .ok (number, after) := by
  have notWord : ∀ {value letters}, readLiteral value letters rest = .ok (.number number, after) →
      value = .number number := by
    intro value letters read
    simp only [readLiteral, bind, Except.bind] at read
    split at read <;> cases read
    rfl
  unfold readScalar at read
  split at read
  case h_1 =>
    simp only [bind, Except.bind] at read
    split at read <;> cases read
  case h_2 => cases notWord read
  case h_3 => cases notWord read
  case h_4 => cases notWord read
  case h_5 => exact Or.inl rfl
  case h_6 =>
    simp only [bind, Except.bind] at read
    split at read
    case isTrue =>
      split at read
      case h_1 => cases read
      case h_2 taken =>
        cases read
        exact Or.inr taken
    case isFalse => cases read

theorem readDigits_spec {text digits rest : List Char}
    (read : readDigits text = .ok (digits, rest)) :
    digits ≠ [] ∧ Digits digits ∧ digits ++ rest = text := by
  rcases Path.spanDigits_spec text with ⟨areDigits, whole⟩
  have nonempty := readDigits_ne_nil read
  simp only [readDigits] at read
  split at read
  case isTrue => cases read
  case isFalse =>
    cases read
    exact ⟨nonempty, areDigits, whole⟩

theorem exponent_of_readExponent {text rest : List Char} {exponent : Option Int}
    (read : readExponent text = .ok (exponent, rest)) :
    ∃ token, Exponent token (exponent.getD 0) ∧ token ++ rest = text := by
  unfold readExponent at read
  split at read
  case h_1 =>
    cases read
    exact ⟨[], .absent, rfl⟩
  case h_2 mark others =>
    split at read
    case isTrue isMark =>
      simp only [bind, Except.bind] at read
      split at read
      case h_1 => cases read
      case h_2 pair taken =>
        cases read
        rcases Path.spanSign_spec others with ⟨sign, signed, isSign⟩
        rcases readDigits_spec taken with ⟨nonempty, areDigits, whole⟩
        rw [← whole] at signed
        split at isSign
        case isTrue isMinus =>
          subst isSign
          rw [isMinus]
          exact ⟨_, .negative isMark nonempty areDigits, congrArg (mark :: ·) signed⟩
        case isFalse notMinus =>
          rw [Bool.not_eq_true] at notMinus
          rw [notMinus]
          refine ⟨_, .positive isMark isSign nonempty areDigits, ?_⟩
          rw [List.cons_append, List.append_assoc, signed]
    case isFalse =>
      cases read
      exact ⟨[], .absent, rfl⟩

theorem readWhole_spec {text digits rest : List Char} (read : readWhole text = .ok (digits, rest)) :
    digits ≠ [] ∧ Digits digits ∧ NoLeadingZero digits ∧ digits ++ rest = text := by
  simp only [readWhole, bind, Except.bind] at read
  split at read
  case h_1 => cases read
  case h_2 pair taken =>
    split at read
    case h_1 => cases read
    case h_2 others =>
      cases read
      rcases readDigits_spec taken with ⟨nonempty, areDigits, whole⟩
      refine ⟨nonempty, areDigits, ?_, whole⟩
      rintro ⟨long, isZero⟩
      rcases digits : pair.1 with _ | ⟨first, _ | ⟨second, rest⟩⟩
      · exact nonempty digits
      · rw [digits] at long
        exact absurd long (by simp)
      · rw [digits] at isZero
        cases isZero
        exact others _ _ digits

theorem readFraction_spec {text rest : List Char} {fraction : Option (List Char)}
    (read : readFraction text = .ok (fraction, rest)) :
    fraction = none ∧ text = rest ∨
      ∃ digits, fraction = some digits ∧ Digits digits ∧ text = '.' :: (digits ++ rest) := by
  unfold readFraction at read
  split at read
  case h_1 others =>
    simp only [bind, Except.bind] at read
    split at read
    case h_1 => cases read
    case h_2 pair taken =>
      cases read
      rcases readDigits_spec taken with ⟨_, areDigits, whole⟩
      exact Or.inr ⟨pair.1, rfl, areDigits, congrArg ('.' :: ·) whole.symm⟩
  case h_2 =>
    cases read
    exact Or.inl ⟨rfl, rfl⟩

/-- A number without a sign is a decimal numeral. -/
theorem numeral_of_readNumber {text rest : List Char} {number : Number}
    (read : readNumber readFloat false text = .ok (number, rest)) :
    ∃ token whole fraction exponent,
      DecimalNumeral token ⟨whole, fraction.getD [], exponent.getD 0⟩ ∧
        numberOfLiteral? readFloat false whole fraction exponent = some number ∧
          token ++ rest = text := by
  simp only [readNumber, bind, Except.bind] at read
  split at read
  case h_1 => cases read
  case h_2 whole takenWhole =>
    split at read
    case h_1 => cases read
    case h_2 fraction takenFraction =>
      split at read
      case h_1 => cases read
      case h_2 exponent takenExponent =>
        split at read
        case h_2 => cases read
        case h_1 isNumber =>
          cases read
          rcases readWhole_spec takenWhole with ⟨nonempty, wholeDigits, noZero, isText⟩
          rcases exponent_of_readExponent takenExponent with ⟨token, isExponent, isLeft⟩
          rcases readFraction_spec takenFraction with
            ⟨absent, isRest⟩ | ⟨digits, present, fractionDigits, isRest⟩
          · refine ⟨_, _, none, _, .whole nonempty wholeDigits noZero isExponent, ?_, ?_⟩
            · rw [← absent]
              exact isNumber
            · rw [List.append_assoc, isLeft, ← isRest, isText]
          · refine ⟨_, _, some digits, _, .point (fun both => nonempty both.1) wholeDigits noZero
              fractionDigits isExponent, ?_, ?_⟩
            · rw [← present]
              exact isNumber
            · rw [List.append_assoc, List.cons_append, List.append_assoc, isLeft, Option.getD_some,
                ← isRest, isText]

end Graft.Json
