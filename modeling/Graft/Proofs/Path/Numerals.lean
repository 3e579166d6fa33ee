import Graft.Proofs.Path.Characters
import Graft.Proofs.Path.Grammar

/-!
# Numbers are read by their grammar

A number is read as far as it goes, so that what the grammar derives is read whole only if the text
does not go on with a digit, a point, or the mark of an exponent or a radix. None of these follows
where an identifier could not go on and no point stands.
-/

namespace Graft.Path

open Grammar

theorem spanDigits_append {digits rest : List Char} (areDigits : Digits digits)
    (stops : ∀ character ∈ rest.head?, character.isDigit = false) :
    spanDigits (digits ++ rest) = (digits, rest) :=
  Prod.ext (span_append areDigits stops).1 (span_append areDigits stops).2

theorem spanDigits_spec (text : List Char) :
    Digits (spanDigits text).1 ∧ (spanDigits text).1 ++ (spanDigits text).2 = text :=
  span_spec Char.isDigit text

/-- The digits of every radix may stand inside an identifier. -/
theorem isIdentifierPart_of_isDigit_radix {radix : Nat} (small : radix ≤ 16) {character : Char}
    (isDigit : IsDigit radix character) : isIdentifierPart character := by
  have codes : ∀ code < 0x67, (Text.digitValue? 16 (Char.ofNat code)).isSome →
      isIdentifierPart (Char.ofNat code) := by decide +kernel
  have bounds : character.toNat < 0x67 ∧ (Text.digitValue? 16 character).isSome := by
    simp only [IsDigit, Text.digitValue?] at isDigit ⊢
    grind
  have found := codes character.toNat bounds.1
  rw [Char.ofNat_toNat] at found
  exact found bounds.2

theorem radixOfMark?_spec {mark : Char} {radix : Nat} (isMark : radixOfMark? mark = some radix) :
    radix ≤ 16 ∧ isIdentifierPart mark := by
  unfold radixOfMark? at isMark
  split at isMark <;> cases isMark <;> decide +kernel

theorem endsIdentifier_iff {rest : List Char} :
    EndsIdentifier rest ↔ ¬rest.head?.any isIdentifierPart := by
  cases rest <;> simp [EndsIdentifier]

theorem Grammar.EndsIdentifier.ne {rest : List Char} (ends : EndsIdentifier rest) {other : Char}
    (part : isIdentifierPart other) : ∀ character ∈ rest.head?, character ≠ other := by
  rintro character inside rfl
  rw [ends character inside] at part
  cases part

theorem Grammar.EndsIdentifier.not_digit {rest : List Char} (ends : EndsIdentifier rest) :
    ∀ character ∈ rest.head?, character.isDigit = false := by
  intro character inside
  apply Bool.eq_false_iff.mpr
  intro isDigit
  exact ends.ne (isIdentifierPart_of_isDigit isDigit) character inside rfl

theorem spanSign_spec (text : List Char) :
    ∃ sign, sign ++ (spanSign text).2 = text ∧
      if (spanSign text).1 then sign = ['-'] else sign = [] ∨ sign = ['+'] := by
  unfold spanSign
  split
  · exact ⟨['-'], rfl, rfl⟩
  · exact ⟨['+'], rfl, Or.inr rfl⟩
  · exact ⟨[], rfl, Or.inl rfl⟩

theorem exponent_of_readExponent {text rest : List Char} {power : Int}
    (read : readExponent text = .ok (power, rest)) :
    ∃ token, Exponent token power ∧ token ++ rest = text := by
  unfold readExponent at read
  split at read
  case h_1 =>
    cases read
    exact ⟨[], .absent, rfl⟩
  case h_2 mark others =>
    split at read
    case isTrue isMark =>
      rcases spanSign_spec others with ⟨sign, signed, isSign⟩
      rcases spanDigits_spec (spanSign others).2 with ⟨areDigits, whole⟩
      simp only at read
      split at read
      case isTrue => cases read
      case isFalse some =>
        have nonempty : (spanDigits (spanSign others).2).1 ≠ [] := by simpa using some
        rcases Prod.mk.inj (Except.ok.inj read) with ⟨rfl, rfl⟩
        rw [← whole] at signed
        split at isSign
        case isTrue isMinus =>
          subst isSign
          rw [isMinus]
          exact ⟨_, .negative isMark nonempty areDigits, congrArg (mark :: ·) signed⟩
        case isFalse notMinus =>
          rw [Bool.not_eq_true] at notMinus
          rw [notMinus]
          refine ⟨_, .positive isMark isSign nonempty areDigits, ?_⟩
          rw [List.cons_append, List.append_assoc, signed]
    case isFalse =>
      cases read
      exact ⟨[], .absent, rfl⟩

theorem Grammar.Exponent.readExponent {token rest : List Char} {power : Int}
    (exponent : Exponent token power) (ends : EndsIdentifier rest) :
    readExponent (token ++ rest) = .ok (power, rest) := by
  cases exponent with
  | absent =>
      rcases rest with _ | ⟨first, rest⟩
      · rfl
      · have noMark : ¬(first = 'e' ∨ first = 'E') :=
          not_or.mpr ⟨ends.ne (by decide +kernel) first rfl, ends.ne (by decide +kernel) first rfl⟩
        simp only [List.nil_append, Path.readExponent, noMark, if_false]
  | @positive mark sign digits isMark isSign nonempty allDigits =>
      have unsigned : spanSign (sign ++ (digits ++ rest)) = (false, digits ++ rest) := by
        rcases isSign with rfl | rfl
        · rcases digits with _ | ⟨first, digits⟩
          · exact absurd rfl nonempty
          · have isDigit := allDigits first List.mem_cons_self
            unfold spanSign
            split
            · rename_i same
              cases same
              cases isDigit
            · rename_i same
              cases same
              cases isDigit
            · rfl
        · rfl
      simp [Path.readExponent, isMark, unsigned, spanDigits_append allDigits ends.not_digit,
        nonempty]
  | negative isMark nonempty allDigits =>
      simp [Path.readExponent, isMark, spanSign, spanDigits_append allDigits ends.not_digit,
        nonempty]

/-- What follows the digits of a decimal numeral is neither a digit nor a point. -/
theorem Grammar.Exponent.stops {token rest : List Char} {power : Int}
    (exponent : Exponent token power) (ends : EndsIdentifier rest)
    (noPoint : ∀ character ∈ rest.head?, character ≠ '.') :
    ∀ character ∈ (token ++ rest).head?, character.isDigit = false ∧ character ≠ '.' := by
  have isMark : ∀ mark, mark = 'e' ∨ mark = 'E' → mark.isDigit = false ∧ mark ≠ '.' := by
    rintro mark (rfl | rfl) <;> decide
  intro character inside
  cases exponent with
  | absent => exact ⟨ends.not_digit character inside, noPoint character inside⟩
  | positive mark =>
      cases inside
      exact isMark _ mark
  | negative mark =>
      cases inside
      exact isMark _ mark

theorem decimalNumeral_of_readDecimal {text rest : List Char} {value : Option Binary64}
    (read : readDecimal text = .ok (value, rest)) :
    ∃ token literal, DecimalNumeral token literal ∧ literal.toBinary64? false = value ∧
      token ++ rest = text := by
  rcases spanDigits_spec text with ⟨wholeDigits, whole⟩
  simp only [readDecimal] at read
  split at read
  case isTrue => cases read
  case isFalse noZero =>
    split at read
    case isTrue => cases read
    case isFalse some =>
      split at read
      case h_1 => cases read
      case h_2 power after taken =>
        rcases Prod.mk.inj (Except.ok.inj read) with ⟨rfl, rfl⟩
        rcases exponent_of_readExponent taken with ⟨token, exponent, isToken⟩
        simp only [List.isEmpty_iff] at some
        generalize (spanDigits text).1 = digits at *
        generalize (spanDigits text).2 = left at *
        subst whole
        unfold spanFraction at *
        split at some
        case h_1 others =>
          rcases spanDigits_spec others with ⟨fractionDigits, fraction⟩
          refine ⟨_, _, .point some wholeDigits noZero fractionDigits exponent, rfl, ?_⟩
          simp only [List.append_assoc, List.cons_append, isToken, fraction]
        case h_2 noPoint =>
          have nonempty : digits ≠ [] := by simpa using some
          refine ⟨_, _, .whole nonempty wholeDigits noZero exponent, rfl, ?_⟩
          simp only [List.append_assoc, isToken]

theorem Grammar.DecimalNumeral.readDecimal {token rest : List Char} {literal : DecimalLiteral}
    (numeral : DecimalNumeral token literal) (ends : EndsIdentifier rest)
    (noPoint : ∀ character ∈ rest.head?, character ≠ '.') :
    readDecimal (token ++ rest) = .ok (literal.toBinary64? false, rest) := by
  cases numeral with
  | @whole whole exponent power nonempty wholeDigits noZero isExponent =>
      have stops := isExponent.stops ends noPoint
      have wholeSpan : spanDigits (whole ++ (exponent ++ rest)) = (whole, exponent ++ rest) :=
        spanDigits_append wholeDigits fun character inside => (stops character inside).1
      have noFraction : spanFraction (exponent ++ rest) = ([], exponent ++ rest) := by
        unfold spanFraction
        split
        · exact absurd rfl (stops '.' (by rename_i same; rw [same]; rfl)).2
        · rfl
      unfold NoLeadingZero at noZero
      simp only [List.append_assoc, Path.readDecimal, wholeSpan, noFraction, noZero, if_false,
        isExponent.readExponent ends]
      simp [nonempty]
  | @point whole fraction exponent power nonempty wholeDigits noZero fractionDigits isExponent =>
      have stops := isExponent.stops ends noPoint
      have wholeSpan : spanDigits (whole ++ '.' :: (fraction ++ (exponent ++ rest))) =
          (whole, '.' :: (fraction ++ (exponent ++ rest))) :=
        spanDigits_append wholeDigits (by simp)
      have fractionSpan : spanFraction ('.' :: (fraction ++ (exponent ++ rest))) =
          (fraction, exponent ++ rest) :=
        spanDigits_append fractionDigits fun character inside => (stops character inside).1
      unfold NoLeadingZero at noZero
      simp only [List.append_assoc, List.cons_append, Path.readDecimal, wholeSpan, fractionSpan,
        noZero, if_false, isExponent.readExponent ends, List.isEmpty_iff, nonempty]

theorem foldl_filterMap_digitValue? {radix : Nat} {digits : List Char}
    (allDigits : ∀ digit ∈ digits, IsDigit radix digit) (value : Option Binary64) :
    (digits.filterMap (Text.digitValue? radix)).foldl (fun value digit => value.bind fun number =>
        Binary64.ofRatio? false (number.wholeMagnitude * radix + digit) 1) value =
      digits.foldl (fun value digit => value.bind fun number =>
        Binary64.ofRatio? false (appendDigit radix number.wholeMagnitude digit) 1) value := by
  induction digits generalizing value with
  | nil => rfl
  | cons digit digits ih =>
      rcases List.forall_mem_cons.mp allDigits with ⟨isDigit, others⟩
      rcases Option.isSome_iff_exists.mp isDigit with ⟨found, isFound⟩
      rw [List.filterMap_cons_some isFound, List.foldl_cons, List.foldl_cons, ih others]
      simp only [appendDigit, isFound, Option.getD_some]

theorem digits_of_readRadixDigits {radix : Nat} {text rest : List Char} {value : Option Binary64}
    (read : readRadixDigits radix text = .ok (value, rest)) :
    ∃ digits, digits ≠ [] ∧ (∀ digit ∈ digits, IsDigit radix digit) ∧
      radixValue radix digits = value ∧ digits ++ rest = text := by
  simp only [readRadixDigits] at read
  split at read
  case isTrue => cases read
  case isFalse some =>
    rcases span_spec (fun character => (Text.digitValue? radix character).isSome) text with
      ⟨allDigits, whole⟩
    rcases Prod.mk.inj (Except.ok.inj read) with ⟨rfl, rfl⟩
    refine ⟨_, by simpa using some, allDigits, ?_, whole⟩
    rw [foldl_filterMap_digitValue? allDigits, radixValue]

theorem readRadixDigits_append {radix : Nat} {digits rest : List Char} (small : radix ≤ 16)
    (nonempty : digits ≠ []) (allDigits : ∀ digit ∈ digits, IsDigit radix digit)
    (ends : EndsIdentifier rest) :
    readRadixDigits radix (digits ++ rest) = .ok (radixValue radix digits, rest) := by
  have stops : ∀ character ∈ rest.head?, (Text.digitValue? radix character).isSome = false := by
    intro character inside
    apply Bool.eq_false_iff.mpr
    intro isDigit
    exact ends.ne (isIdentifierPart_of_isDigit_radix small isDigit) character inside rfl
  rcases @span_append (fun character => (Text.digitValue? radix character).isSome) _ _ allDigits
    stops with ⟨taken, dropped⟩
  simp only [readRadixDigits, taken, dropped, List.isEmpty_iff, nonempty, if_false, radixValue,
    foldl_filterMap_digitValue? allDigits]

theorem numeral_of_readNumberValue {text rest : List Char} {value : Option Binary64}
    (read : readNumberValue text = .ok (value, rest)) :
    ∃ token, Numeral token value ∧ token ++ rest = text := by
  have ofDecimal : readDecimal text = .ok (value, rest) →
      ∃ token, Numeral token value ∧ token ++ rest = text := by
    intro read
    rcases decimalNumeral_of_readDecimal read with ⟨token, literal, numeral, rfl, isToken⟩
    exact ⟨token, .decimal numeral, isToken⟩
  unfold readNumberValue at read
  split at read
  case h_1 mark others =>
    split at read
    case h_1 radix isMark =>
      rcases digits_of_readRadixDigits read with ⟨digits, nonempty, allDigits, rfl, rfl⟩
      exact ⟨_, .radix isMark nonempty allDigits, rfl⟩
    case h_2 => exact ofDecimal read
  case h_2 => exact ofDecimal read

theorem readNumberValue_of_no_mark {text : List Char}
    (noMark : ∀ mark rest, text = '0' :: mark :: rest → radixOfMark? mark = none) :
    readNumberValue text = readDecimal text := by
  rw [readNumberValue.eq_def]
  split
  case h_1 mark rest =>
    rw [noMark mark rest rfl]
  case h_2 => rfl

theorem Grammar.EndsIdentifier.no_mark {rest : List Char} (ends : EndsIdentifier rest) :
    ∀ character ∈ rest.head?, radixOfMark? character = none := by
  intro character inside
  rcases marked : radixOfMark? character with _ | radix
  · rfl
  · exact absurd rfl (ends.ne (radixOfMark?_spec marked).2 character inside)

theorem Grammar.Exponent.no_mark {token rest : List Char} {power : Int}
    (exponent : Exponent token power) (ends : EndsIdentifier rest) :
    ∀ character ∈ (token ++ rest).head?, radixOfMark? character = none := by
  have isMark : ∀ mark, mark = 'e' ∨ mark = 'E' → radixOfMark? mark = none := by
    rintro mark (rfl | rfl) <;> rfl
  intro character inside
  cases exponent with
  | absent => exact ends.no_mark character inside
  | positive mark =>
      cases inside
      exact isMark _ mark
  | negative mark =>
      cases inside
      exact isMark _ mark

/-- The character after a zero that begins a decimal numeral is no mark of a radix. -/
theorem Grammar.DecimalNumeral.no_mark {token rest : List Char} {literal : DecimalLiteral}
    (numeral : DecimalNumeral token literal) (ends : EndsIdentifier rest) {mark : Char}
    {others : List Char} (zero : token ++ rest = '0' :: mark :: others) :
    radixOfMark? mark = none := by
  cases numeral with
  | @whole whole exponent power nonempty wholeDigits noZero isExponent =>
      rcases whole with _ | ⟨first, _ | ⟨second, whole⟩⟩
      · exact absurd rfl nonempty
      · rw [List.append_assoc] at zero
        have after : exponent ++ rest = mark :: others := (List.cons.inj zero).2
        exact isExponent.no_mark ends mark (by rw [after]; rfl)
      · cases zero
        exact absurd ⟨by simp, rfl⟩ noZero
  | @point whole fraction exponent power nonempty wholeDigits noZero fractionDigits isExponent =>
      rcases whole with _ | ⟨first, _ | ⟨second, whole⟩⟩
      · cases zero
      · cases zero
        rfl
      · cases zero
        exact absurd ⟨by simp, rfl⟩ noZero

theorem Grammar.Numeral.readNumberValue {token rest : List Char} {value : Option Binary64}
    (numeral : Numeral token value) (ends : EndsIdentifier rest)
    (noPoint : ∀ character ∈ rest.head?, character ≠ '.') :
    readNumberValue (token ++ rest) = .ok (value, rest) := by
  cases numeral with
  | decimal isDecimal =>
      rw [readNumberValue_of_no_mark fun mark others zero => isDecimal.no_mark ends zero]
      exact isDecimal.readDecimal ends noPoint
  | radix isMark nonempty allDigits =>
      simp only [List.cons_append, Path.readNumberValue, isMark]
      exact readRadixDigits_append (radixOfMark?_spec isMark).1 nonempty allDigits ends

theorem numeral_of_readNumber {text rest : List Char} {key : String}
    (read : readNumber text = .ok (key, rest)) :
    ∃ token value, Numeral token value ∧ literalKey value = key ∧ EndsIdentifier rest ∧
      token ++ rest = text := by
  unfold readNumber at read
  split at read
  case h_1 => cases read
  case h_2 value after taken =>
    split at read
    case isTrue => cases read
    case isFalse ends =>
      cases read
      rcases numeral_of_readNumberValue taken with ⟨token, numeral, isToken⟩
      exact ⟨token, value, numeral, rfl, endsIdentifier_iff.mpr ends, isToken⟩

theorem Grammar.Numeral.readNumber {token rest : List Char} {value : Option Binary64}
    (numeral : Numeral token value) (ends : EndsIdentifier rest)
    (noPoint : ∀ character ∈ rest.head?, character ≠ '.') :
    readNumber (token ++ rest) = .ok (literalKey value, rest) := by
  simp only [Path.readNumber, numeral.readNumberValue ends noPoint]
  exact if_neg (endsIdentifier_iff.mp ends)

end Graft.Path
