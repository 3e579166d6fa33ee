import Graft.Proofs.Path.Grammar
import Graft.Proofs.Path.Quoted
import Mathlib.Algebra.Group.Nat.Defs

/-!
# Strings are read by their grammar

The readers of escapes and strings succeed on just the texts that the grammar derives, and give what
the grammar says they denote. Up to the level of an escape the end of a text is plain from the text
itself, so each reader is described by an equivalence that leaves open what follows.
-/

namespace Graft.Path

open Grammar

theorem appendDigit_of_digitValue? {radix digit : Nat} {character : Char}
    (isDigit : Text.digitValue? radix character = some digit) (value : Nat) :
    appendDigit radix value character = value * radix + digit := by
  simp [appendDigit, isDigit]

theorem foldl_appendDigit (radix value : Nat) (digits : List Char) :
    digits.foldl (appendDigit radix) value =
      value * radix ^ digits.length + digitsValue radix digits := by
  induction digits generalizing value with
  | nil => simp [digitsValue]
  | cons digit digits ih =>
      rw [digitsValue, List.foldl_cons, List.foldl_cons, ih, ih (appendDigit radix 0 digit),
        List.length_cons, Nat.pow_succ]
      simp only [appendDigit]
      rw [Nat.add_mul, Nat.mul_assoc, Nat.mul_comm radix, Nat.zero_mul, Nat.zero_add, Nat.add_assoc]

theorem digitsValue_append (radix : Nat) (front back : List Char) :
    digitsValue radix (front ++ back) =
      digitsValue radix front * radix ^ back.length + digitsValue radix back := by
  rw [digitsValue, List.foldl_append, foldl_appendDigit]
  rfl

theorem digitsValue_lt {radix : Nat} {digits : List Char}
    (allDigits : ∀ digit ∈ digits, IsDigit radix digit) :
    digitsValue radix digits < radix ^ digits.length := by
  induction digits with
  | nil => exact Nat.one_pos
  | cons digit digits ih =>
      rcases List.forall_mem_cons.mp allDigits with ⟨isDigit, others⟩
      rcases Option.isSome_iff_exists.mp isDigit with ⟨value, isValue⟩
      have value_lt := Text.lt_of_digitValue? isValue
      have first : digitsValue radix [digit] = value := by
        simp [digitsValue, appendDigit_of_digitValue? isValue]
      rw [← List.singleton_append, digitsValue_append, first, List.singleton_append,
        List.length_cons, Nat.pow_succ']
      calc value * radix ^ digits.length + digitsValue radix digits
          < value * radix ^ digits.length + radix ^ digits.length :=
            Nat.add_lt_add_left (ih others) _
        _ = (value + 1) * radix ^ digits.length := (Nat.succ_mul _ _).symm
        _ ≤ radix * radix ^ digits.length := Nat.mul_le_mul_right _ value_lt

theorem le_foldl_appendDigit (value : Nat) (digits : List Char) :
    value ≤ digits.foldl (appendDigit 16) value := by
  have positive : 0 < 16 ^ digits.length := Nat.pow_pos (by decide)
  rw [foldl_appendDigit]
  exact Nat.le_trans (Nat.le_mul_of_pos_right _ positive) (Nat.le_add_right _ _)

theorem readHexDigits_eq_ok_iff {count value result : Nat} {text rest : List Char} :
    readHexDigits count value text = .ok (result, rest) ↔
      ∃ digits, digits.length = count ∧ (∀ digit ∈ digits, IsDigit 16 digit) ∧
        digits.foldl (appendDigit 16) value = result ∧ digits ++ rest = text := by
  fun_induction readHexDigits count value text with
  | case1 value text =>
      constructor
      · intro read
        cases read
        exact ⟨[], rfl, by simp, rfl, rfl⟩
      · rintro ⟨digits, none, _, rfl, rfl⟩
        rw [List.length_eq_zero_iff] at none
        subst none
        rfl
  | case2 value count =>
      constructor
      · intro read
        cases read
      · rintro ⟨digits, many, _, _, nothing⟩
        simp_all
  | case3 value count first others digit isDigit ih =>
      rw [ih]
      constructor
      · rintro ⟨digits, rfl, allDigits, rfl, rfl⟩
        refine ⟨first :: digits, rfl, ?_, ?_, rfl⟩
        · exact List.forall_mem_cons.mpr ⟨by simp [IsDigit, isDigit], allDigits⟩
        · rw [List.foldl_cons, appendDigit_of_digitValue? isDigit]
      · rintro ⟨_ | ⟨other, digits⟩, many, allDigits, rfl, same⟩
        · cases many
        · cases same
          refine ⟨digits, Nat.succ.inj many, (List.forall_mem_cons.mp allDigits).2, ?_, rfl⟩
          rw [List.foldl_cons, appendDigit_of_digitValue? isDigit]
  | case4 value count first others noDigit =>
      constructor
      · intro read
        cases read
      · rintro ⟨_ | ⟨other, digits⟩, many, allDigits, _, same⟩
        · cases many
        · cases same
          have isDigit := (List.forall_mem_cons.mp allDigits).1
          simp [IsDigit, noDigit] at isDigit

/-- The range is checked after every digit, but digits only ever add to the value. -/
theorem readBracedUnit_eq_ok_iff {any : Bool} {value result : Nat} {text rest : List Char} :
    readBracedUnit any value text = .ok (result, rest) ↔
      ∃ digits, (any ∨ digits ≠ []) ∧ (∀ digit ∈ digits, IsDigit 16 digit) ∧
        digits.foldl (appendDigit 16) value = result ∧ (digits ≠ [] → result ≤ 0x10FFFF) ∧
        digits ++ '\x7d' :: rest = text := by
  have noDigit : Text.digitValue? 16 '\x7d' = none := by decide
  fun_induction readBracedUnit any value text with
  | case1 any value =>
      constructor
      · intro read
        cases read
      · rintro ⟨digits, _, _, _, _, nothing⟩
        simp at nothing
  | case2 value others =>
      constructor
      · intro read
        cases read
        exact ⟨[], Or.inl rfl, by simp, rfl, by simp, rfl⟩
      · rintro ⟨_ | ⟨first, digits⟩, _, allDigits, rfl, _, same⟩
        · cases same
          rfl
        · cases same
          have isDigit := (List.forall_mem_cons.mp allDigits).1
          simp [IsDigit, noDigit] at isDigit
  | case3 any value others notAny =>
      constructor
      · intro read
        cases read
      · rintro ⟨_ | ⟨first, digits⟩, some, allDigits, _, _, same⟩
        · simp [notAny] at some
        · cases same
          have isDigit := (List.forall_mem_cons.mp allDigits).1
          simp [IsDigit, noDigit] at isDigit
  | case4 any value first others notBrace notDigit =>
      constructor
      · intro read
        cases read
      · rintro ⟨_ | ⟨other, digits⟩, _, allDigits, _, _, same⟩
        · cases same
          exact absurd rfl notBrace
        · cases same
          have isDigit := (List.forall_mem_cons.mp allDigits).1
          simp [IsDigit, notDigit] at isDigit
  | case5 any value first others notBrace digit isDigit tooLarge =>
      constructor
      · intro read
        cases read
      · rintro ⟨_ | ⟨other, digits⟩, _, allDigits, rfl, inRange, same⟩
        · cases same
          exact absurd rfl notBrace
        · cases same
          have bound := inRange (by simp)
          rw [List.foldl_cons, appendDigit_of_digitValue? isDigit] at bound
          have grows := le_foldl_appendDigit (value * 16 + digit) digits
          omega
  | case6 any value first others notBrace digit isDigit inRange ih =>
      refine ih.trans ?_
      constructor
      · rintro ⟨digits, _, allDigits, rfl, below, rfl⟩
        refine ⟨first :: digits, Or.inr (by simp), ?_, ?_, ?_, rfl⟩
        · exact List.forall_mem_cons.mpr ⟨by simp [IsDigit, isDigit], allDigits⟩
        · rw [List.foldl_cons, appendDigit_of_digitValue? isDigit]
        · intro _
          rcases digits with _ | ⟨second, digits⟩
          · simpa using inRange
          · exact below (by simp)
      · rintro ⟨_ | ⟨other, digits⟩, _, allDigits, rfl, below, same⟩
        · cases same
          exact absurd rfl notBrace
        · cases same
          have bound := below (by simp)
          rw [List.foldl_cons, appendDigit_of_digitValue? isDigit] at bound ⊢
          exact ⟨digits, Or.inl rfl, (List.forall_mem_cons.mp allDigits).2, rfl, fun _ => bound,
            rfl⟩

theorem readUnit_eq_ok_iff {unit : Nat} {text rest : List Char} :
    readUnit text = .ok (unit, rest) ↔ ∃ token, CodeUnit token unit ∧ token ++ rest = text := by
  have noDigit : Text.digitValue? 16 '\x7b' = none := by decide
  unfold readUnit
  split
  case h_1 others =>
    rw [readBracedUnit_eq_ok_iff]
    constructor
    · rintro ⟨digits, some, allDigits, rfl, inRange, rfl⟩
      have nonempty : digits ≠ [] := by simpa using some
      exact ⟨_, .braced nonempty allDigits (inRange nonempty), by simp⟩
    · rintro ⟨token, isUnit, same⟩
      cases isUnit with
      | fourDigits four allDigits =>
          rcases token with _ | ⟨first, digits⟩
          · cases four
          · cases same
            have isDigit := (List.forall_mem_cons.mp allDigits).1
            simp [IsDigit, noDigit] at isDigit
      | @braced digits nonempty allDigits inRange =>
          refine ⟨digits, Or.inr nonempty, allDigits, rfl, fun _ => inRange, ?_⟩
          simpa using same
  case h_2 notBrace =>
    rw [readHexDigits_eq_ok_iff]
    constructor
    · rintro ⟨digits, four, allDigits, rfl, rfl⟩
      exact ⟨digits, .fourDigits four allDigits, rfl⟩
    · rintro ⟨token, isUnit, rfl⟩
      cases isUnit with
      | fourDigits four allDigits => exact ⟨token, four, allDigits, rfl, rfl⟩
      | braced nonempty allDigits inRange => exact absurd rfl (notBrace _)

theorem readLowUnit_eq_ok_iff {unit : Nat} {text rest : List Char} :
    readLowUnit text = .ok (unit, rest) ↔
      ∃ token, CodeUnit token unit ∧ Text.isLowSurrogate unit ∧
        '\\' :: 'u' :: (token ++ rest) = text := by
  unfold readLowUnit
  split
  case h_1 others =>
    constructor
    · intro read
      split at read
      case h_1 => cases read
      case h_2 found after taken =>
        split at read
        case isTrue isLow =>
          cases read
          rcases readUnit_eq_ok_iff.mp taken with ⟨token, isUnit, rfl⟩
          exact ⟨token, isUnit, isLow, rfl⟩
        case isFalse => cases read
    · rintro ⟨token, isUnit, isLow, same⟩
      cases same
      rw [readUnit_eq_ok_iff.mpr ⟨token, isUnit, rfl⟩]
      simp only [isLow, if_true]
  case h_2 others notUnicode =>
    constructor
    · intro read
      cases read
    · rintro ⟨token, _, _, same⟩
      cases same
      exact absurd rfl (notUnicode _)
  case h_3 notEscape _ =>
    constructor
    · intro read
      cases read
    · rintro ⟨token, _, _, rfl⟩
      exact absurd rfl (notEscape _)

theorem readCodePoint_eq_ok_iff {character : Char} {text rest : List Char} :
    readCodePoint text = .ok (character, rest) ↔
      ∃ token, CodePoint token character ∧ token ++ rest = text := by
  unfold readCodePoint
  constructor
  · intro read
    split at read
    case h_1 => cases read
    case h_2 unit after taken =>
      rcases readUnit_eq_ok_iff.mp taken with ⟨token, isUnit, rfl⟩
      split at read
      case isTrue isHigh =>
        split at read
        case h_1 => cases read
        case h_2 low left takenLow =>
          rcases Prod.mk.inj (Except.ok.inj read) with ⟨rfl, rfl⟩
          rcases readLowUnit_eq_ok_iff.mp takenLow with ⟨lowToken, lowUnit, isLow, rfl⟩
          exact ⟨_, .pair isUnit isHigh lowUnit isLow, by simp⟩
      case isFalse notHigh =>
        split at read
        case isTrue => cases read
        case isFalse notLow =>
          rcases Prod.mk.inj (Except.ok.inj read) with ⟨rfl, rfl⟩
          rw [Bool.not_eq_true] at notHigh notLow
          exact ⟨token, .single isUnit notHigh notLow, rfl⟩
  · rintro ⟨token, isCodePoint, rfl⟩
    cases isCodePoint with
    | single isUnit notHigh notLow =>
        rw [readUnit_eq_ok_iff.mpr ⟨token, isUnit, rfl⟩]
        simp [notHigh, notLow]
    | @pair highText lowText high low highUnit isHigh lowUnit isLow =>
        have takenLow : readLowUnit ('\\' :: 'u' :: lowText ++ rest) = .ok (low, rest) :=
          readLowUnit_eq_ok_iff.mpr ⟨lowText, lowUnit, isLow, rfl⟩
        rw [List.append_assoc, readUnit_eq_ok_iff.mpr ⟨highText, highUnit, rfl⟩]
        simp only [isHigh, if_true]
        rw [takenLow]

/-- What an escape leaves does not begin with a character that belongs to the escape. -/
def EscapeEnds (token rest : List Char) : Prop :=
  (token = ['0'] → startsWithDigit rest = false) ∧ (token = ['\r'] → rest.head? ≠ some '\n')

theorem escape_of_readEscape {found : Option Char} {text rest : List Char}
    (read : readEscape text = .ok (found, rest)) :
    ∃ token, Escape token found ∧ EscapeEnds token rest ∧ token ++ rest = text := by
  unfold readEscape at read
  split at read
  case h_1 => cases read
  case h_2 first others =>
    split at read
    case h_7 =>
      split at read
      case h_1 => cases read
      case h_2 code after taken =>
        rcases Prod.mk.inj (Except.ok.inj read) with ⟨rfl, rfl⟩
        rcases readHexDigits_eq_ok_iff.mp taken with ⟨digits, two, allDigits, rfl, rfl⟩
        exact ⟨_, .byte two allDigits, ⟨by simp, by simp⟩, rfl⟩
    case h_8 =>
      split at read
      case h_1 => cases read
      case h_2 character after taken =>
        cases read
        rcases readCodePoint_eq_ok_iff.mp taken with ⟨token, isCodePoint, rfl⟩
        exact ⟨_, .codePoint isCodePoint, ⟨by simp, by simp⟩, rfl⟩
    case h_9 =>
      unfold dropLineFeed at read
      split at read
      case h_1 =>
        cases read
        exact ⟨_, .returnAndLineFeed, ⟨by simp, by simp⟩, rfl⟩
      case h_2 noLineFeed =>
        cases read
        refine ⟨_, .continuation (by simp [lineTerminators]), ⟨by simp, ?_⟩, rfl⟩
        rintro - isLineFeed
        rcases List.head?_eq_some_iff.mp isLineFeed with ⟨after, same⟩
        exact noLineFeed after same
    case h_13 =>
      split at read
      case isTrue isZero =>
        cases read
        rcases isZero with ⟨rfl, noDigit⟩
        exact ⟨_, .zero, ⟨fun _ => by simpa using noDigit, by simp⟩, rfl⟩
      case isFalse notZero =>
        split at read
        case isTrue => cases read
        case isFalse noDigit =>
          cases read
          have plain : StandsForItself first := by
            simp_all [StandsForItself, controlEscapes, lineTerminators]
          refine ⟨_, .itself plain, ⟨?_, ?_⟩, rfl⟩
          · rintro isZero
            cases isZero
            exact absurd rfl noDigit
          · rintro isReturn
            cases isReturn
            exact absurd plain.2.1 (by decide)
    case h_10 | h_11 | h_12 =>
      cases read
      exact ⟨_, .continuation (by simp [lineTerminators]), ⟨by simp, by simp⟩, rfl⟩
    all_goals
      cases read
      exact ⟨_, .control (by simp [controlEscapes]), ⟨by simp, by simp⟩, rfl⟩

theorem readEscape_of_escape {found : Option Char} {token rest : List Char}
    (isEscape : Escape token found) (ends : EscapeEnds token rest) :
    readEscape (token ++ rest) = .ok (found, rest) := by
  cases isEscape with
  | control listed =>
      simp only [controlEscapes, List.mem_cons, Prod.mk.injEq, List.not_mem_nil, or_false] at listed
      rcases listed with ⟨rfl, rfl⟩ | ⟨rfl, rfl⟩ | ⟨rfl, rfl⟩ | ⟨rfl, rfl⟩ | ⟨rfl, rfl⟩ | ⟨rfl, rfl⟩
      all_goals rfl
  | zero => simp [readEscape, ends.1 rfl]
  | @byte digits two allDigits =>
      have taken : readHexDigits 2 0 (digits ++ rest) = .ok (digitsValue 16 digits, rest) :=
        readHexDigits_eq_ok_iff.mpr ⟨digits, two, allDigits, rfl, rfl⟩
      simp only [List.cons_append, readEscape, taken]
  | @codePoint text denoted isCodePoint =>
      have taken := readCodePoint_eq_ok_iff.mpr ⟨text, isCodePoint, (rfl : text ++ rest = _)⟩
      simp only [List.cons_append, readEscape, taken]
  | continuation listed =>
      simp only [lineTerminators, List.mem_cons, List.not_mem_nil, or_false] at listed
      rcases listed with rfl | rfl | rfl | rfl
      · rfl
      · have noLineFeed := ends.2 rfl
        have unchanged : dropLineFeed rest = rest := by
          unfold dropLineFeed
          split
          · exact absurd rfl noLineFeed
          · rfl
        simp only [List.singleton_append, readEscape, unchanged]
      · rfl
      · rfl
  | returnAndLineFeed => rfl
  | @itself character plain =>
      rcases plain with ⟨noControl, noTerminator, noNumeric, noDigit⟩
      simp only [controlEscapes, lineTerminators, List.map_cons, List.map_nil, List.mem_cons,
        List.not_mem_nil, or_false, not_or] at noControl noTerminator noNumeric
      have notZero : character ≠ '0' := by
        rintro rfl
        cases noDigit
      rw [List.singleton_append, readEscape.eq_def]
      simp only
      split
      all_goals simp_all

theorem characters_of_readCharacters {quote : Char} {opening text denoted rest : List Char}
    (read : readCharacters quote opening text = .ok (denoted, rest)) :
    ∃ token, Characters quote token denoted ∧ token ++ quote :: rest = text := by
  fun_induction readCharacters quote opening text generalizing denoted with
  | case1 => cases read
  | case2 => cases read
  | case3 others notBreak =>
      cases read
      exact ⟨[], .nil, rfl⟩
  | case4 => cases read
  | case5 => cases read
  | case6 others found after taken characters left taken' notBreak notQuote ih =>
      cases read
      rcases escape_of_readEscape taken with ⟨escape, isEscape, ends, rfl⟩
      rcases ih taken' with ⟨token, isToken, rfl⟩
      refine ⟨_, .escape isEscape ?_ isToken, by simp⟩
      intro isZero
      rcases token with _ | ⟨next, token⟩
      · rfl
      · exact ends.1 isZero
  | case7 => cases read
  | case8 first others notBreak notQuote notBackslash characters left taken ih =>
      cases read
      rcases ih taken with ⟨token, isToken, rfl⟩
      exact ⟨first :: token, .plain notQuote notBackslash notBreak isToken, rfl⟩

/-- What stands for some characters is read as these, and the reader goes on behind it, unless that
begins with a digit after `\0` or with the line feed of a line continuation. -/
theorem Grammar.Characters.readCharacters_append {quote : Char} {token denoted rest : List Char}
    (characters : Characters quote token denoted) (isQuote : quote = '\'' ∨ quote = '"')
    (opening : List Char) (noDigit : startsWithDigit rest = false)
    (noLineFeed : token.getLast? = some '\r' → rest.head? ≠ some '\n') :
    Path.readCharacters quote opening (token ++ rest) =
      (Path.readCharacters quote opening rest).map fun read => (denoted ++ read.1, read.2) := by
  have notBackslash : '\\' ≠ quote := by rcases isQuote with rfl | rfl <;> decide
  have getLast?_append : ∀ {front back : List Char}, back.getLast? = some '\r' →
      (front ++ back).getLast? = some '\r' := by
    intro front back last
    rw [List.getLast?_append, last]
    rfl
  induction characters with
  | nil =>
      rw [List.nil_append]
      rcases Path.readCharacters quote opening rest with fault | ⟨characters, left⟩ <;> rfl
  | @plain first others denoted notQuote notBackslash notBreak _ ih =>
      have further := ih fun last => noLineFeed (@getLast?_append [first] _ last)
      rw [List.cons_append, readCharacters_plain_eq notBreak notQuote notBackslash, further]
      rcases Path.readCharacters quote opening rest with fault | ⟨characters, left⟩ <;> rfl
  | @escape text others denoted found isEscape notOctal further ih =>
      have ends : EscapeEnds text (others ++ rest) := by
        rcases others with _ | ⟨next, others⟩
        · refine ⟨fun _ => noDigit, ?_⟩
          rintro rfl
          exact noLineFeed rfl
        · refine ⟨notOctal, fun _ same => ?_⟩
          cases same
          cases further with
          | plain _ _ noBreak => exact noBreak (Or.inl rfl)
      have escape : readEscape (text ++ others ++ rest) = .ok (found, others ++ rest) := by
        rw [List.append_assoc]
        exact readEscape_of_escape isEscape ends
      have readOthers := ih fun last => noLineFeed (@getLast?_append ('\\' :: text) _ last)
      rw [List.cons_append, readCharacters_backslash_eq notBackslash escape, readOthers]
      rcases Path.readCharacters quote opening rest with fault | ⟨characters, left⟩
      · rfl
      · simp [Except.map]

theorem Grammar.Characters.readCharacters {quote : Char} {token denoted : List Char}
    (characters : Characters quote token denoted) (isQuote : quote = '\'' ∨ quote = '"')
    (opening rest : List Char) :
    readCharacters quote opening (token ++ quote :: rest) = .ok (denoted, rest) := by
  have noDigit : startsWithDigit (quote :: rest) = false := by rcases isQuote with rfl | rfl <;> rfl
  have notBreak : ¬(quote = '\n' ∨ quote = '\r') := by rcases isQuote with rfl | rfl <;> decide
  have closing : Path.readCharacters quote opening (quote :: rest) = .ok ([], rest) := by
    rw [Path.readCharacters.eq_def]
    simp only [notBreak, if_false, if_true]
  rw [characters.readCharacters_append isQuote opening noDigit
    fun _ same => notBreak (Or.inl (Option.some.inj same)), closing]
  simp [Except.map]

end Graft.Path
