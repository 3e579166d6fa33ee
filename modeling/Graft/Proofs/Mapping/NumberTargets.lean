import Graft.Mapping.RuleSet
import Graft.Proofs.Json.Agreement
import Graft.Proofs.Json.BestEffort
import Graft.Proofs.Json.NumberText
import Graft.Proofs.Path.WholeNumerals
import Graft.Rule.Choices

/-!
# Numbers as targets and in path expressions

A number stands for a key in two places: in a path that a rule describes in JSON, and in brackets in
a path expression. The expression reads it as the nearest double. JSON keeps all digits of an
integer of at most 64 bits, and otherwise takes the double that its reader of doubles gives. The two
keys are the same just if what JSON reads has the value of the nearest double.
-/

namespace Graft

open Graft.Path Grammar

namespace Number

variable {whole : Nat} {lower : leastSigned ≤ (whole : Int)} {upper : (whole : Int) < unsignedCount}

theorem whole_le_of_lt (upper : (whole : Int) < unsignedCount) : whole ≤ 2 ^ 64 := by
  have past : unsignedCount = 18446744073709551616 := by decide
  omega

theorem exists_ofRatio? (upper : (whole : Int) < unsignedCount) :
    ∃ read, Binary64.ofRatio? false whole 1 = some read := by
  have small : (whole : Int).natAbs ≤ 2 ^ 64 := whole_le_of_lt upper
  rcases Binary64.exists_ofInt? small with ⟨read, isRead⟩
  exact ⟨read, isRead⟩

theorem value_eq_natCast_iff {read : Binary64}
    (isRead : Binary64.ofRatio? false whole 1 = some read) :
    read.value = (whole : Int) ↔ Binary64.roundWhole whole = whole := by
  rcases Binary64.units_of_ofRatio? isRead with ⟨sign, units⟩
  have signedUnits : read.signedUnits =
      (Binary64.roundWhole whole * Binary64.unitsInOne : Nat) := by
    rw [Binary64.signedUnits, sign, units]
    rfl
  rw [Binary64.value_eq_intCast_iff, signedUnits, ← Int.natCast_mul, Nat.cast_inj]
  exact Nat.mul_left_inj Binary64.unitsInOne_pos.ne'

/-- An integer is a double as it stands just if its nearest double has its value. -/
theorem isExact_integer_iff {read : Binary64}
    (isRead : Binary64.ofRatio? false whole 1 = some read) :
    (integer whole lower upper).IsExact ↔ read.value = (whole : Int) := by
  have nearest : read.IsNearest (whole : Int) := Binary64.isNearest_of_ofInt? isRead
  constructor
  · rintro ⟨double, isValue⟩
    exact (nearest.value_eq (Binary64.isNearest_of_value_eq isValue)).trans isValue
  · intro isValue
    exact ⟨read, isValue⟩

/-- A double spells its nearest whole number, and an integer itself. -/
theorem key_integer_eq_literalKey_iff :
    (integer whole lower upper).key = literalKey (Binary64.ofRatio? false whole 1) ↔
      Binary64.roundWhole whole = whole := by
  rcases exists_ofRatio? upper with ⟨read, isRead⟩
  have small : Binary64.roundWhole whole < Nat.pow 10 21 := by
    have least := Binary64.monotone_roundWhole (whole_le_of_lt upper)
    rw [Binary64.roundWhole_two_pow] at least
    exact least.trans_lt (by decide)
  have isKey : (integer whole lower upper).key = String.ofList (Nat.toDigits 10 whole) :=
    Nat.repr_eq_ofList_toDigits
  rw [isRead, literalKey, Binary64.keyText_of_ofRatio? isRead small, isKey, String.ofList_inj]
  constructor
  · intro same
    have values := congrArg (fun digits => Nat.ofDigitChars 10 digits 0) same
    simp only [Nat.ofDigitChars_ten_toDigits] at values
    exact values.symm
  · intro same
    rw [same]

section Literals

variable {readFloat : Json.FloatReader} {digits : List Char} {fraction : Option (List Char)}
  {exponent : Option Int} {number : Number}
  (isNumber : Json.numberOfLiteral? readFloat false digits fraction exponent = some number)
include isNumber

/-- What a literal without a sign is read as: an integer if it is no more than digits, and otherwise
a double without a sign. -/
theorem cases_of_numberOfLiteral? :
    (∃ lower upper, fraction = none ∧ exponent = none ∧
        number = integer (Nat.ofDigitChars 10 digits 0 : Nat) lower upper) ∨
      ∃ magnitude, readFloat ⟨digits, fraction.getD [], exponent.getD 0⟩ = some magnitude ∧
        number = float { magnitude with negative := false } := by
  simp only [Json.numberOfLiteral?, Bool.false_eq_true, if_false, false_and] at isNumber
  split at isNumber
  case isTrue integral =>
    rcases integral with ⟨noFraction, noExponent, _, lower, upper⟩
    cases isNumber
    exact Or.inl ⟨lower, upper, noFraction, noExponent, rfl⟩
  case isFalse =>
    rcases Option.map_eq_some_iff.mp isNumber with ⟨magnitude, isRead, rfl⟩
    exact Or.inr ⟨magnitude, isRead, rfl⟩

/-- The key of a number in JSON is the key of the literal in a path expression just if the number
has the value of the double nearest to the literal. -/
theorem key_eq_literalKey_iff :
    number.key =
        literalKey (DecimalLiteral.toBinary64? false ⟨digits, fraction.getD [], exponent.getD 0⟩) ↔
      ∃ double, DecimalLiteral.toBinary64? false ⟨digits, fraction.getD [], exponent.getD 0⟩ =
          some double ∧ double.value = number.value := by
  rcases cases_of_numberOfLiteral? isNumber with
    ⟨lower, upper, rfl, rfl, rfl⟩ | ⟨magnitude, _, rfl⟩
  · rw [Option.getD_none, Option.getD_none, DecimalLiteral.toBinary64?_of_digits,
      key_integer_eq_literalKey_iff]
    rcases exists_ofRatio? upper with ⟨read, isRead⟩
    rw [← value_eq_natCast_iff isRead, isRead]
    constructor
    · intro isValue
      exact ⟨read, rfl, isValue⟩
    · rintro ⟨_, same, isValue⟩
      cases same
      exact isValue
  · generalize DecimalLiteral.mk digits (fraction.getD []) (exponent.getD 0) = literal
    have unsigned : ∀ number, literal.toBinary64? false = some number → number.negative = false :=
      fun _ => Binary64.negative_of_ofDecimal?
    have alsoUnsigned : ∀ number, some { magnitude with negative := false } = some number →
        number.negative = false := by
      rintro _ ⟨⟩
      rfl
    refine (literalKey_inj alsoUnsigned unsigned).trans ?_
    constructor
    · intro same
      exact ⟨_, same.symm, rfl⟩
    · rintro ⟨double, isRead, isValue⟩
      have sign := unsigned double isRead
      have rank := Binary64.rank_eq_of_value_eq isValue
      rw [isRead]
      cases double
      cases sign
      cases rank
      rfl

/-- An integer, and what is read as the nearest double, has the value of the nearest double just if
it is a double as it stands. -/
theorem key_eq_literalKey_iff_isExact
    (kept : number.IsInteger ∨
      readFloat ⟨digits, fraction.getD [], exponent.getD 0⟩ =
        DecimalLiteral.toBinary64? false ⟨digits, fraction.getD [], exponent.getD 0⟩) :
    number.key =
        literalKey (DecimalLiteral.toBinary64? false ⟨digits, fraction.getD [], exponent.getD 0⟩) ↔
      number.IsExact := by
  rcases cases_of_numberOfLiteral? isNumber with
    ⟨lower, upper, rfl, rfl, rfl⟩ | ⟨magnitude, isRead, rfl⟩
  · rcases exists_ofRatio? upper with ⟨read, isRead⟩
    rw [Option.getD_none, Option.getD_none, DecimalLiteral.toBinary64?_of_digits,
      key_integer_eq_literalKey_iff, isExact_integer_iff isRead, value_eq_natCast_iff isRead]
  · rw [key_eq_literalKey_iff isNumber]
    refine iff_of_true ?_ (isExact_float _)
    rcases kept with impossible | nearest
    · cases impossible
    · rw [isRead] at nearest
      have sign : magnitude.negative = false := Binary64.negative_of_ofDecimal? nearest.symm
      refine ⟨magnitude, nearest.symm, ?_⟩
      rw [value, ← sign]

/-- What a short literal is read as is a double as it stands. -/
theorem isExact_of_isShort
    (short : DecimalLiteral.IsShort ⟨digits, fraction.getD [], exponent.getD 0⟩) :
    number.IsExact := by
  rcases cases_of_numberOfLiteral? isNumber with ⟨lower, upper, rfl, rfl, rfl⟩ | ⟨_, _, rfl⟩
  · have small := short.1
    rw [DecimalLiteral.digits, Option.getD_none, List.append_nil] at small
    exact isExact_of_natAbs_lt lower upper small
  · exact isExact_float _

end Literals

end Number

theorem Json.isBlank_of_isBlank {character : Char} (blank : Json.isBlank character) :
    Path.isBlank character := by
  simp only [Json.isBlank, Bool.or_eq_true, decide_eq_true_eq] at blank
  rcases blank with ((rfl | rfl) | rfl) | rfl <;> decide

theorem Path.skipBlanks_openBracket (rest : List Char) :
    skipBlanks ('[' :: rest) = '[' :: rest :=
  @skipBlanks_append [] _ (by simp [Blanks]) (by simp; decide)

namespace KeyPath

/-- A literal in brackets is read as the only key of a path. -/
theorem ofExpression_brackets {literal : String} {key : String}
    (read : readBracket (literal.toList ++ [']']) = .ok (key, [])) :
    ofExpression ("[" ++ literal ++ "]") = .ok [key] := by
  have isText : ("[" ++ literal ++ "]").toList = '[' :: (literal.toList ++ [']']) := by simp
  have keys : readKeys ('[' :: (literal.toList ++ [']'])) = .ok [key] := by
    have noMore : readAccessors [] = .ok [] := by
      rw [readAccessors.eq_def]
      rfl
    simp only [readKeys, skipBlanks_openBracket, readRoot, read, noMore]
  have visible : ('[' :: (literal.toList ++ [']'])).all Unicode.isWhiteSpace = false := by
    rw [List.all_cons]
    exact Bool.and_eq_false_imp.mpr fun blank => absurd blank (by decide)
  simp only [ofExpression, isText, visible, keys, Bool.false_eq_true, if_false]

/-- No number with a minus is read in brackets. -/
theorem ofExpression_minus_ne_ok {literal : String} {before rest : List Char} {path : KeyPath}
    (blanks : Blanks before) (isLiteral : before ++ '-' :: rest = literal.toList) :
    ofExpression ("[" ++ literal ++ "]") ≠ .ok path := by
  intro read
  have isText : ("[" ++ literal ++ "]").toList = '[' :: (before ++ '-' :: (rest ++ [']'])) := by
    simp [← isLiteral]
  have trimmed : skipBlanks (before ++ '-' :: (rest ++ [']'])) = '-' :: (rest ++ [']']) :=
    skipBlanks_append blanks (by simp; decide)
  have refused : readLiteral ('-' :: (rest ++ [']'])) =
      .error ⟨'-' :: (rest ++ [']']), .literalExpected '-'⟩ := by
    have noStart : isIdentifierStart '-' = false := by decide +kernel
    simp [readLiteral, noStart]
  simp only [ofExpression, isText, readKeys, skipBlanks_openBracket, readRoot, readBracket, trimmed,
    refused] at read
  split at read <;> cases read

end KeyPath

namespace RuleSet

/-- The text is a decimal numeral with blanks around it. -/
def SpellsDecimal (text : String) (decimal : DecimalLiteral) : Prop :=
  ∃ before token after, Blanks before ∧ DecimalNumeral token decimal ∧ Blanks after ∧
    before ++ (token ++ after) = text.toList

/-- A number that JSON and path expressions can read is a decimal numeral. A rule that gives the
number in JSON as the only key sends its leaf to a path of one key, and so does the path expression
with the literal in brackets. The paths are the same just if what JSON reads has the value of the
double nearest to the literal, however JSON reads doubles. If it keeps an integer, or if it reads
the nearest double, the paths are the same just if the number is a double as it stands. A short
literal gives the same path also where JSON is read without exact arithmetic. -/
theorem destination_numberTarget {readFloat : Json.FloatReader} {rules : RuleSet}
    {leaf path : KeyPath} {depthLimit : Option Nat} {literal : String} {number : Number}
    (isNumber : Json.readText readFloat depthLimit literal = .ok (.number number))
    (isPath : KeyPath.ofExpression ("[" ++ literal ++ "]") = .ok path)
    (isTarget : (rules.reference.target leaf).value = .json (.array #[.number number])) :
    ∃ decimal, SpellsDecimal literal decimal ∧
      path = [literalKey (decimal.toBinary64? false)] ∧
      (rules.destination leaf).value = .ok (some [number.key]) ∧
      ([number.key] = path ↔
        ∃ double, decimal.toBinary64? false = some double ∧ double.value = number.value) ∧
      (number.IsInteger ∨ readFloat decimal = decimal.toBinary64? false →
        ([number.key] = path ↔ number.IsExact)) ∧
      (readFloat = Json.bestEffort → decimal.IsShort → [number.key] = path) := by
  have resolved : (rules.destination leaf).value = .ok (some [number.key]) := by
    rw [destination, Logged.value_bind, isTarget]
    rfl
  rcases Json.scalar_of_readText isNumber rfl with
    ⟨before, first, rest, after, blanksBefore, isText, scalar, blanksAfter⟩
  have before_blanks : Blanks before :=
    fun character inside => Json.isBlank_of_isBlank (blanksBefore character inside)
  have after_blanks : Blanks after :=
    fun character inside => Json.isBlank_of_isBlank (blanksAfter character inside)
  rcases Json.readNumber_of_readScalar scalar with rfl | unsigned
  · exact absurd isPath (KeyPath.ofExpression_minus_ne_ok before_blanks isText)
  · rcases Json.numeral_of_readNumber unsigned with
      ⟨token, whole, fraction, exponent, decimal, isValue, isToken⟩
    have read := (Numeral.decimal decimal).isReadAs before after [] before_blanks after_blanks
    rw [← isToken] at isText
    have isLiteral : before ++ (token ++ (after ++ [']'])) = literal.toList ++ [']'] := by
      rw [← isText]
      simp
    rw [isLiteral] at read
    have onlyKey := isPath.symm.trans (KeyPath.ofExpression_brackets read)
    cases onlyKey
    refine ⟨_, ⟨before, token, after, before_blanks, decimal, after_blanks, isText⟩, rfl, resolved,
      ?_, fun kept => ?_, fun isReader short => ?_⟩
    · rw [List.singleton_inj, Number.key_eq_literalKey_iff isValue]
    · rw [List.singleton_inj, Number.key_eq_literalKey_iff_isExact isValue kept]
    · subst isReader
      have isNearest := Json.bestEffort_of_isShort short
      rw [List.singleton_inj, Number.key_eq_literalKey_iff_isExact isValue (Or.inr isNearest)]
      exact Number.isExact_of_isShort isValue short

/-- The rules that send every leaf to one key, which a number in JSON stands for. -/
def numbered (number : Number) : RuleSet where
  reference := .custom (Choice.constant (.array #[.number number]))
  values := []

/-- The double that JSON reads from `1.50`. -/
def oneAndHalf : Binary64 := ⟨false, 1023 <<< 52 + 1 <<< 51, by decide⟩

theorem destination_numberTarget_oneAndHalf :
    Json.ofText none "1.50" = .ok (.number (.float oneAndHalf)) ∧
      KeyPath.ofExpression ("[" ++ "1.50" ++ "]") = .ok ["1.5"] ∧
      ((numbered (.float oneAndHalf)).destination ["price"]).value = .ok (some ["1.5"]) ∧
      ∃ decimal, SpellsDecimal "1.50" decimal ∧
        ∃ double, decimal.toBinary64? false = some double ∧ double.value = oneAndHalf.value := by
  have isNumber : Json.readText Json.bestEffort none "1.50" = .ok (.number (.float oneAndHalf)) :=
    @Json.readText_of_readScalar _ none '1' ['.', '5', '0'] _ (by decide) (by decide)
      (by decide +kernel)
  have isPath : KeyPath.ofExpression ("[" ++ "1.50" ++ "]") = .ok ["1.5"] :=
    KeyPath.ofExpression_brackets (by decide +kernel)
  have isTarget : ((numbered (.float oneAndHalf)).reference.target ["price"]).value =
      .json (.array #[.number (.float oneAndHalf)]) := rfl
  have isKey : [(Number.float oneAndHalf).key] = ["1.5"] := by decide +kernel
  rcases destination_numberTarget isNumber isPath isTarget with
    ⟨decimal, spells, _, sent, same, _⟩
  rw [isKey] at sent
  exact ⟨isNumber, isPath, sent, decimal, spells, same.mp isKey⟩

/-- The integer `2 ^ 53 + 1` lies half-way between two doubles. JSON keeps it, and the path
expression rounds it. -/
theorem destination_numberTarget_rounded :
    Json.ofText none "9007199254740993" =
        .ok (.number (.integer 9007199254740993 (by decide) (by decide))) ∧
      KeyPath.ofExpression ("[" ++ "9007199254740993" ++ "]") = .ok ["9007199254740992"] ∧
      ((numbered (.integer 9007199254740993 (by decide) (by decide))).destination ["price"]).value =
        .ok (some ["9007199254740993"]) := by
  refine ⟨?_, ?_, ?_⟩
  · exact @Json.readText_of_readScalar _ none '9' "007199254740993".toList _ (by decide) (by decide)
      (by decide +kernel)
  · exact KeyPath.ofExpression_brackets (by decide +kernel)
  · decide +kernel

end RuleSet

end Graft
