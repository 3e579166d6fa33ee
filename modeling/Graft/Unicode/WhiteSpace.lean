import Graft.Unicode.Ranges

/-!
# White space

The property `White_Space`: the ASCII blanks, the next-line control, and the space, line and
paragraph separators.
-/

namespace Graft.Unicode

/-- The code points with the property `White_Space`, as ascending closed ranges. -/
def whiteSpaceRanges : List (Nat × Nat) :=
  [
    (0x09, 0x0D), (0x20, 0x20), (0x85, 0x85), (0xA0, 0xA0), (0x1680, 0x1680), (0x2000, 0x200A),
    (0x2028, 0x2029), (0x202F, 0x202F), (0x205F, 0x205F), (0x3000, 0x3000)]

/-- Whether a character has the property `White_Space`. -/
def isWhiteSpace (character : Char) : Bool :=
  inRanges whiteSpaceRanges character.toNat

/-- Every character that the core library takes for white space is white space here too. -/
theorem isWhiteSpace_of_isWhitespace {character : Char} (blank : character.isWhitespace) :
    isWhiteSpace character := by
  simp only [Char.isWhitespace, Bool.or_eq_true, decide_eq_true_eq] at blank
  rcases blank with ((same | same) | same) | same <;> subst same <;> decide

end Graft.Unicode
