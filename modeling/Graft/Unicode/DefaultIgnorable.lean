import Graft.Unicode.Ranges

/-!
# Ignorable characters

The property `Default_Ignorable_Code_Point`: characters that leave no trace in print unless they are
supported in a special way. Besides joiners, selectors and other controls these are the fillers that
hold the place of a missing Hangul letter.
-/

namespace Graft.Unicode

/-- The code points with the property `Default_Ignorable_Code_Point`, as ascending closed
ranges. -/
def defaultIgnorableRanges : List (Nat × Nat) :=
  [
    (0xAD, 0xAD), (0x34F, 0x34F), (0x61C, 0x61C), (0x115F, 0x1160), (0x17B4, 0x17B5),
    (0x180B, 0x180F), (0x200B, 0x200F), (0x202A, 0x202E), (0x2060, 0x206F), (0x3164, 0x3164),
    (0xFE00, 0xFE0F), (0xFEFF, 0xFEFF), (0xFFA0, 0xFFA0), (0xFFF0, 0xFFF8), (0x1BCA0, 0x1BCA3),
    (0x1D173, 0x1D17A), (0xE0000, 0xE0FFF)]

/-- Whether a character has the property `Default_Ignorable_Code_Point`. -/
def isDefaultIgnorable (character : Char) : Bool :=
  inRanges defaultIgnorableRanges character.toNat

/-- The Hangul fillers are ignorable, and the letters next to them are not. -/
example : ("\u115f\u1160\u3164\uffa0".toList.all isDefaultIgnorable) = true ∧
    ("\u115e\u1161\u3163\u3165\uffa1".toList.any isDefaultIgnorable) = false := by
  decide +kernel

end Graft.Unicode
