import Graft.Path.Error

/-!
# Where reading stops

The readers of path expressions take the text that is left and give what they read with the text
after it, or a fault. A fault holds the text that was left where the fault was noticed, so its
position is known from the expression alone. Whatever a reader leaves is an end of what it was
given.
-/

namespace Graft.Path

/-- What stopped a reader, and the text that was left there. -/
structure Fault where
  rest : List Char
  reason : Reason
deriving DecidableEq

/-- The text at the fault, or after what was read, is an end of the given text. -/
def LeavesSuffix {α : Type} (text : List Char) : Except Fault (α × List Char) → Prop
  | .ok (_, rest) => rest <:+ text
  | .error fault => fault.rest <:+ text

/-- A reader that began further on leaves an end of the longer text too. -/
theorem LeavesSuffix.trans {α : Type} {text inner : List Char}
    {result : Except Fault (α × List Char)} (within : inner <:+ text)
    (leaves : LeavesSuffix inner result) : LeavesSuffix text result := by
  cases result <;> exact List.IsSuffix.trans leaves within

end Graft.Path
