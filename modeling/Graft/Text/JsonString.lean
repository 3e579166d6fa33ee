/-!
# JSON strings in written form

A string is written between quotes. A quote and a backslash are escaped, the five controls with a
short escape use it, the other controls below the space are written as `\u00xx`, and every other
character stands for itself.
-/

namespace Graft.Text

/-- The written form of one character inside a JSON string. -/
def escapeJson (character : Char) : List Char :=
  match character with
  | '"' => ['\\', '"']
  | '\\' => ['\\', '\\']
  | '\n' => ['\\', 'n']
  | '\r' => ['\\', 'r']
  | '\t' => ['\\', 't']
  | '\x08' => ['\\', 'b']
  | '\x0c' => ['\\', 'f']
  | _ =>
      if character.toNat < 0x20 then
        ['\\', 'u', '0', '0', Nat.digitChar (character.toNat / 16),
          Nat.digitChar (character.toNat % 16)]
      else [character]

/-- The written form of a string, quotes included. -/
def quoteJson (characters : List Char) : List Char :=
  '"' :: (characters.flatMap escapeJson ++ ['"'])

end Graft.Text
