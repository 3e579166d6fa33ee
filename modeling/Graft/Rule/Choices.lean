import Graft.Rule.Reference

/-!
# Choices for custom reference rules

Ready-made functions for `ReferenceRule.custom`: paths are lengthened, flattened to one key and
unflattened again, cut and turned round, moved from one branch to another, or looked up in a table.
-/

namespace Graft.Choice

/-- Declines every leaf. -/
def declineAll : KeyPath → Target := fun _ => .noMatch

/-- Puts the same text in front of every key. -/
def prefixed (front : String) : KeyPath → Target :=
  fun path => .path (path.map fun key => front ++ key)

/-- Moves every leaf one level down, under the given key. -/
def below (key : String) : KeyPath → Target := fun path => .path (path.child key)

/-- Gives every leaf the written form of its path as its only key. -/
def flatten : KeyPath → Target := fun path => .path [path.expression]

/-- Reads the first key as a path expression, and declines what is none. -/
def unflatten (path : KeyPath) : Target :=
  match path with
  | [] => .noMatch
  | key :: _ =>
      match KeyPath.ofExpression key with
      | .ok target => .path target
      | .error _ => .noMatch

/-- Keeps the last `count` keys, in reverse order. -/
def collapse (count : Nat) : KeyPath → Target := fun path => .path (path.reverse.take count)

/-- Moves the branch at one path to another path, and declines the leaves outside. -/
def rebase (branch onto : KeyPath) : KeyPath → Target := fun path =>
  if branch.isAtOrAbove path then .path (onto ++ path.drop branch.length) else .noMatch

/-- Sends every leaf where the value says. -/
def constant (value : Json) : KeyPath → Target := fun _ => .json value

/-- Looks the path up in a table, and falls back on a default if there is one. -/
def table (cases : List (KeyPath × Json)) (fallback : Option Json) : KeyPath → Target := fun path =>
  match cases.find? (fun entry => entry.1 = path), fallback with
  | some (_, value), _ => .json value
  | none, some value => .json value
  | none, none => .noMatch

end Graft.Choice
