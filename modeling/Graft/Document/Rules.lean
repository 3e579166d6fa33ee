import Graft.Document.Basic
import Graft.Rule.Reference
import Graft.Rule.Value

/-!
# Rules in documents

A reference rule in a document is the word `all`, an object with a `path` expression and perhaps a
`to` expression, or an object with a list of keys under `ref` and perhaps another under `to`. A
value rule is an object with `equals` and `replace`, or one with `skip_if`. The forms are tried in
this order, and a form fits only if each of its members has the right type; a `to` that is `null`
counts as absent.
-/

namespace Graft.Document

/-- The strings of an array that holds nothing else. -/
def strings? : Json → Option (List String)
  | .array items => items.toList.mapM fun item =>
      match item with
      | .string text => some text
      | _ => none
  | _ => none

/-- The text of a string. -/
def string? : Json → Option String
  | .string text => some text
  | _ => none

/-- A member that may be absent or `null`, read by `read?`. The outer `none` means that the member
has the wrong type. -/
def optional? {α : Type} (read? : Json → Option α) (found : Option Json) : Option (Option α) :=
  match found with
  | none => some none
  | some .null => some none
  | some value => (read? value).map some

/-- The reference rule that a value describes, if it has the form of one. -/
def referenceRule? (value : Json) : Except Path.PathError (Option ReferenceRule) :=
  match value with
  | .string word => .ok (if word = "all" then some .all else none)
  | .object members =>
      let expressions := (members.lookup "path").bind string?
      let expressionTarget := optional? string? (members.lookup "to")
      let keys := (members.lookup "ref").bind strings?
      let keysTarget := optional? strings? (members.lookup "to")
      match expressions, expressionTarget, keys, keysTarget with
      | some source, some target, _, _ => (ReferenceRule.ofExpressions source target).map some
      | _, _, some source, some target => .ok (some (.ofPaths source target))
      | _, _, _, _ => .ok none
  | _ => .ok none

/-- The reference rules of a list whose first element has the given index. -/
def referenceRules (index : Nat) : List Json → Except DocumentError (List ReferenceRule)
  | [] => .ok []
  | value :: others =>
      match referenceRule? value with
      | .error error => .error (.path error)
      | .ok none => .error (.mapping (.badElement index value))
      | .ok (some rule) => (referenceRules (index + 1) others).map (rule :: ·)

/-- The rule that the reference rules of a document make together. -/
def buildReference (spec : Json) : Except DocumentError ReferenceRule :=
  match spec with
  | .array items => (referenceRules 0 items.toList).map .firstOf
  | other =>
      match referenceRule? other with
      | .error error => .error (.path error)
      | .ok none => .error (.mapping (.noReferenceRule other))
      | .ok (some rule) => .ok rule

/-- The value rule that a value describes, if it has the form of one. -/
def valueRule? : Json → Option ValueRule
  | .object members =>
      match members.lookup "equals", members.lookup "replace", members.lookup "skip_if" with
      | some value, some replacement, _ => some (.replace value replacement)
      | _, _, some value => some (.skip value)
      | _, _, _ => none
  | _ => none

/-- The value rules of a list whose first element has the given index. -/
def valueRules (index : Nat) : List Json → Except DocumentError (List ValueRule)
  | [] => .ok []
  | value :: others =>
      match valueRule? value with
      | none => .error (.mapping (.badElement index value))
      | some rule => (valueRules (index + 1) others).map (rule :: ·)

/-- The value rules of a document. -/
def buildValues (spec : Json) : Except DocumentError ValueRules :=
  match spec with
  | .null => .ok (.many [])
  | .array items => (valueRules 0 items.toList).map .many
  | other =>
      match valueRule? other with
      | some rule => .ok (.one rule)
      | none => .error (.mapping (.noValueRules other))

end Graft.Document
