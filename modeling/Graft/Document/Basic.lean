import Graft.Fault.Document
import Graft.Log.Logged

/-!
# Mapping documents

A mapping document is a JSON object that describes a mapping. It names the mode, the reference rules
and the value rules of a single mapping, or the mode and the stages of a composition; stages are
documents again. An object is tried as a composition first. Rules and stages are kept as they are
written and looked at only when the mapping is built.
-/

namespace Graft

/-- A mapping as a document describes it. -/
inductive Document where
  /-- One reference rule or a list of them, and one value rule, a list of them, or none. -/
  | single (mode : Mode) (reference values : Json)
  /-- Stages in order. -/
  | composition (mode : Mode) (stages : List Json)
deriving DecidableEq

/-- The mode that a value names: by its name alone, or as the only member of an object, without a
value. -/
def Mode.ofJson? : Json → Option Mode
  | .string name => ofName? name
  | .object [(name, .null)] => ofName? name
  | _ => none

namespace Document

/-- The deepest nesting of containers that the text of a document may have. -/
def depthLimit : Nat := 127

/-- The mode of the mapping that a document describes. -/
def mode : Document → Mode
  | .single mode _ _ => mode
  | .composition mode _ => mode

/-- The names that mean something among the members of a document. An object with a member
`compose` is meant as a composition. -/
def knownNames (members : List (String × Json)) : List String :=
  if (members.lookup "compose").isSome then ["compose", "stages"] else ["mode", "ref", "values"]

/-- The names of members that mean nothing. -/
def unknownNames (members : List (String × Json)) : List String :=
  (members.map Prod.fst).filter fun name => !(knownNames members).contains name

/-- The composition that the members of an object describe. -/
def composition? (members : List (String × Json)) : Option Document :=
  match (members.lookup "compose").bind Mode.ofJson?, members.lookup "stages" with
  | some mode, some (.array stages) => some (.composition mode stages.toList)
  | _, _ => none

/-- The single mapping that the members of an object describe. A missing mode means a map. -/
def single? (members : List (String × Json)) : Option Document :=
  let mode :=
    match members.lookup "mode" with
    | none => some Mode.map
    | some value => Mode.ofJson? value
  mode.map fun mode =>
    .single mode ((members.lookup "ref").getD .null) ((members.lookup "values").getD .null)

/-- The document that the members of an object describe. -/
def ofMembers? (members : List (String × Json)) : Option Document :=
  (composition? members).or (single? members)

/-- The document that a value is. Members that mean nothing are reported and ignored. -/
def ofJson (value : Json) : Logged (Except DocumentError Document) :=
  match value with
  | .object members =>
      { value := (ofMembers? members).elim (.error (.document .noDocument)) .ok
        log := (unknownNames members).map .ignoredMember }
  | other => pure (.error (.mapping (.noContainer other)))

/-- The document that a JSON text holds. -/
def ofText (text : String) : Logged (Except DocumentError Document) :=
  match Json.ofText (some depthLimit) text with
  | .ok value => ofJson value
  | .error fault => pure (.error (.document (.unreadable fault)))

/-- The document in a file of the given name, where `contents` are the bytes of the file, if it can
be read. The bytes have to be the UTF-8 form of a text. -/
def ofFile (name : String) (contents : Option ByteArray) :
    Logged (Except DocumentError Document) :=
  match contents.bind String.fromUTF8? with
  | some text => do
      Logged.event (.loaded name)
      ofText text
  | none => pure (.error (.file name))

/-- A document as a JSON value. -/
def toJson : Document → Json
  | .single mode reference values =>
      .object [("mode", .string mode.name), ("ref", reference), ("values", values)]
  | .composition mode stages =>
      .object [("compose", .string mode.name), ("stages", .array stages.toArray)]

end Document

end Graft
