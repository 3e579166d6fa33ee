import Graft.Fault.Mapping
import Graft.Json.Reader
import Graft.Path.Error

/-!
# Faults of documents

Whatever can go wrong from the file of a mapping document to the result of its mapping falls into
five kinds. The wording of a fault in JSON text goes no further than to say that the text could not
be read.
-/

namespace Graft

/-- What is wrong with JSON text that was to hold a document. -/
inductive TextFault where
  /-- It is no JSON. -/
  | unreadable (fault : Json.ReadFault)
  /-- It is JSON, but no document. -/
  | noDocument
deriving DecidableEq

/-- Why a document, or JSON text, could not be used. -/
inductive DocumentError where
  /-- A path expression is malformed. -/
  | path (error : Path.PathError)
  /-- A mapping could not be built or run. -/
  | mapping (error : MappingError)
  /-- The text of a document is unusable. -/
  | document (fault : TextFault)
  /-- A JSON text is unreadable. -/
  | json (fault : Json.ReadFault)
  /-- A file could not be read. -/
  | file (name : String)
  /-- The system reported a failure in words of its own. -/
  | system (report : String)
deriving DecidableEq

/-- The kinds of faults. -/
inductive ErrorKind where
  | path
  | construction
  | runtime
  | json
  | io
deriving DecidableEq

/-- The name of a kind. -/
def ErrorKind.name : ErrorKind → String
  | .path => "path"
  | .construction => "construction"
  | .runtime => "runtime"
  | .json => "json"
  | .io => "io"

namespace DocumentError

/-- The kind of an error. -/
def kind : DocumentError → ErrorKind
  | .path _ => .path
  | .mapping error => if error.isConstruction then .construction else .runtime
  | .document _ => .json
  | .json _ => .json
  | .file _ => .io
  | .system _ => .io

/-- The message of an error. -/
def message : DocumentError → String
  | .path error => error.message
  | .mapping error => error.message
  | .document (.unreadable _) => "JSON error: Failed to parse mapping document: "
  | .document .noDocument =>
      "JSON error: Failed to parse mapping document: " ++
        "data did not match any variant of untagged enum MappingDocument"
  | .json _ => "JSON error: "
  | .file name => "IO error: Failed to read mapping document from " ++ Text.quoted name
  | .system report => "IO error: " ++ report

end DocumentError

end Graft
