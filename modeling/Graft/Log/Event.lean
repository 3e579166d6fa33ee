import Graft.Log.Mode
import Graft.Path.Printer
import Graft.Text.Quoted

/-!
# Events

Reading a document, building a mapping and running it leave a trail of events in the order in which
they happen. An event has a level and a message, and is shown as one log line.
-/

namespace Graft

/-- The levels of events, from the most severe one on. -/
inductive Level where
  | warn
  | debug
  | trace
deriving DecidableEq

namespace Level

/-- The name of a level at the front of a log line. -/
def label : Level → String
  | .warn => "WARN"
  | .debug => "DEBUG"
  | .trace => "TRACE"

/-- Counts levels from the most severe one on. -/
def verbosity : Level → Nat
  | .warn => 0
  | .debug => 1
  | .trace => 2

end Level

/-- How many leaves a run came across, and what became of them. -/
structure Tally where
  visited : Nat := 0
  skipped : Nat := 0
  aborted : Nat := 0
  written : Nat := 0
deriving DecidableEq

/-- An event worth logging. -/
inductive Event where
  /-- A document has a member that means nothing. -/
  | ignoredMember (name : String)
  /-- A document was read from a file. -/
  | loaded (file : String)
  /-- A composition is about to be built. -/
  | composing (stages : Nat) (mode : Mode)
  /-- A stage of a composition is about to run. -/
  | runningStage (mode : Mode) (index : Nat)
  /-- A candidate among several matched a leaf. -/
  | matched (index : Nat) (path : KeyPath)
  /-- A leaf is about to be copied. -/
  | writing (path target : KeyPath)
  /-- A leaf is about to be moved. -/
  | moving (path target : KeyPath)
  /-- A value rule kept a leaf from being written. -/
  | aborted (path : KeyPath)
  /-- Earlier writes took the leaf away. -/
  | gone (path : KeyPath)
  /-- A run came to its end. -/
  | finished (mode : Mode) (tally : Tally)
deriving DecidableEq

namespace Event

/-- The level of an event. -/
def level : Event → Level
  | .ignoredMember _ => .warn
  | .loaded _ => .debug
  | .composing _ _ => .debug
  | .finished _ _ => .debug
  | .runningStage _ _ => .trace
  | .matched _ _ => .trace
  | .writing _ _ => .trace
  | .moving _ _ => .trace
  | .aborted _ => .trace
  | .gone _ => .trace

/-- The message of an event. -/
def message : Event → String
  | .ignoredMember name => "ignoring unknown mapping document key '" ++ name ++ "'"
  | .loaded file => "loaded mapping document from " ++ Text.quoted file
  | .composing stages mode => "composing " ++ toString stages ++ " " ++ mode.name ++ " stages"
  | .runningStage mode index => "running " ++ mode.name ++ " stage " ++ toString index
  | .matched index path => "rule " ++ toString index ++ " matched " ++ path.expression
  | .writing path target => "writing " ++ path.expression ++ " to " ++ target.expression
  | .moving path target => "moving " ++ path.expression ++ " to " ++ target.expression
  | .aborted path => "value map aborted " ++ path.expression
  | .gone path => path.expression ++ " no longer holds a leaf"
  | .finished mode tally =>
      mode.name ++ " walk finished: " ++ toString tally.visited ++ " leaves visited, " ++
        toString tally.skipped ++ " skipped, " ++ toString tally.aborted ++ " aborted, " ++
        toString tally.written ++ " written"

/-- The log line of an event. -/
def line (event : Event) : String := event.level.label ++ " " ++ event.message

end Event

/-- The lines of the events that are at least as severe as the given level. -/
def logLines (level : Level) (events : List Event) : List String :=
  (events.filter fun event => event.level.verbosity ≤ level.verbosity).map Event.line

end Graft
