/-!
# Status

What the dashboard shows: a message and how serious it is.
-/

namespace PenRover

/-- How serious a status is. -/
inductive Severity where
  | info
  | error
  deriving DecidableEq, Repr

/-- The word for a severity. -/
def Severity.word : Severity → String
  | .info => "info"
  | .error => "error"

/-- A status of the dashboard. -/
inductive Status where
  /-- No drawing is loaded. -/
  | idle
  /-- A drawing is loaded. -/
  | ready
  /-- A drawing is being drawn. -/
  | running
  /-- The last drawing was drawn to its end. -/
  | finished
  /-- The drawing was stopped. -/
  | aborted
  /-- Something failed; the message says what. -/
  | failed (message : String)
  deriving DecidableEq, Repr

namespace Status

/-- The message of a status. -/
def message : Status → String
  | .idle => "Load a drawing file."
  | .ready => "File ready!"
  | .running => "Drawing started!"
  | .finished => "Drawing finished."
  | .aborted => "Drawing aborted! Load the file again to start over."
  | .failed message => message

/-- The severity of a status. -/
def severity : Status → Severity
  | .aborted | .failed _ => .error
  | _ => .info

end Status

end PenRover
