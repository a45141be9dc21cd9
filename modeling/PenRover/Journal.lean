import PenRover.Disk
import PenRover.Drawing.Instructions
import PenRover.Motion.Frame
import PenRover.Numeric.Places
import PenRover.Settings.Basic

/-!
# The journal

Everything that happens is an entry: an event that others can see (a frame, a wait, a connection),
or a note for the reader of the log.  A note is what it is about; its level, its source and its
wording are functions of it.
-/

namespace PenRover

/-- How a connection attempt or a transmission ends. -/
inductive Reply where
  | accepted
  | refused
  | timedOut
  | badHandshake
  | closed
  /-- A failure that is not provided for. -/
  | unexpected
  deriving DecidableEq, Repr

/-- The fault of a reply. -/
def Reply.fault? : Reply → Option Fault
  | .accepted => none
  | .refused => some .refused
  | .timedOut => some .timedOut
  | .badHandshake => some .badHandshake
  | .closed => some .connectionClosed
  | .unexpected => some .unexpected

/-- What can be seen from outside. -/
inductive Event where
  /-- A frame was handed to the rehearsal. -/
  | frame (frame : Frame)
  /-- A wait began. -/
  | wait (time : Value)
  /-- A connection was attempted. -/
  | connect (url : Value) (reply : Reply)
  /-- Bytes were transmitted over a connection. -/
  | transmit (bytes : Bytes) (reply : Reply)
  /-- A connection was closed. -/
  | hangUp

/-- How a drawing ended. -/
inductive Outcome where
  /-- All commands were performed. -/
  | completed
  /-- The drawing was stopped. -/
  | cancelled
  deriving DecidableEq, Repr

/-- The word for an outcome. -/
def Outcome.word : Outcome → String
  | .completed => "completed"
  | .cancelled => "cancelled"

/-- What a note is about. -/
inductive Note where
  /-- Powers were requested. -/
  | powers (left right : Value)
  /-- Powers were requested that no frame can hold. -/
  | ignoredPowers (left right : Value)
  /-- A turn to one side, by an angle and by quarters. -/
  | turn (clockwise : Bool) (angle : Float) (quarters : Int)
  /-- A way forward. -/
  | forward (distance : Float)
  /-- A command and its displacement. -/
  | displacement (command : Command) (turn distance : Float)
  /-- A command of a drawing began; commands are counted from one. -/
  | began (index total : Nat) (command : Command)
  | stoppedAt (pose : Pose Number)
  | completedAt (pose : Pose Number)
  /-- A frame that was only rehearsed. -/
  | rehearsed (frame : Frame)
  | connected (url : Value)
  | notConnected (url : Value) (fault : Fault)
  /-- Bytes were dropped for lack of a connection. -/
  | droppedOffline (url : Value) (bytes : Bytes)
  /-- Bytes were dropped because the connection turned out closed. -/
  | droppedClosed (url : Value) (fault : Fault) (bytes : Bytes)
  | drawingRejected (error : DrawingError)
  | drawingLoaded (commands : Nat)
  | drawingEnded (outcome : Outcome)
  | drawingFailed (fault : Fault)
  | drawingStopped
  | settingsNotSaved (error : WriteError)
  | settingsUpdated (entries : List (Text × Value))
  /-- A drawing file could not be read, for a reason given in words. -/
  | fileUnreadable (name : Text) (reason : String)
  | fileRejected (error : DrawingError)
  | fileDrawn (outcome : Outcome)
  | previewWritten (commands : Nat) (name : Text)

/-- How important a note is. -/
inductive Level where
  | debug
  | info
  | warning
  | error
  deriving DecidableEq, Repr

namespace Level

/-- Levels in ascending order of importance. -/
def rank : Level → Nat
  | .debug => 0
  | .info => 1
  | .warning => 2
  | .error => 3

/-- The name of a level in the log. -/
def name : Level → String
  | .debug => "DEBUG"
  | .info => "INFO"
  | .warning => "WARNING"
  | .error => "ERROR"

end Level

namespace Note

/-- The level of a note. -/
def level : Note → Level
  | .powers .. | .ignoredPowers .. | .turn .. | .forward .. | .displacement .. => .debug
  | .notConnected .. | .droppedOffline .. | .droppedClosed .. => .warning
  | .drawingFailed .. | .settingsNotSaved .. | .fileUnreadable .. | .fileRejected .. => .error
  | _ => .info

/-- The part of the program that a note comes from. -/
def source : Note → String
  | .powers .. | .ignoredPowers .. | .turn .. | .forward .. => "borsuk.driver"
  | .displacement .. => "borsuk.drawing"
  | .began .. | .stoppedAt .. | .completedAt .. => "borsuk.sequencer"
  | .rehearsed .. | .connected .. | .notConnected .. | .droppedOffline .. | .droppedClosed .. =>
    "borsuk.transport"
  | _ => "borsuk"

/-- The wording of a note. -/
def message : Note → Text
  | .powers left right => "engines l " ++ left.shown ++ (", r " : Text) ++ right.shown
  | .ignoredPowers left right =>
    "Ignoring invalid engine powers l " ++ left.shown ++ (", r " : Text) ++ right.shown
  | .turn clockwise angle quarters =>
    Text.ofString ("turn cw: " ++ (if clockwise then "True" else "False") ++ " by " ++
      Double.toPlaces 3 angle ++ " (" ++ toString quarters ++ " quarter turns)")
  | .forward distance => Text.ofString ("go forward for " ++ Double.toPlaces 3 distance)
  | .displacement command angle length =>
    Text.ofString (command.text ++ ": turn " ++ Double.toPlaces 3 angle ++ " rad, forward " ++
      Double.toPlaces 3 length)
  | .began index total command =>
    Text.ofString ("Command " ++ toString index ++ "/" ++ toString total ++ ": " ++ command.text)
  | .stoppedAt pose => Text.ofString ("Drawing aborted at " ++ pose.text)
  | .completedAt pose => Text.ofString ("Drawing completed at " ++ pose.text)
  | .rehearsed frame =>
    Text.ofString ("engines l " ++ toString frame.left.toInt ++ ", r " ++
      toString frame.right.toInt ++ ", auto stop " ++ toString frame.autoStop.toInt)
  | .connected url => "Connected to " ++ url.shown
  | .notConnected url fault =>
    "Connecting to " ++ url.shown ++ Text.ofString (" failed: " ++ fault.message)
  | .droppedOffline url bytes =>
    "Not connected to " ++ url.shown ++ Text.ofString (", dropping frame " ++ bytes.hex)
  | .droppedClosed url fault bytes =>
    "Connection to " ++ url.shown ++
      Text.ofString (" closed (" ++ fault.message ++ "), dropping frame " ++ bytes.hex)
  | .drawingRejected error => Text.ofString ("Rejected drawing file: " ++ error.message)
  | .drawingLoaded commands =>
    Text.ofString ("Loaded drawing file with " ++ toString commands ++ " commands")
  | .drawingEnded outcome => Text.ofString ("Drawing finished: " ++ outcome.word)
  | .drawingFailed fault => Text.ofString ("Error during drawing: " ++ fault.message)
  | .drawingStopped => "Drawing aborted"
  | .settingsNotSaved error => Text.ofString ("Failed to save configuration: " ++ error.message)
  | .settingsUpdated entries =>
    Text.ofString ("Configuration updated: " ++ (Value.record entries).display)
  | .fileUnreadable name reason =>
    "Cannot read " ++ name ++ Text.ofString (": " ++ reason)
  | .fileRejected error => Text.ofString ("Rejected drawing: " ++ error.message)
  | .fileDrawn outcome => Text.ofString ("Drawing " ++ outcome.word)
  | .previewWritten commands name =>
    Text.ofString ("Preview of " ++ toString commands ++ " commands written to ") ++ name

end Note

/-- An entry of the journal. -/
inductive Entry where
  | event (event : Event)
  | note (note : Note)

/-- Entries in the order in which they happened. -/
abbrev Journal := List Entry

namespace Journal

/-- The events of a journal. -/
def events (journal : Journal) : List Event :=
  journal.filterMap fun
    | .event event => some event
    | .note _ => none

/-- The notes of a journal of at least some level. -/
def notes (level : Level) (journal : Journal) : List Note :=
  journal.filterMap fun
    | .event _ => none
    | .note note => if level.rank ≤ note.level.rank then some note else none

end Journal

end PenRover
