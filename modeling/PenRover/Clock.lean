import PenRover.Value.Basic

/-!
# The clock

Tasks wait by alarms.  An alarm rings when its time has come; of two alarms that are due together
the one that was set first rings first.
-/

namespace PenRover

/-- When a wait is over, and how many alarms were set before. -/
structure Alarm where
  due : Float
  order : Nat
  deriving DecidableEq

/-- The time, how many waits have begun, and how many alarms have been set. -/
structure Clock where
  now : Float
  begun : Nat
  alarms : Nat
  deriving DecidableEq

namespace Clock

/-- The clock before anything happened. -/
def start : Clock := ⟨0, 0, 0⟩

/-- A value is a length of time when it is a number or a flag. -/
def checkTime (time : Value) : Except Fault Number :=
  match time.number? with
  | some n => .ok n
  | none => .error (.cannotWait time.kind)

/-- A wait begins. -/
def begin (clock : Clock) : Clock := { clock with begun := clock.begun + 1 }

/-- The seconds until a wait of this length is over.  A wait that is not longer than nothing is over
at once, however far below zero its length lies; a length above the range of doubles is none. -/
def seconds (length : Number) : Except Fault Float :=
  match length.toDouble with
  | .ok seconds => .ok seconds
  | .error fault => if length.le (.int 0) then .ok 0 else .error fault

/-- Sets an alarm after a length of time. -/
def set (clock : Clock) (length : Number) : Except Fault Alarm × Clock :=
  ((Clock.seconds length).map fun seconds => ⟨clock.now + seconds, clock.alarms⟩,
    { clock with alarms := clock.alarms + 1 })

/-- The clock when an alarm rings; it never goes back. -/
def ring (clock : Clock) (alarm : Alarm) : Clock :=
  if clock.now < alarm.due then { clock with now := alarm.due } else clock

end Clock

/-- The first alarm rings before the second: it is due earlier, or it was set earlier and is not due
later. -/
def Alarm.before (a b : Alarm) : Bool :=
  if a.order < b.order then !(b.due < a.due) else a.due < b.due

end PenRover
