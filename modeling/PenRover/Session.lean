import PenRover.Link.Basic
import PenRover.Motion.Maneuver
import PenRover.Motion.Power

/-!
# Sessions

A session is what one drawing run works with: the settings, the link to the robot, the abort flag,
the radio conditions and the clock.  Once the abort flag is up no frame is handed to the link any
more; the waits of the command in flight still take place.
-/

namespace PenRover

/-- What one drawing run works with. -/
structure Session where
  settings : Settings
  link : Link
  aborted : Bool
  air : Air
  clock : Clock

namespace Session

/-- A new session whose link is the one that the settings ask for. -/
def new (settings : Settings) (air : Air) (clock : Clock) : Session :=
  ⟨settings, Link.ofSettings settings, false, air, clock⟩

/-! ## The link -/

/-- The attempt to open the link begins, if that takes one; gives how it will end. -/
def dial : Act Session (Option Reply) := fun s =>
  let (reply, air) := s.link.dial s.air
  (.ok reply, { s with air }, [])

/-- The attempt to open the link ends. -/
def opened (reply : Reply) : Act Session Unit := fun s =>
  let (result, link, journal) := s.link.opened reply
  (result, { s with link }, journal)

/-- Opens the link. -/
def «open» : Act Session Unit := do
  match ← dial with
  | none => return ()
  | some reply => opened reply

/-- Hands bytes to the link. -/
def send (bytes : Bytes) : Act Session Unit := fun s =>
  let (result, link, air, journal) := s.link.send s.air bytes
  (result, { s with link, air }, journal)

/-- The link begins to close. -/
def leave : Act Session Unit := Act.modify fun s => { s with link := s.link.leave }

/-- The connection is given up. -/
def forget : Act Session Unit := Act.modify fun s => { s with link := s.link.forget }

/-- The connection is hung up. -/
def hangUp : Act Session Unit := fun s =>
  let (link, journal) := s.link.hangUp
  (.ok (), { s with link }, journal)

/-- Closes the link. -/
def close : Act Session Unit := do
  leave
  hangUp

/-- Lets the background task of the link begin. -/
def settle : Act Session Unit := fun s =>
  let (link, clock, journal) := s.link.settle s.clock
  (.ok (), { s with link, clock }, journal)

/-- The background task of the link wakes by its alarm and tries to connect. -/
def redial (alarm : Alarm) : Act Session Unit := fun s =>
  let (link, air) := s.link.redial s.air
  (.ok (), { s with link, air, clock := s.clock.ring alarm }, [])

/-- The attempt of the background task ends. -/
def redialed : Act Session Unit := fun s =>
  let (link, clock, journal) := s.link.redialed s.clock
  (.ok (), { s with link, clock }, journal)

/-- The background task of the link wakes by its alarm, and its attempt ends. -/
def wake (alarm : Alarm) : Act Session Unit := do
  redial alarm
  redialed

/-- Wakes the background task when it is asleep, and tells whether it was. -/
def tick : Act Session Bool := fun s =>
  match s.link.alarm? with
  | none => (.ok false, s, [])
  | some alarm => (do wake alarm; return true : Act Session Bool) s

/-! ## The motors -/

/-- Requests powers for the wheels.  Powers that fit no frame are passed over, and so are all powers
once the abort flag is up. -/
def drive (left right : Value) : Act Session Unit := do
  if left.isDisplayable && right.isDisplayable then
    Act.write [.note (.powers left right)]
    match ← Act.ofExcept (Frame.ofPowers? left right) with
    | none => Act.write [.note (.ignoredPowers left right)]
    | some frame =>
      if (← Act.state).aborted then return ()
      else send frame.toBytes
  else Act.fail .tooLongToWrite

/-- Raises the abort flag. -/
def abort : Act Session Unit := Act.modify fun s => { s with aborted := true }

/-- Stops the motors, and then raises the abort flag, which ends the run at the next command. -/
def stop : Act Session Unit := do
  drive (.int 0) (.int 0)
  abort

/-! ## Waits -/

/-- Begins a wait and gives its length.  A value that is no length of time fails at once. -/
def beginWait (time : Value) : Act Session Number := do
  let length ← Act.ofExcept (Clock.checkTime time)
  Act.write [.event (.wait time)]
  Act.modify fun s => { s with clock := s.clock.begin }
  return length

/-- Sets the alarm of a wait. -/
def setAlarm (length : Number) : Act Session Alarm := fun s =>
  let (alarm, clock) := s.clock.set length
  (alarm, { s with clock }, [])

/-- Ends a wait. -/
def endWait (alarm : Alarm) : Act Session Unit :=
  Act.modify fun s => { s with clock := s.clock.ring alarm }

/-! ## Runs in pieces -/

/-- Where a script stands: at its end, or in a wait. -/
inductive Standing (α : Type) where
  | ended (result : α)
  | waiting (alarm : Alarm) (next : Script α)

/-- Acts a script out up to its next wait, whose alarm is then set. -/
def resume {α : Type} : Script α → Act Session (Standing α)
  | .finish a => Act.pure (.ended a)
  | .fail fault => Act.fail fault
  | .note n next => do
    Act.write [.note n]
    resume next
  | .consult next => fun s => resume (next s.settings) s
  | .poll next => fun s => resume (next s.aborted) s
  | .drive left right next => do
    drive left right
    resume next
  | .wait time next => do
    let alarm ← setAlarm (← beginWait time)
    return .waiting alarm next

/-! ## Rehearsals -/

/-- The stage of a session on which nothing happens during a wait, except that the session is
stopped when one of these waits begins.  Waits are counted from one. -/
def rehearsal (stops : Nat → Bool) : Script.Stage Session where
  settings := Session.settings
  aborted := Session.aborted
  drive := drive
  wait time := do
    let length ← beginWait time
    if stops (← Act.state).clock.begun then stop
    endWait (← setAlarm length)

end Session

end PenRover
