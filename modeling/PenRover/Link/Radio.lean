import PenRover.Clock
import PenRover.Journal

/-!
# The radio link

Frames go to the robot over one connection.  A frame sent while there is none is dropped.  After a
failure the link calls the robot again in the background: it waits, tries to connect, and goes on
until there is a connection.  Failures to connect never reach the drawing, except for those that are
not provided for.

The background task is *called* from the moment it is asked for until it first runs, which is when
the task that asked for it waits.  Then it is *asleep*, or it is *dialing*.

A connection attempt takes its time, and so does the closing of a connection: other things can
happen between the beginning and the end of either.  An attempt begins when it takes its reply from
the air, and is written down when it ends.  The beginning and the end are operations of their own
(`redial` and `redialed`, `leave` and `hangUp`; `opened` is the end of the attempt to open the
link), and `open`, `wake` and `close` are what they come to when nothing happens in between.
-/

namespace PenRover

/-- How the coming connection attempts and transmissions will end. -/
structure Air where
  connects : List Reply
  transmissions : List Reply

namespace Air

/-- The end of the next connection attempt; nobody answers once the list is used up. -/
def nextConnect (air : Air) : Reply × Air :=
  match air.connects with
  | [] => (.refused, air)
  | reply :: rest => (reply, { air with connects := rest })

/-- The end of the next transmission; it arrives once the list is used up. -/
def nextTransmission (air : Air) : Reply × Air :=
  match air.transmissions with
  | [] => (.accepted, air)
  | reply :: rest => (reply, { air with transmissions := rest })

end Air

/-- The state of the background task. -/
inductive Retry where
  /-- There is no unfinished task. -/
  | idle
  /-- The task was asked for and has not run yet. -/
  | called
  /-- The task waits. -/
  | asleep (alarm : Alarm)
  /-- The task tries to connect; the attempt will end like this. -/
  | dialing (reply : Reply)
  deriving DecidableEq

/-- A link to one address. -/
structure Radio where
  url : Value
  delay : Value
  connected : Bool
  retry : Retry

namespace Radio

/-- A link that was not opened yet. -/
def new (url delay : Value) : Radio := ⟨url, delay, false, .idle⟩

/-- Asks for the background task, unless there is an unfinished one. -/
def call (radio : Radio) : Radio :=
  match radio.retry with
  | .idle => { radio with retry := .called }
  | _ => radio

/-- The attempt to open the link ends.  Its connection takes the place of any other.  A failure to
connect is noted and leaves the rest to the background task. -/
def opened (radio : Radio) (reply : Reply) : Except Fault Unit × Radio × Journal :=
  let attempt : Journal := [.event (.connect radio.url reply)]
  match reply.fault? with
  | none => (.ok (), { radio with connected := true }, attempt ++ [.note (.connected radio.url)])
  | some .unexpected => (.error .unexpected, radio, attempt)
  | some fault => (.ok (), radio.call, attempt ++ [.note (.notConnected radio.url fault)])

/-- Opens the link. -/
def «open» (radio : Radio) (air : Air) : Except Fault Unit × Radio × Air × Journal :=
  let (reply, air) := air.nextConnect
  let (result, radio, journal) := radio.opened reply
  (result, radio, air, journal)

/-- Sends bytes.  They are dropped when there is no connection, or when it turns out closed; any
other failure is passed on and leaves the connection as it is. -/
def send (radio : Radio) (air : Air) (bytes : Bytes) : Except Fault Unit × Radio × Air × Journal :=
  if radio.connected then
    let (reply, air) := air.nextTransmission
    let sent : Journal := [.event (.transmit bytes reply)]
    match reply.fault? with
    | none => (.ok (), radio, air, sent)
    | some .connectionClosed =>
      (.ok (), { radio with connected := false }.call, air,
        sent ++ [.note (.droppedClosed radio.url .connectionClosed bytes)])
    | some fault => (.error fault, radio, air, sent)
  else (.ok (), radio.call, air, [.note (.droppedOffline radio.url bytes)])

/-- The link begins to close: the background task ends.  The connection is there until it is hung
up. -/
def leave (radio : Radio) : Radio := { radio with retry := .idle }

/-- The connection is given up. -/
def forget (radio : Radio) : Radio := { radio with connected := false }

/-- The connection is hung up. -/
def hangUp (radio : Radio) : Radio × Journal :=
  (radio.forget, if radio.connected then [.event .hangUp] else [])

/-- Closes the link. -/
def close (radio : Radio) : Radio × Journal := radio.leave.hangUp

/-- The background task begins its wait.  Without a connection it waits for the delay, and it dies
of a delay that is no length of time. -/
def rest (radio : Radio) (clock : Clock) : Radio × Clock × Journal :=
  if radio.connected then ({ radio with retry := .idle }, clock, [])
  else
    match Clock.checkTime radio.delay with
    | .error _ => ({ radio with retry := .idle }, clock, [])
    | .ok time =>
      let waiting : Journal := [.event (.wait radio.delay)]
      match clock.begin.set time with
      | (.error _, clock) => ({ radio with retry := .idle }, clock, waiting)
      | (.ok alarm, clock) => ({ radio with retry := .asleep alarm }, clock, waiting)

/-- Lets the background task begin when it was called. -/
def settle (radio : Radio) (clock : Clock) : Radio × Clock × Journal :=
  match radio.retry with
  | .called => radio.rest clock
  | _ => (radio, clock, [])

/-- The background task wakes and tries to connect. -/
def redial (radio : Radio) (air : Air) : Radio × Air :=
  let (reply, air) := air.nextConnect
  ({ radio with retry := .dialing reply }, air)

/-- The attempt of the background task ends.  The task ends with a connection or with a failure that
is not provided for, and waits again after any other. -/
def redialed (radio : Radio) (clock : Clock) : Radio × Clock × Journal :=
  match radio.retry with
  | .dialing reply =>
    let attempt : Journal := [.event (.connect radio.url reply)]
    match reply.fault? with
    | none =>
      ({ radio with connected := true, retry := .idle }, clock,
        attempt ++ [.note (.connected radio.url)])
    | some .unexpected => ({ radio with retry := .idle }, clock, attempt)
    | some fault =>
      let (radio, clock, waiting) := radio.rest clock
      (radio, clock, attempt ++ [.note (.notConnected radio.url fault)] ++ waiting)
  | _ => (radio, clock, [])

/-- The background task wakes, and its attempt ends. -/
def wake (radio : Radio) (air : Air) (clock : Clock) : Radio × Air × Clock × Journal :=
  let (radio, air) := radio.redial air
  let (radio, clock, journal) := radio.redialed clock
  (radio, air, clock, journal)

/-- The alarm of the background task. -/
def alarm? (radio : Radio) : Option Alarm :=
  match radio.retry with
  | .asleep alarm => some alarm
  | _ => none

end Radio

end PenRover
