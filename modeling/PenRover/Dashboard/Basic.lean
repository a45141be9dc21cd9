import PenRover.Session
import PenRover.Settings.File
import PenRover.Status

/-!
# The dashboard

The dashboard keeps a drawing, a status and the settings, and draws in the background.  Every
drawing that is started gets a session of its own, which the dashboard knows by its number, and a
run that uses it.  While everything waits, each run in progress stands at the alarm of its own wait,
and the background task of each link may stand at another.

The dashboard refuses to start a drawing while a session is in use.  That there is a run in progress
exactly then is not in the types: the session in use and the runs in progress are set at different
places.
-/

namespace PenRover

/-- What a session keeps while it is not acting: its link and its abort flag. -/
structure Controls where
  link : Link
  aborted : Bool

/-- A run in progress: the number of its session, its drawing, and where its script stands. -/
structure Run where
  session : Nat
  drawing : List Command
  alarm : Alarm
  next : Script Outcome

/-- The state of the dashboard. -/
structure Dashboard where
  settings : Settings
  /-- The name of the settings file. -/
  settingsFile : Text
  disk : Disk
  /-- How many bytes there is room for in the settings file, if there is a limit. -/
  room : Option Nat
  /-- The drawing that is loaded. -/
  drawing : Option (List Command)
  status : Status
  /-- The number of the session in use. -/
  current : Option Nat
  /-- All sessions so far. -/
  sessions : List Controls
  /-- The runs in progress. -/
  runs : List Run
  air : Air
  clock : Clock

/-- Who waits for an alarm. -/
inductive Sleeper where
  | drawing (run : Run)
  /-- The background task of the link of a session. -/
  | link (session : Nat) (alarm : Alarm)

/-- The alarm that somebody waits for. -/
def Sleeper.alarm : Sleeper → Alarm
  | .drawing run => run.alarm
  | .link _ alarm => alarm

/-- The one whose alarm rings first. -/
def Sleeper.first? : List Sleeper → Option Sleeper
  | [] => none
  | sleeper :: rest =>
    match first? rest with
    | none => some sleeper
    | some other => some (if other.alarm.before sleeper.alarm then other else sleeper)

namespace Dashboard

/-- A dashboard to which nothing happened yet. -/
def new (settings : Settings) (settingsFile : Text) (disk : Disk) (air : Air) : Dashboard :=
  ⟨settings, settingsFile, disk, none, none, .idle, none, [], [], air, Clock.start⟩

/-- The controls of the session with this number. -/
def controls (d : Dashboard) (n : Nat) : Controls := d.sessions.getD n ⟨.rehearsal [], false⟩

/-- Acts in the session with this number. -/
def inSession {α : Type} (d : Dashboard) (n : Nat) (act : Act Session α) :
    Except Fault α × Dashboard × Journal :=
  let (result, s, journal) :=
    act ⟨d.settings, (d.controls n).link, (d.controls n).aborted, d.air, d.clock⟩
  (result, { d with
    sessions := d.sessions.set n ⟨s.link, s.aborted⟩, air := s.air, clock := s.clock }, journal)

/-- A run is over: its status is shown, and its link begins to close.  The session stays in use. -/
def conclude (d : Dashboard) (n : Nat) (status : Status) : Dashboard :=
  let (_, d, _) := d.inSession n Session.leave
  { d with status }

/-- The link of a run that is over is closed, and no session is in use any more. -/
def release (d : Dashboard) (n : Nat) : Dashboard × Journal :=
  let (_, d, closing) := d.inSession n Session.hangUp
  ({ d with current := none }, closing)

/-- The end of a run. -/
def endRun (d : Dashboard) (n : Nat) (status : Status) (journal : Journal) : Dashboard × Journal :=
  let (d, closing) := (d.conclude n status).release n
  (d, journal ++ closing)

/-- The next piece of a run, up to its next wait or to its end; gives the status that its end shows.
A fault ends the run with an error status; a run that was stopped leaves the status as it is. -/
def advance (d : Dashboard) (n : Nat) (drawing : List Command)
    (piece : Act Session (Session.Standing Outcome)) : Option Status × Dashboard × Journal :=
  match d.inSession n piece with
  | (.ok (.waiting alarm next), d, journal) =>
    (none, { d with runs := d.runs ++ [⟨n, drawing, alarm, next⟩] }, journal)
  | (.ok (.ended outcome), d, journal) =>
    let status := match outcome with
      | .completed => .finished
      | .cancelled => d.status
    (some status, d, journal ++ [.note (.drawingEnded outcome)])
  | (.error fault, d, journal) =>
    (some (.failed ("Drawing failed: " ++ fault.message)), d,
      journal ++ [.note (.drawingFailed fault)])

/-- The next piece of a run, and its end if that is reached. -/
def proceed (d : Dashboard) (n : Nat) (drawing : List Command)
    (piece : Act Session (Session.Standing Outcome)) : Dashboard × Journal :=
  match d.advance n drawing piece with
  | (none, d, journal) => (d, journal)
  | (some status, d, journal) => d.endRun n status journal

/-- The first piece of a run: the link is opened, and the drawing begins. -/
def begin (d : Dashboard) (n : Nat) (drawing : List Command) : Dashboard × Journal :=
  d.proceed n drawing do
    Session.open
    Session.resume (Script.draw drawing)

/-- Lets the background tasks of the links of these sessions begin. -/
def settleSessions (d : Dashboard) : List Nat → Dashboard × Journal
  | [] => (d, [])
  | n :: rest =>
    let (_, d, journal) := d.inSession n Session.settle
    let (d, more) := d.settleSessions rest
    (d, journal ++ more)

/-- Lets the background tasks of the links begin. -/
def settle (d : Dashboard) : Dashboard × Journal :=
  d.settleSessions (List.range d.sessions.length)

/-- All who wait for an alarm. -/
def sleepers (d : Dashboard) : List Sleeper :=
  d.runs.map .drawing ++ (List.range d.sessions.length).filterMap fun n =>
    (d.controls n).link.alarm?.map (.link n)

/-- Somebody wakes. -/
def wake (d : Dashboard) : Sleeper → Dashboard × Journal
  | .drawing run =>
    let others := d.runs.filter fun other => other.session != run.session
    let d := { d with runs := others, clock := d.clock.ring run.alarm }
    d.proceed run.session run.drawing (Session.resume run.next)
  | .link n alarm =>
    let (_, d, journal) := d.inSession n (Session.wake alarm)
    (d, journal)

/-- Somebody wakes, and then the background tasks that were asked for begin. -/
def wakeAndSettle (d : Dashboard) (sleeper : Sleeper) : Dashboard × Journal :=
  let (d, journal) := d.wake sleeper
  let (d, more) := d.settle
  (d, journal ++ more)

/-- The first alarm rings; gives whether there was one. -/
def tick (d : Dashboard) : Bool × Dashboard × Journal :=
  match Sleeper.first? d.sleepers with
  | none => (false, d, [])
  | some sleeper => (true, d.wakeAndSettle sleeper)

/-- Up to `n` alarms ring; gives how many there were. -/
def ticks (n : Nat) (d : Dashboard) : Nat × Dashboard × Journal :=
  match n with
  | 0 => (0, d, [])
  | n + 1 =>
    match d.tick with
    | (false, d, journal) => (0, d, journal)
    | (true, d, journal) =>
      let (count, d, more) := ticks n d
      (count + 1, d, journal ++ more)

end Dashboard

end PenRover
