import PenRover.Session

/-!
# Drawing from the console

A drawing from the console runs in the foreground.  While it waits, others have their turns: the
stops that the user has asked for, and the background task of the link.  What the clock makes of
that is not told here; it is given beforehand, wait by wait, who has a turn and whether the wait is
over before a stop that is still asked for.

The user interrupts when a wait begins.  This stops nothing yet: it asks for a stop, which has its
turn when the drawing waits, and a wait that takes no time can be over before.  When the run is over
the user is not listened to any more, and a stop that has had no turn by then is lost.  How a stop
ended is learned only after the run.
-/

namespace PenRover

/-- Who has a turn while the drawing waits. -/
inductive Turn where
  /-- A stop, if one is asked for. -/
  | stop
  /-- The background task of the link begins, if it was called. -/
  | settle
  /-- The background task of the link wakes, if it is asleep. -/
  | wake
  deriving DecidableEq

/-- What happens during a wait of the drawing. -/
structure Pause where
  /-- Those who have a turn, one after another. -/
  turns : List Turn
  /-- The wait is over before the stops that are still asked for then. -/
  hasty : Bool
  deriving DecidableEq

/-- A session that is drawn from the console. -/
structure Console where
  session : Session
  /-- The waits at whose beginning the user interrupts, all waits being counted from one. -/
  interrupts : List Nat
  /-- What happens during the waits of the drawing that are to come, and after the run.  During a
  wait that is not listed all stops that are asked for have their turn. -/
  pauses : List Pause
  /-- How many stops are asked for. -/
  asked : Nat
  /-- How the stops ended that have had their turn. -/
  stops : List (Except Fault Unit)

namespace Console

/-- The console before a drawing. -/
def new (session : Session) (interrupts : List Nat) (pauses : List Pause) : Console :=
  ⟨session, interrupts, pauses, 0, []⟩

/-- An action of the session. -/
def inSession {α : Type} (act : Act Session α) : Act Console α := fun c =>
  let (result, session, journal) := act c.session
  (result, { c with session }, journal)

/-- The user interrupts if the wait that has just begun is one of those, and so asks for a stop. -/
def interrupt : Act Console Unit := Act.modify fun c =>
  if c.interrupts.contains c.session.clock.begun then { c with asked := c.asked + 1 } else c

/-- A stop has its turn, if one is asked for. -/
def stop : Act Console Unit := fun c =>
  match c.asked with
  | 0 => (.ok (), c, [])
  | asked + 1 =>
    let (result, session, journal) := Session.stop c.session
    (.ok (), { c with session, asked, stops := c.stops ++ [result] }, journal)

/-- An action of the background task, which may begin a wait. -/
def background (act : Act Session Unit) : Act Console Unit := do
  let before := (← Act.state).session.clock.begun
  inSession act
  if before < (← Act.state).session.clock.begun then interrupt

/-- Somebody has a turn. -/
def take : Turn → Act Console Unit
  | .stop => stop
  | .settle => background Session.settle
  | .wake => do
    match (← Act.state).session.link.alarm? with
    | none => return ()
    | some alarm => background (Session.wake alarm)

/-- Some have their turns, one after another. -/
def takeAll : List Turn → Act Console Unit
  | [] => pure ()
  | turn :: rest => do
    take turn
    takeAll rest

/-- What happens next while the drawing waits. -/
def pause : Act Console Pause := fun c =>
  match c.pauses with
  | [] => (.ok ⟨[], false⟩, c, [])
  | pause :: rest => (.ok pause, { c with pauses := rest }, [])

/-- The drawing waits. -/
def idle : Act Console Unit := do
  let pause ← pause
  takeAll pause.turns
  if !pause.hasty then takeAll (List.replicate (← Act.state).asked .stop)

/-- A wait of the drawing.  When its alarm cannot be set it fails at once. -/
def wait (time : Value) : Act Console Unit := do
  let length ← inSession (Session.beginWait time)
  interrupt
  let alarm ← inSession (Session.setAlarm length)
  idle
  inSession (Session.endWait alarm)

/-- The console as a stage. -/
def stage : Script.Stage Console where
  settings c := c.session.settings
  aborted c := c.session.aborted
  drive left right := inSession (Session.drive left right)
  wait := wait

/-- Looks at how some stops ended, up to the first that failed. -/
def review : List (Except Fault Unit) → Act Console Unit
  | [] => pure ()
  | result :: rest => do
    Act.ofExcept result
    review rest

/-- The user is not listened to any more.  If there were stops, others have their turns while they
are looked at, and this ends as the first of them that failed. -/
def collectStops : Act Console Unit := do
  Act.modify fun c => { c with interrupts := [] }
  let c ← Act.state
  if c.asked ≠ 0 ∨ c.stops ≠ [] then takeAll (← pause).turns
  review (← Act.state).stops

/-- Draws a drawing.  The link is closed after the run, unless a stop failed. -/
def draw (commands : List Command) : Act Console Outcome := do
  inSession Session.open
  let result ← Act.attempt ((Script.draw commands).play stage)
  collectStops
  inSession Session.close
  Act.ofExcept result

end Console

end PenRover
