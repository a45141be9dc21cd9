import PenRover.Motion.Script

/-!
# Maneuvers

The robot has no sensors: every movement is a fixed power for a fixed time.  A turn is driven in
quarter turns.  Each quarter is an arc to one side and an arc back that is bent the other way, which
leaves the pen roughly in place.  Each movement takes the settings of the moment when it begins.
-/

namespace PenRover

/-- The powers and the time of the arcs of a quarter turn. -/
structure Arc where
  power : Value
  time : Value
  /-- The factor of the left wheel on the way out, and of the right wheel on the way back. -/
  near : Int
  /-- The factor of the right wheel on the way out, and of the left wheel on the way back. -/
  far : Int

namespace Script

/-- Requests two multiples of a power. -/
def goTimes (power : Value) (left right : Int) : Script Unit := do
  let l ← ofExcept (power.scale left)
  let r ← ofExcept (power.scale right)
  go l r

/-- The arcs of one quarter turn. -/
def quarter (arc : Arc) : Script Unit := do
  goTimes arc.power (-arc.near) (-arc.far)
  pause arc.time
  goTimes arc.power arc.far arc.near
  pause arc.time

/-- A number of quarter turns. -/
def quarters (arc : Arc) : Nat → Script Unit
  | 0 => pure ()
  | n + 1 => do
    quarter arc
    quarters arc n

/-- Turns by an angle, to the nearer side and rounded to quarter turns. -/
def turnBy (turn : Number) : Script Unit := do
  let (clockwise, angle) ← ofExcept (nearerSide turn)
  let count ← ofExcept (quarterTurns angle)
  let shown ← ofExcept angle.toDouble
  say (.turn clockwise shown count)
  let settings ← settings
  quarters ⟨settings.turnPower, settings.turnPhaseTime, if clockwise then 2 else 1,
    if clockwise then 1 else 2⟩ count.toNat
  halt

/-- Drives forward.  The chassis drives forward with negative power. -/
def goForward (distance : Number) : Script Unit := do
  let settings ← settings
  let time ← ofExcept (settings.forwardTimePerUnit.times distance)
  let shown ← ofExcept distance.toDouble
  say (.forward shown)
  let power ← ofExcept settings.forwardPower.negate
  go power power
  pause time
  halt

/-- Performs a command at a pose; gives its displacement and the pose after it. -/
def perform (command : Command) (pose : Pose Number) :
    Script (Displacement Number × Pose Number) := do
  let displacement ← ofExcept (command.displacement pose)
  let turn ← ofExcept displacement.turn.toDouble
  let distance ← ofExcept displacement.distance.toDouble
  say (.displacement command turn distance)
  turnBy displacement.turn
  goForward displacement.distance
  match pose.advance displacement.vector displacement.heading with
  | (_, some fault) => .fail fault
  | (next, none) => return (displacement, next)

/-- Draws commands from a pose, the first of them having this index out of a total.  The abort flag
is looked at before each command and once at the end. -/
def drawFrom (index total : Nat) (pose : Pose Number) : List Command → Script Outcome
  | [] => do
    if ← aborted then
      say (.stoppedAt pose)
      return .cancelled
    else
      say (.completedAt pose)
      return .completed
  | command :: rest => do
    if ← aborted then
      say (.stoppedAt pose)
      return .cancelled
    else
      say (.began index total command)
      let (_, next) ← perform command pose
      pause (← settings).settleDelay
      drawFrom (index + 1) total next rest

/-- Draws a drawing from the pose in which every drawing starts. -/
def draw (commands : List Command) : Script Outcome :=
  drawFrom 1 commands.length Pose.start commands

end Script

end PenRover
