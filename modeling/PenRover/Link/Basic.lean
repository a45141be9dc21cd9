import PenRover.Link.Radio
import PenRover.Settings.Basic

/-!
# Links

A drawing is sent over the radio, or it is rehearsed: a rehearsal notes the frames and keeps them.
-/

namespace PenRover

/-- Where frames go. -/
inductive Link where
  /-- Nowhere; the frames are kept in order. -/
  | rehearsal (frames : List Bytes)
  /-- To the robot. -/
  | radio (radio : Radio)

namespace Link

/-- The link that the settings ask for. -/
def ofSettings (settings : Settings) : Link :=
  if settings.dryRun.isTrue then .rehearsal []
  else .radio (Radio.new settings.robotUrl settings.reconnectDelay)

/-- The attempt to open the link begins, if that takes one; gives how it will end. -/
def dial (link : Link) (air : Air) : Option Reply × Air :=
  match link with
  | .rehearsal _ => (none, air)
  | .radio _ =>
    let (reply, air) := air.nextConnect
    (some reply, air)

/-- The attempt to open the link ends. -/
def opened (link : Link) (reply : Reply) : Except Fault Unit × Link × Journal :=
  match link with
  | .rehearsal frames => (.ok (), .rehearsal frames, [])
  | .radio r =>
    let (result, r, journal) := r.opened reply
    (result, .radio r, journal)

/-- Sends bytes.  A rehearsal takes frames of three bytes only. -/
def send (link : Link) (air : Air) (bytes : Bytes) : Except Fault Unit × Link × Air × Journal :=
  match link with
  | .rehearsal frames =>
    match Frame.ofBytes bytes with
    | .error fault => (.error fault, .rehearsal frames, air, [])
    | .ok frame =>
      (.ok (), .rehearsal (frames ++ [bytes]), air,
        [.note (.rehearsed frame), .event (.frame frame)])
  | .radio r =>
    let (result, r, air, journal) := r.send air bytes
    (result, .radio r, air, journal)

/-- The link begins to close. -/
def leave : Link → Link
  | .rehearsal frames => .rehearsal frames
  | .radio r => .radio r.leave

/-- The connection is given up. -/
def forget : Link → Link
  | .rehearsal frames => .rehearsal frames
  | .radio r => .radio r.forget

/-- The connection is hung up. -/
def hangUp (link : Link) : Link × Journal :=
  match link with
  | .rehearsal frames => (.rehearsal frames, [])
  | .radio r =>
    let (r, journal) := r.hangUp
    (.radio r, journal)

/-- Lets the background task of the link begin. -/
def settle (link : Link) (clock : Clock) : Link × Clock × Journal :=
  match link with
  | .rehearsal frames => (.rehearsal frames, clock, [])
  | .radio r =>
    let (r, clock, journal) := r.settle clock
    (.radio r, clock, journal)

/-- The background task of the link wakes. -/
def redial (link : Link) (air : Air) : Link × Air :=
  match link with
  | .rehearsal frames => (.rehearsal frames, air)
  | .radio r =>
    let (r, air) := r.redial air
    (.radio r, air)

/-- The attempt of the background task ends. -/
def redialed (link : Link) (clock : Clock) : Link × Clock × Journal :=
  match link with
  | .rehearsal frames => (.rehearsal frames, clock, [])
  | .radio r =>
    let (r, clock, journal) := r.redialed clock
    (.radio r, clock, journal)

/-- The alarm of the background task. -/
def alarm? : Link → Option Alarm
  | .rehearsal _ => none
  | .radio r => r.alarm?

end Link

end PenRover
