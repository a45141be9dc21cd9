import PenRover.Geometry.Polar

/-!
# Poses and displacements

The pose of the robot is where its pen stands and where it faces.  A displacement says how the robot
gets to the next pose: a turn, a way forward, and what both do to the pose.
-/

namespace PenRover

open Arithmetic

/-- A position and a heading. -/
structure Pose (α : Type) where
  position : α × α
  heading : α

/-- A turn followed by a way forward, with the vector they cover and the heading they end in. -/
structure Displacement (α : Type) where
  turn : α
  distance : α
  vector : α × α
  heading : α

namespace Pose

variable {α : Type} [Arithmetic α]

/-- The pose in which every drawing starts: at the origin, facing up the page. -/
def start : Pose α := ⟨(whole 0, whole 0), quarterTurn⟩

/-- The pose moved by a vector. -/
def move (pose : Pose α) (vector : α × α) : Except Fault (Pose α) := do
  let x ← add pose.position.1 vector.1
  let y ← add pose.position.2 vector.2
  return { pose with position := (x, y) }

/-- The pose with a new heading, brought into one turn. -/
def face (pose : Pose α) (heading : α) : Except Fault (Pose α) := do
  return { pose with heading := ← normalizeAngle heading }

/-- The pose after a displacement, and the fault that stopped it on the way.  The position is kept
even when the heading cannot be computed. -/
def advance (pose : Pose α) (vector : α × α) (heading : α) : Pose α × Option Fault :=
  match pose.move vector with
  | .error fault => (pose, some fault)
  | .ok moved =>
    match moved.face heading with
    | .error fault => (moved, some fault)
    | .ok faced => (faced, none)

end Pose

/-- The text of a pose in messages. -/
def Pose.text (pose : Pose Number) : String :=
  "Pose(position=(" ++ pose.position.1.text ++ ", " ++ pose.position.2.text ++ "), heading=" ++
    pose.heading.text ++ ")"

end PenRover
