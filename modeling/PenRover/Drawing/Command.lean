import PenRover.Geometry.Pose
import PenRover.Text.Basic

/-!
# Commands

A drawing is a list of commands.  Each takes two integers and compiles, at a pose, to a
displacement: a turn and a way forward.
-/

namespace PenRover

open Arithmetic

/-- One command of a drawing. -/
inductive Command where
  /-- A line to a point. -/
  | lineTo (x y : Int)
  /-- A line along a vector. -/
  | lineBy (dx dy : Int)
  /-- A line in an absolute direction, given in degrees; a negative length is driven the other
  way. -/
  | lineAt (angle length : Int)
  deriving DecidableEq, Repr

/-- The words that name the commands in a drawing file. -/
inductive Keyword where
  | lineTo
  | lineBy
  | lineAt
  deriving DecidableEq, Repr

namespace Keyword

/-- All keywords. -/
def all : List Keyword := [.lineTo, .lineBy, .lineAt]

/-- How a keyword is written. -/
def spelling : Keyword → String
  | .lineTo => "lineto"
  | .lineBy => "rlineto"
  | .lineAt => "rlinerot"

/-- The keyword that a text spells. -/
def ofText? (t : Text) : Option Keyword := all.find? fun k => t == Text.ofString k.spelling

/-- The command with this keyword and these two numbers. -/
def command : Keyword → Int → Int → Command
  | .lineTo => .lineTo
  | .lineBy => .lineBy
  | .lineAt => .lineAt

end Keyword

namespace Command

/-- The keyword of a command. -/
def keyword : Command → Keyword
  | .lineTo .. => .lineTo
  | .lineBy .. => .lineBy
  | .lineAt .. => .lineAt

/-- The two numbers of a command. -/
def arguments : Command → Int × Int
  | .lineTo x y => (x, y)
  | .lineBy dx dy => (dx, dy)
  | .lineAt angle length => (angle, length)

/-- The text of a command in messages. -/
def text : Command → String
  | .lineTo x y => "LineTo(x=" ++ toString x ++ ", y=" ++ toString y ++ ")"
  | .lineBy dx dy => "RelativeLineTo(dx=" ++ toString dx ++ ", dy=" ++ toString dy ++ ")"
  | .lineAt angle length =>
    "RelativeLineRot(angle=" ++ toString angle ++ ", distance=" ++ toString length ++ ")"

variable {α : Type} [Arithmetic α]

/-- The displacement along a vector.  A vector within the tolerance keeps the heading. -/
def towards (pose : Pose α) (dx dy : α) : Except Fault (Displacement α) := do
  let (phi, r) ← toPolar dx dy
  if upTo r tolerance then return ⟨whole 0, whole 0, (dx, dy), pose.heading⟩
  else return ⟨← normalizeAngle (← sub phi pose.heading), r, (dx, dy), phi⟩

/-- The displacement in a direction.  A negative length is the same vector, driven forward along the
opposite heading. -/
def along (pose : Pose α) (angle length : Int) : Except Fault (Displacement α) := do
  let phi ← radiansOfDegrees (exact angle : α)
  let r ← measured (exact length : α)
  let vector ← ofPolar phi r
  let backwards := below r (exact 0)
  let direction ← if backwards then add phi (← radiansOfDegrees (exact 180)) else pure phi
  let heading ← normalizeAngle direction
  let turn ← normalizeAngle (← sub heading pose.heading)
  return ⟨turn, if backwards then neg r else r, vector, heading⟩

/-- The displacement that a command stands for at a pose. -/
def displacement (command : Command) (pose : Pose α) : Except Fault (Displacement α) :=
  match command with
  | .lineTo x y => do
    let dx ← sub (exact x) pose.position.1
    let dy ← sub (exact y) pose.position.2
    towards pose dx dy
  | .lineBy dx dy => towards pose (exact dx) (exact dy)
  | .lineAt angle length => along pose angle length

end Command

end PenRover
