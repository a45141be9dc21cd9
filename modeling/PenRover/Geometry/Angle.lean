import PenRover.Geometry.Arithmetic

/-!
# Angles

Angles are in radians.  A heading is brought into one turn, and a turn is driven to the nearer side
in whole quarters.
-/

namespace PenRover

open Arithmetic

variable {α : Type} [Arithmetic α]

/-- The angle less whole turns.  What is left within the tolerance of no turn at all is exactly
zero, so that rounding noise never becomes a rotation. -/
def normalizeAngle (angle : α) : Except Fault α := do
  let turns ← floor (← div angle fullTurn)
  let rest ← sub angle (← mul (exact turns) fullTurn)
  return if below tolerance rest then rest else whole 0

/-- Degrees in radians. -/
def radiansOfDegrees (degrees : α) : Except Fault α := do
  div (← mul degrees fullTurn) (exact 360)

/-- The side to turn to: clockwise when the turn is more than half a turn, and then by the rest of
the full turn. -/
def nearerSide (turn : α) : Except Fault (Bool × α) :=
  if upTo turn halfTurn then return (false, turn)
  else do return (true, ← sub fullTurn turn)

/-- The number of quarter turns nearest to an angle, a half going up. -/
def quarterTurns (angle : α) : Except Fault Int := do
  floor (← add (← div (← mul (exact 2) angle) halfTurn) half)

end PenRover
