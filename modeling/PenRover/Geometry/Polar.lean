import PenRover.Geometry.Angle

/-!
# Polar coordinates

The direction of a vector is measured against the first axis with the law of cosines.  That gives
angles up to half a turn; the direction of a vector that points below the axis is reflected.
-/

namespace PenRover

open Arithmetic

variable {α : Type} [Arithmetic α]

/-- The distance between two points. -/
def distance (p q : α × α) : Except Fault α := do
  let dx ← sub q.1 p.1
  let dy ← sub q.2 p.2
  sqrt (← add (← mul dx dx) (← mul dy dy))

/-- The quantity, or the nearer end of `[-1, 1]` beyond it. -/
def clampCosine (c : α) : α :=
  let high : α := if below c (whole 1) then c else whole 1
  if below (whole (-1)) high then high else whole (-1)

/-- The direction and the length of a vector.  A vector within the tolerance has direction zero. -/
def toPolar (dx dy : α) : Except Fault (α × α) := do
  let r ← sqrt (← add (← mul dx dx) (← mul dy dy))
  if below tolerance r then
    let c ← distance (dx, dy) (r, exact 0)
    let cosine ← sub (exact 1) (← div (← mul c c) (← mul (← mul (exact 2) r) r))
    let phi ← acos (clampCosine cosine)
    if below dy (neg tolerance) then return (← sub fullTurn phi, r)
    else return (phi, r)
  else return (whole 0, r)

/-- The vector of this direction and length. -/
def ofPolar (phi r : α) : Except Fault (α × α) := do
  let x ← mul r (← cos phi)
  let y ← mul r (← sin phi)
  return (x, y)

end PenRover
