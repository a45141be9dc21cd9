import PenRover.Numeric.Number

/-!
# The arithmetic of the drawing plane

The geometry of a drawing is written once, over any type with these operations.  On numbers of the
machine an operation can fail and is rounded; the same formulas over the real numbers are exact.
-/

namespace PenRover

/-- The operations that the geometry needs. -/
class Arithmetic (α : Type) where
  /-- An integer, kept exact. -/
  exact : Int → α
  /-- An integer as a measured quantity. -/
  whole : Int → α
  /-- One half. -/
  half : α
  /-- Half a turn in radians. -/
  halfTurn : α
  /-- A full turn in radians. -/
  fullTurn : α
  /-- A quarter of a turn in radians. -/
  quarterTurn : α
  /-- Lengths and angles up to this one count as none. -/
  tolerance : α
  add : α → α → Except Fault α
  sub : α → α → Except Fault α
  mul : α → α → Except Fault α
  div : α → α → Except Fault α
  neg : α → α
  sqrt : α → Except Fault α
  sin : α → Except Fault α
  cos : α → Except Fault α
  acos : α → Except Fault α
  /-- The greatest integer not above. -/
  floor : α → Except Fault Int
  /-- The quantity as a measured one. -/
  measured : α → Except Fault α
  /-- Strictly below. -/
  below : α → α → Bool
  /-- Not above. -/
  upTo : α → α → Bool

instance : Arithmetic Number where
  exact := .int
  whole n := .double (Float.ofInt n)
  half := .double 0.5
  halfTurn := .double 3.141592653589793
  fullTurn := .double 6.283185307179586
  quarterTurn := .double 1.5707963267948966
  tolerance := .double 0.001
  add := Number.add
  sub := Number.sub
  mul := Number.mul
  div := Number.div
  neg := Number.neg
  sqrt := Number.sqrt
  sin := Number.sin
  cos := Number.cos
  acos := Number.acos
  floor := Number.floor
  measured a := do return .double (← a.toDouble)
  below := Number.lt
  upTo := Number.le

end PenRover
