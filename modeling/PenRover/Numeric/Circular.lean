import PenRover.Numeric.Double

/-!
# Circular functions of doubles, correctly rounded

The sine, cosine and arc cosine of a double are computed in fixed point with natural numbers and
then rounded once.  A value computed to `bits` binary places comes with a bound on its error, the
slack; when both ends of that interval round to the same double the answer is certain, otherwise the
computation is repeated with more places.

### Reduction

The argument of the sine and cosine is a dyadic number and is kept exact.  The nearest multiple of a
quarter turn is subtracted with as many places of `π` as the size of the argument asks for, which
leaves at most an eighth of a turn for the power series.

### The arc cosine

For `0 ≤ x ≤ 1` and `v = (1 - x) / 2` the angle `θ` with cosine `x` satisfies `θ ^ 2 = 2 * ∑ a n`
with `a 1 = 2 * v` and `a (n + 1) = a n * 2 * v * n ^ 2 / ((n + 1) * (2 * n + 1))`, so one series
and one square root give the angle, also where the cosine is flat.  A negative cosine belongs to
the supplementary angle.
-/

namespace PenRover

-- powers are those of the core library, whatever other instances are in sight
attribute [local instance(2000)] instPowNat

namespace Circular

/-! ## The circle constant -/

/-- The tail of the series of the arc tangent whose power is `term` and whose index is `n`. -/
def arctanTail (square : Nat) (fuel n term : Nat) : Int :=
  match fuel with
  | 0 => 0
  | fuel + 1 =>
    if term = 0 then 0
    else ((term / (2 * n + 1) : Nat) : Int) - arctanTail square fuel (n + 1) (term / square)

/-- The arc tangent of `1 / k`, to `bits` binary places. -/
def arctanInverse (k bits : Nat) : Int :=
  arctanTail (k * k) bits 0 (2 ^ bits / k)

/-- The circle constant `π = 16 arctan (1 / 5) - 4 arctan (1 / 239)`, to `bits` binary places. -/
def pi (bits : Nat) : Nat :=
  let guard := 32
  ((16 * arctanInverse 5 (bits + guard) - 4 * arctanInverse 239 (bits + guard)) / 2 ^ guard).toNat

/-! ## Power series -/

/-- The tail `t - t r² / ((i + 1) (i + 2)) + …` of an alternating power series, to `bits` places. -/
def seriesTail (bits square : Nat) (fuel index term : Nat) : Int :=
  match fuel with
  | 0 => 0
  | fuel + 1 =>
    if term = 0 then 0
    else (term : Int) - seriesTail bits square fuel (index + 2)
      (term * square / 2 ^ bits / ((index + 1) * (index + 2)))

/-- The sine of a reduced angle, to `bits` places. -/
def sinReduced (bits : Nat) (r : Int) : Int :=
  let s := seriesTail bits (r.natAbs * r.natAbs / 2 ^ bits) bits 1 r.natAbs
  if r < 0 then -s else s

/-- The cosine of a reduced angle, to `bits` places. -/
def cosReduced (bits : Nat) (r : Int) : Int :=
  seriesTail bits (r.natAbs * r.natAbs / 2 ^ bits) bits 0 (2 ^ bits)

/-- A positive angle as a number of quarter turns and what is left of it, to `bits` places. -/
def reduce (mantissa : Nat) (exponent : Int) (bits : Nat) : Nat × Int :=
  let (angle, _) := Double.scaleDown mantissa 1 (-(exponent + bits))
  let extra := ((Nat.log2 mantissa : Int) + exponent).toNat + 16
  let turn := pi (bits + extra)
  let fine := angle * 2 ^ extra * 2
  let quarters := (2 * fine + turn) / (2 * turn)
  (quarters, ((fine : Int) - (quarters : Int) * turn) / ((2 ^ (extra + 1) : Nat) : Int))

/-- The sine of a positive angle, to `bits` places. -/
def sinFixed (mantissa : Nat) (exponent : Int) (bits : Nat) : Int :=
  let (quarters, r) := reduce mantissa exponent bits
  match quarters % 4 with
  | 0 => sinReduced bits r
  | 1 => cosReduced bits r
  | 2 => -sinReduced bits r
  | _ => -cosReduced bits r

/-- The cosine of a positive angle, to `bits` places. -/
def cosFixed (mantissa : Nat) (exponent : Int) (bits : Nat) : Int :=
  let (quarters, r) := reduce mantissa exponent bits
  match quarters % 4 with
  | 0 => cosReduced bits r
  | 1 => -sinReduced bits r
  | 2 => -cosReduced bits r
  | _ => sinReduced bits r

/-- The tail of the series of the squared angle, from the term `term` with index `n` on. -/
def angleTail (bits versine : Nat) (fuel n term : Nat) : Nat :=
  match fuel with
  | 0 => 0
  | fuel + 1 =>
    if term = 0 then 0
    else term + angleTail bits versine fuel (n + 1)
      (term * versine * (n * n) / (2 ^ bits * ((n + 1) * (2 * n + 1))))

/-- The angle in the first quadrant whose cosine is `mantissa · 2 ^ exponent`, to `bits` places. -/
def acosFixed (mantissa : Nat) (exponent : Int) (bits : Nat) : Int :=
  let (num, den) := Double.scaleDown mantissa 1 (-(exponent + bits))
  let versine := 2 ^ bits - num / den
  let sum := angleTail bits versine (2 * bits) 1 versine
  ((2 * sum * 2 ^ bits).sqrt : Nat)

/-! ## One rounding -/

/-- The double nearest to a fixed-point number. -/
def ofFixed (bits : Nat) (y : Int) : Float := Double.ofQuotient (y < 0) y.natAbs (2 ^ bits)

/-- The double nearest to a value that can be computed to any number of places with an error of at
most `slack` units of the last place; the precisions are tried in order. -/
def settle (approximate : Nat → Int) (slack : Nat) : List Nat → Float
  | [] => 0
  | [bits] => ofFixed bits (approximate bits)
  | bits :: more =>
    let y := approximate bits
    let low := ofFixed bits (y - slack)
    if low.toBits = (ofFixed bits (y + slack)).toBits then low else settle approximate slack more

/-- The precisions that are tried. -/
def precisions : List Nat := [192, 384, 768]

/-- The magnitude is below `2 ^ e`. -/
def isBelow (mantissa : Nat) (exponent e : Int) : Bool :=
  mantissa == 0 || (Nat.log2 mantissa : Int) + exponent < e

end Circular

namespace Double

open Circular

/-- The sine.  Below `2 ^ -26` the angle itself is nearest to it; not defined at an infinity. -/
def sin (x : Float) : Float :=
  match view x with
  | .finite negative mantissa exponent =>
    if isBelow mantissa exponent (-26) then x
    else
      settle (fun bits =>
        let y := sinFixed mantissa exponent bits
        if negative then -y else y) (2 ^ (12 : Nat)) precisions
  | _ => 0 / 0

/-- The cosine.  Below `2 ^ -27` one is nearest to it; not defined at an infinity. -/
def cos (x : Float) : Float :=
  match view x with
  | .finite _ mantissa exponent =>
    if isBelow mantissa exponent (-27) then 1
    else settle (cosFixed mantissa exponent) (2 ^ (12 : Nat)) precisions
  | _ => 0 / 0

/-- The angle in `[0, π]` with this cosine, for a number in `[-1, 1]`. -/
def acos (x : Float) : Float :=
  match view x with
  | .finite negative mantissa exponent =>
    if compareFinite false mantissa exponent 1 = .gt then 0 / 0
    else if compareFinite negative mantissa exponent 1 = .eq then 0
    else
      settle (fun bits =>
        let y := acosFixed mantissa exponent bits
        if negative then (Circular.pi bits : Int) - y else y) (2 ^ (40 : Nat)) precisions
  | _ => 0 / 0

end Double

end PenRover
