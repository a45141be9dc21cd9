/-!
# Doubles as exact numbers

A finite double is a sign and a magnitude `m · 2 ^ q` with a natural number `m`.  This module takes
doubles apart into that form, and goes back by rounding an exact quotient of two natural numbers to
the nearest double, a tie going to the even neighbour.  Every other conversion of the library
(integers, decimals, the circular functions) is one exact computation followed by this rounding.
-/

namespace PenRover

-- powers are those of the core library, whatever other instances are in sight
attribute [local instance(2000)] instPowNat

/-- A double taken apart. -/
inductive DoubleView where
  /-- Not a number. -/
  | nan
  /-- An infinity and its sign. -/
  | infinite (negative : Bool)
  /-- The number `± mantissa · 2 ^ exponent`. -/
  | finite (negative : Bool) (mantissa : Nat) (exponent : Int)
  deriving Repr, DecidableEq

namespace Double

/-! ## Taking a double apart -/

/-- The fields of a bit pattern: one sign bit, eleven exponent bits, fifty-two fraction bits.  An
exponent field of zero has no implicit leading bit. -/
def viewBits (bits : Nat) : DoubleView :=
  let negative : Bool := bits / 2 ^ (63 : Nat) % 2 == 1
  let field : Nat := bits / 2 ^ (52 : Nat) % 2 ^ (11 : Nat)
  let fraction : Nat := bits % 2 ^ (52 : Nat)
  if field = 2047 then
    if fraction = 0 then .infinite negative else .nan
  else if field = 0 then .finite negative fraction (-1074)
  else .finite negative (2 ^ (52 : Nat) + fraction) ((field : Int) - 1075)

/-- The exact content of a double. -/
def view (x : Float) : DoubleView := viewBits x.toBits.toNat

/-- A signed magnitude as an integer. -/
def signed (negative : Bool) (magnitude : Nat) : Int :=
  if negative then -(magnitude : Int) else magnitude

/-- The double is neither an infinity nor not a number. -/
def isFinite (x : Float) : Bool :=
  match view x with
  | .finite .. => true
  | _ => false

/-- The greatest integer that is not above `± mantissa · 2 ^ exponent`. -/
def floorOf (negative : Bool) (mantissa : Nat) (exponent : Int) : Int :=
  match exponent with
  | .ofNat e => signed negative (mantissa * 2 ^ e)
  | .negSucc e => Int.fdiv (signed negative mantissa) ((2 ^ (e + 1) : Nat) : Int)

/-- The integer between zero and `± mantissa · 2 ^ exponent` that is nearest to the latter. -/
def truncateOf (negative : Bool) (mantissa : Nat) (exponent : Int) : Int :=
  match exponent with
  | .ofNat e => signed negative (mantissa * 2 ^ e)
  | .negSucc e => signed negative (mantissa / 2 ^ (e + 1))

/-! ## Comparing with an integer, exactly -/

/-- The order of `± mantissa · 2 ^ exponent` and an integer, with no rounding on the way. -/
def compareFinite (negative : Bool) (mantissa : Nat) (exponent n : Int) : Ordering :=
  match exponent with
  | .ofNat e => compare (signed negative (mantissa * 2 ^ e)) n
  | .negSucc e => compare (signed negative mantissa) (n * ((2 ^ (e + 1) : Nat) : Int))

/-- The order of a double and an integer; none when the double is not a number. -/
def compareInt (x : Float) (n : Int) : Option Ordering :=
  match view x with
  | .nan => none
  | .infinite negative => some (if negative then .lt else .gt)
  | .finite negative mantissa exponent => some (compareFinite negative mantissa exponent n)

/-! ## Rounding an exact quotient -/

/-- The quotient rounded to the nearest natural number, a tie to the even one. -/
def roundDiv (num den : Nat) : Nat :=
  let quotient := num / den
  let remainder := num % den
  if 2 * remainder < den then quotient
  else if 2 * remainder = den then quotient + quotient % 2
  else quotient + 1

/-- The quotient `num / den` divided by `2 ^ e`, as a new quotient. -/
def scaleDown (num den : Nat) (e : Int) : Nat × Nat :=
  match e with
  | .ofNat k => (num, den * 2 ^ k)
  | .negSucc k => (num * 2 ^ (k + 1), den)

/-- The `e` with `2 ^ e ≤ num / den < 2 ^ (e + 1)`. -/
def binaryExponent (num den : Nat) : Int :=
  let guess := (Nat.log2 num : Int) - (Nat.log2 den : Int)
  let (n, d) := scaleDown num den guess
  if n < d then guess - 1 else guess

/-- The bit pattern of the positive double nearest to `num / den`.  The exponent of the last place
is that of the leading bit less fifty-two, but not below that of the subnormal doubles; the
pattern is then one sum, since a carry out of the fraction is a step of the exponent field. -/
def nearestBits (num den : Nat) : Nat :=
  let last := max (binaryExponent num den - 52) (-1074)
  let (n, d) := scaleDown num den last
  let bits := (last + 1074).toNat * 2 ^ (52 : Nat) + roundDiv n d
  min bits (2047 * 2 ^ (52 : Nat))

/-- The double nearest to `± num / den`; an infinity beyond the range, and a zero keeps the sign. -/
def ofQuotient (negative : Bool) (num den : Nat) : Float :=
  let bits := if num = 0 ∨ den = 0 then 0 else nearestBits num den
  .ofBits (UInt64.ofNat (bits + if negative then 2 ^ (63 : Nat) else 0))

/-- The double nearest to an integer; none when the integer is beyond the range of doubles. -/
def ofInt? (n : Int) : Option Float :=
  let x := ofQuotient (n < 0) n.natAbs 1
  if isFinite x then some x else none

/-! ## Decimals -/

/-- The double nearest to `± digits · 10 ^ exponent`.  A power that decides the answer on its own is
not computed: a numeral above `10 ^ 310` is infinite and one below `10 ^ -400` is zero. -/
def ofDecimal (negative : Bool) (digits : Nat) (exponent : Int) : Float :=
  if digits = 0 then ofQuotient negative 0 1
  else
    let top : Int := (Nat.toDigits 10 digits).length + exponent
    if top > 310 then ofQuotient negative (2 ^ (1024 : Nat)) 1
    else if top < -400 then ofQuotient negative 0 1
    else match exponent with
      | .ofNat e => ofQuotient negative (digits * 10 ^ e) 1
      | .negSucc e => ofQuotient negative digits (10 ^ (e + 1))

end Double

end PenRover
