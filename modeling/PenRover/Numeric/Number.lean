import PenRover.Fault
import PenRover.Numeric.Circular
import PenRover.Numeric.Places

/-!
# Numbers

A number is an exact integer or a double.  Integers stay exact among themselves.  As soon as a
double takes part, an integer is first rounded to the nearest double, which fails beyond their
range. Comparisons are exact and never fail.
-/

namespace PenRover

/-- An exact integer or a double. -/
inductive Number where
  | int (n : Int)
  | double (x : Float)
  deriving DecidableEq

namespace Number

/-- The nearest double. -/
def toDouble : Number → Except Fault Float
  | .int n =>
    match Double.ofInt? n with
    | some x => .ok x
    | none => .error .tooLarge
  | .double x => .ok x

/-- The kind of a number. -/
def kind : Number → Kind
  | .int _ => .integer
  | .double _ => .double

/-- An operation that is exact on integers and rounded on doubles. -/
def combine (exact : Int → Int → Int) (rounded : Float → Float → Float) :
    Number → Number → Except Fault Number
  | .int m, .int n => .ok (.int (exact m n))
  | .double x, .double y => .ok (.double (rounded x y))
  | .int m, .double y => do return .double (rounded (← (Number.int m).toDouble) y)
  | .double x, .int n => do return .double (rounded x (← (Number.int n).toDouble))

/-- The sum. -/
def add : Number → Number → Except Fault Number := combine (· + ·) (· + ·)

/-- The difference. -/
def sub : Number → Number → Except Fault Number := combine (· - ·) (· - ·)

/-- The product. -/
def mul : Number → Number → Except Fault Number := combine (· * ·) (· * ·)

/-- The quotient of the two doubles. -/
def div (a b : Number) : Except Fault Number := do
  let x ← a.toDouble
  let y ← b.toDouble
  return .double (x / y)

/-- The opposite. -/
def neg : Number → Number
  | .int n => .int (-n)
  | .double x => .double (-x)

/-- The square root of the double. -/
def sqrt (a : Number) : Except Fault Number := do
  return .double (← a.toDouble).sqrt

/-- A circular function: none at an infinity, and what is not a number stays so. -/
def circular (f : Float → Float) (a : Number) : Except Fault Number := do
  let x ← a.toDouble
  match Double.view x with
  | .infinite _ => throw .outsideDomain
  | .nan => return .double x
  | .finite .. => return .double (f x)

/-- The sine. -/
def sin : Number → Except Fault Number := circular Double.sin

/-- The cosine. -/
def cos : Number → Except Fault Number := circular Double.cos

/-- The arc cosine. -/
def acos : Number → Except Fault Number := circular Double.acos

/-- The greatest integer that is not above the number. -/
def floor : Number → Except Fault Int
  | .int n => .ok n
  | .double x =>
    match Double.view x with
    | .nan => .error .floorOfNan
    | .infinite _ => .error .floorOfInfinity
    | .finite negative mantissa exponent => .ok (Double.floorOf negative mantissa exponent)

/-- The exact order; none when one of the two is not a number. -/
def compare? : Number → Number → Option Ordering
  | .int m, .int n => some (compare m n)
  | .double x, .int n => Double.compareInt x n
  | .int m, .double y => (Double.compareInt y m).map Ordering.swap
  | .double x, .double y =>
    if x < y then some .lt else if x == y then some .eq else if y < x then some .gt else none

/-- The first number is below the second. -/
def lt (a b : Number) : Bool := compare? a b == some .lt

/-- The first number is not above the second. -/
def le (a b : Number) : Bool := compare? a b == some .lt || compare? a b == some .eq

/-- The number is zero, of either sign. -/
def isZero (a : Number) : Bool := compare? a (.int 0) == some .eq

/-- The text of a number in messages. -/
def text : Number → String
  | .int n => toString n
  | .double x => messageLayout.place x

end Number

end PenRover
