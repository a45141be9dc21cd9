import PenRover.Numeric.Shortest

/-!
# Fixed places

A double with a fixed number of places after the point: the exact value is rounded to the nearest
multiple of the last place, a tie to the even one.
-/

namespace PenRover

-- powers are those of the core library, whatever other instances are in sight
attribute [local instance(2000)] instPowNat

/-- The text of a double with `places` digits after the point. -/
def Double.toPlaces (places : Nat) (x : Float) : String :=
  match Double.view x with
  | .nan => "nan"
  | .infinite negative => if negative then "-inf" else "inf"
  | .finite negative mantissa exponent =>
    let (num, den) := Double.scaleDown (mantissa * 10 ^ places) 1 (-exponent)
    let cs := DoubleLayout.padLeft (places + 1) (Nat.toDigits 10 (Double.roundDiv num den))
    let whole := cs.length - places
    let sign := if negative then ['-'] else []
    String.ofList (sign ++ cs.take whole ++ '.' :: cs.drop whole)

end PenRover
