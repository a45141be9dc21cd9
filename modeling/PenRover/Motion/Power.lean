import PenRover.Motion.Frame
import PenRover.Value.Basic

/-!
# Wheel powers

Powers are requested as values of any kind.  A frame can hold the numbers from `-128` to `127`, and
holds their integer part; a request for anything else is passed over.
-/

namespace PenRover

/-- The power that a frame holds for a value; none when no frame can hold it.  An integer beyond the
range of doubles is a fault. -/
def Value.power? (v : Value) : Except Fault (Option Int) :=
  match v with
  | .number (.int n) => do
    let _ ← (Number.int n).toDouble
    return if -128 ≤ n ∧ n ≤ 127 then some n else none
  | .number (.double x) =>
    match Double.view x with
    | .finite negative mantissa exponent =>
      if (Number.le (.int (-128)) (.double x) && Number.le (.double x) (.int 127)) then
        .ok (some (Double.truncateOf negative mantissa exponent))
      else .ok none
    | _ => .ok none
  | _ => .ok none

/-- The frame for two requested powers; none when one of them fits no frame.  The second one is not
looked at when the first does not fit. -/
def Frame.ofPowers? (left right : Value) : Except Fault (Option Frame) := do
  match ← left.power? with
  | none => return none
  | some l =>
    match ← right.power? with
    | none => return none
    | some r => return some ⟨Int8.ofInt l, Int8.ofInt r, 0⟩

end PenRover
