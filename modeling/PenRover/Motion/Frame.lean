import PenRover.Fault
import PenRover.Text.Utf8

/-!
# Frames

A frame is what the robot is sent: the powers of its two wheels and an automatic stop, each a signed
byte.
-/

namespace PenRover

-- powers are those of the core library, whatever other instances are in sight
attribute [local instance(2000)] instPowNat

/-- The powers of the two wheels and the automatic stop. -/
structure Frame where
  left : Int8
  right : Int8
  autoStop : Int8
  deriving DecidableEq, Repr

/-- Why an integer is no signed byte. -/
inductive FrameError where
  /-- It is not even a machine word. -/
  | beyondWord
  /-- It is a machine word beyond a byte. -/
  | beyondByte (n : Int)
  deriving DecidableEq, Repr

/-- The description of a frame error. -/
def FrameError.message : FrameError → String
  | .beyondWord => "Python int too large to convert to C long"
  | .beyondByte n => "Python integer " ++ toString n ++ " out of bounds for int8"

namespace Frame

/-- The frame that stops the motors. -/
def stop : Frame := ⟨0, 0, 0⟩

/-- The signed byte with this value. -/
def byte? (n : Int) : Except FrameError Int8 :=
  if n < -(2 ^ (63 : Nat)) ∨ 2 ^ (63 : Nat) ≤ n then .error .beyondWord
  else if n < -128 ∨ 127 < n then .error (.beyondByte n)
  else .ok (Int8.ofInt n)

/-- The frame with these values; the first that is no signed byte decides the error. -/
def ofInts (left right autoStop : Int) : Except FrameError Frame := do
  return ⟨← byte? left, ← byte? right, ← byte? autoStop⟩

/-- The three bytes of a frame. -/
def toBytes (frame : Frame) : Bytes :=
  [frame.left.toUInt8, frame.right.toUInt8, frame.autoStop.toUInt8]

/-- The frame of three bytes. -/
def ofBytes (bytes : Bytes) : Except Fault Frame :=
  match bytes with
  | [l, r, a] => .ok ⟨l.toInt8, r.toInt8, a.toInt8⟩
  | _ => .error (if bytes.length < 3 then .frameTooShort bytes.length else .frameTooLong)

/-- A frame is recovered from its bytes. -/
theorem ofBytes_toBytes (frame : Frame) : ofBytes frame.toBytes = .ok frame := by
  simp [ofBytes, toBytes]

end Frame

/-- The hexadecimal text of a byte string. -/
def Bytes.hex (bytes : Bytes) : String :=
  String.ofList (bytes.flatMap fun b =>
    let cs := Nat.toDigits 16 b.toNat
    List.replicate (2 - cs.length) '0' ++ cs)

end PenRover
