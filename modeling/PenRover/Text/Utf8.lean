import PenRover.Text.Basic

/-!
# UTF-8

Decoding stops at the first byte that does not continue a well-formed sequence and reports the
longest part of a sequence that stood there.  The decoder of drawings is strict.  JSON request
bodies may also hold surrogates in three-byte form.
-/

namespace PenRover

-- powers are those of the core library, whatever other instances are in sight
attribute [local instance(2000)] instPowNat

/-- A byte string. -/
abbrev Bytes := List UInt8

/-- What is wrong with a byte string that is not UTF-8. -/
inductive Utf8Fault where
  | invalidStart
  | invalidContinuation
  | unexpectedEnd
  deriving DecidableEq, Repr

/-- Where decoding failed: the bytes before the bad part, the bad part, and what is wrong with it.
-/
structure Utf8Error where
  position : Nat
  bad : Bytes
  fault : Utf8Fault
  deriving DecidableEq, Repr

/-- The description of a decoding fault. -/
def Utf8Fault.message : Utf8Fault → String
  | .invalidStart => "invalid start byte"
  | .invalidContinuation => "invalid continuation byte"
  | .unexpectedEnd => "unexpected end of data"

namespace Utf8

/-- The bytes that may follow a leading byte: how many, and the range of the first of them. -/
def continuation (lead : Nat) : Option (Nat × Nat × Nat) :=
  if lead < 0x80 then some (0, 0, 0)
  else if lead < 0xC2 then none
  else if lead < 0xE0 then some (1, 0x80, 0xBF)
  else if lead = 0xE0 then some (2, 0xA0, 0xBF)
  else if lead = 0xED then some (2, 0x80, 0x9F)
  else if lead < 0xF0 then some (2, 0x80, 0xBF)
  else if lead = 0xF0 then some (3, 0x90, 0xBF)
  else if lead < 0xF4 then some (3, 0x80, 0xBF)
  else if lead = 0xF4 then some (3, 0x80, 0x8F)
  else none

/-- The payload of a leading byte that `count` bytes follow. -/
def leadBits (lead count : Nat) : Nat :=
  match count with
  | 0 => lead
  | 1 => lead % 0x20
  | 2 => lead % 0x10
  | _ => lead % 0x08

/-- Reads `count` continuation bytes, the first of them between `low` and `high`.  Gives the code
point, or the fault and the number of bytes that were still well formed. -/
def follow (count low high acc : Nat) (bytes : Bytes) : Except (Utf8Fault × Nat) Nat :=
  match count with
  | 0 => .ok acc
  | count + 1 =>
    match bytes with
    | [] => .error (.unexpectedEnd, 0)
    | b :: rest =>
      if low ≤ b.toNat ∧ b.toNat ≤ high then
        match follow count 0x80 0xBF (acc * 0x40 + b.toNat % 0x40) rest with
        | .ok n => .ok n
        | .error (fault, good) => .error (fault, good + 1)
      else .error (.invalidContinuation, 0)

/-- The first code point of a byte string and the number of its bytes. -/
def first (surrogates : Bool) (lead : Nat) (rest : Bytes) : Except (Utf8Fault × Nat) (Nat × Nat) :=
  match continuation lead with
  | none => .error (.invalidStart, 1)
  | some (count, low, high) =>
    match follow count low high (leadBits lead count) rest with
    | .ok n => .ok (n, count + 1)
    | .error (fault, good) =>
      match surrogates && lead == 0xED, follow 2 0xA0 0xBF 0xD rest with
      | true, .ok n => .ok (n, 3)
      | _, _ => .error (fault, good + 1)

/-- Decodes with the number of bytes as fuel. -/
def decodeFrom (surrogates : Bool) (fuel position : Nat) (bytes : Bytes) : Except Utf8Error Text :=
  match fuel, bytes with
  | 0, _ | _, [] => .ok []
  | fuel + 1, b :: rest =>
    match first surrogates b.toNat rest with
    | .error (fault, bad) => .error ⟨position, (b :: rest).take bad, fault⟩
    | .ok (n, count) =>
      (CodePoint.ofNat n :: ·) <$>
        decodeFrom surrogates fuel (position + count) (rest.drop (count - 1))

/-- The text of a UTF-8 byte string; with `surrogates`, also of one with encoded surrogates. -/
def decode (surrogates : Bool) (bytes : Bytes) : Except Utf8Error Text :=
  decodeFrom surrogates bytes.length 0 bytes

/-- The bytes of one code point. -/
def encodePoint (c : CodePoint) : Bytes :=
  let n := c.val
  let tail (k : Nat) : UInt8 := UInt8.ofNat (0x80 + n / 0x40 ^ k % 0x40)
  if n < 0x80 then [UInt8.ofNat n]
  else if n < 0x800 then [UInt8.ofNat (0xC0 + n / 0x40), tail 0]
  else if n < 0x10000 then [UInt8.ofNat (0xE0 + n / 0x1000), tail 1, tail 0]
  else [UInt8.ofNat (0xF0 + n / 0x40000), tail 2, tail 1, tail 0]

/-- The bytes of a text. -/
def encode (t : Text) : Bytes := t.flatMap encodePoint

end Utf8

end PenRover
