import PenRover.Text.Utf8

/-!
# UTF-16 and UTF-32

A JSON request body may be written in a wider encoding than UTF-8.  The encoding is that of a byte
order mark at the start, and without one it is told by the zero bytes among the first four, since
JSON starts with ASCII.  Surrogates without a partner are code points.
-/

namespace PenRover

/-- The encoding of a byte string. -/
inductive Encoding where
  | utf8
  | utf16 (bigEndian : Bool)
  | utf32 (bigEndian : Bool)
  deriving DecidableEq, Repr

namespace Wide

/-- The encoding of a JSON body, and the body without its byte order mark. -/
def detect (bytes : Bytes) : Encoding × Bytes :=
  match bytes with
  | 0x00 :: 0x00 :: 0xFE :: 0xFF :: rest => (.utf32 true, rest)
  | 0xFF :: 0xFE :: 0x00 :: 0x00 :: rest => (.utf32 false, rest)
  | 0xFE :: 0xFF :: rest => (.utf16 true, rest)
  | 0xFF :: 0xFE :: rest => (.utf16 false, rest)
  | 0xEF :: 0xBB :: 0xBF :: rest => (.utf8, rest)
  | a :: b :: c :: d :: _ =>
    if a = 0 then (if b = 0 then .utf32 true else .utf16 true, bytes)
    else if b = 0 then (if c = 0 ∧ d = 0 then .utf32 false else .utf16 false, bytes)
    else (.utf8, bytes)
  | [a, b] => (if a = 0 then .utf16 true else if b = 0 then .utf16 false else .utf8, bytes)
  | _ => (.utf8, bytes)

/-- The number of some bytes. -/
def unit (bigEndian : Bool) (bytes : Bytes) : Nat :=
  (if bigEndian then bytes else bytes.reverse).foldl (fun n b => 256 * n + b.toNat) 0

/-- The two-byte units of a byte string; none when a byte is left over. -/
def units16? (bigEndian : Bool) : Bytes → Option (List Nat)
  | [] => some []
  | a :: b :: rest => (unit bigEndian [a, b] :: ·) <$> units16? bigEndian rest
  | _ => none

/-- The four-byte units of a byte string; none when bytes are left over. -/
def units32? (bigEndian : Bool) : Bytes → Option (List Nat)
  | [] => some []
  | a :: b :: c :: d :: rest => (unit bigEndian [a, b, c, d] :: ·) <$> units32? bigEndian rest
  | _ => none

/-- The text of two-byte units, in which a high and a low surrogate are one code point. -/
def joinSurrogates : List Nat → Text
  | [] => []
  | [n] => [CodePoint.ofNat n]
  | high :: low :: rest =>
    if 0xD800 ≤ high ∧ high ≤ 0xDBFF ∧ 0xDC00 ≤ low ∧ low ≤ 0xDFFF then
      CodePoint.ofNat (0x10000 + (high - 0xD800) * 0x400 + (low - 0xDC00)) :: joinSurrogates rest
    else CodePoint.ofNat high :: joinSurrogates (low :: rest)

/-- The text of a JSON body; none when the body is not well formed in its encoding. -/
def decode? (bytes : Bytes) : Option Text :=
  match detect bytes with
  | (.utf8, rest) => (Utf8.decode true rest).toOption
  | (.utf16 bigEndian, rest) => (units16? bigEndian rest).map joinSurrogates
  | (.utf32 bigEndian, rest) => do
    let units ← units32? bigEndian rest
    if units.all (· < 0x110000) then some (units.map CodePoint.ofNat) else none

end Wide

end PenRover
