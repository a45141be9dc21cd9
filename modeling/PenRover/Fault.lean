/-!
# Faults

What can go wrong while a drawing is computed or driven: arithmetic between exact integers and
doubles, arithmetic on settings of the wrong kind, and the radio link.  A fault is its cause; the
wording is one function of it.
-/

namespace PenRover

/-- The kinds of values that a settings file can hold. -/
inductive Kind where
  | nothing
  | flag
  | integer
  | double
  | text
  | list
  | record
  deriving DecidableEq, Repr

/-- The name of a kind in messages. -/
def Kind.name : Kind → String
  | .nothing => "NoneType"
  | .flag => "bool"
  | .integer => "int"
  | .double => "float"
  | .text => "str"
  | .list => "list"
  | .record => "dict"

/-- The cause of a failure. -/
inductive Fault where
  /-- An integer beyond the range of doubles met a double. -/
  | tooLarge
  /-- What is not a number has no integer part. -/
  | floorOfNan
  /-- An infinity has no integer part. -/
  | floorOfInfinity
  /-- A circular function of an infinity. -/
  | outsideDomain
  /-- A value of this kind has no opposite. -/
  | cannotNegate (kind : Kind)
  /-- Values of these kinds have no product. -/
  | cannotMultiply (left right : Kind)
  /-- A text or a list was to be repeated a fractional number of times. -/
  | cannotRepeat
  /-- A text or a list was to be repeated more often than it could be indexed. -/
  | repeatedTooOften
  /-- A text or a list was to be repeated beyond the memory there is. -/
  | outOfMemory
  /-- A value of this kind is no length of time. -/
  | cannotWait (kind : Kind)
  /-- An integer has too many digits to be written. -/
  | tooLongToWrite
  /-- A byte string that should be a frame has too few bytes. -/
  | frameTooShort (bytes : Nat)
  /-- A byte string that should be a frame has too many bytes. -/
  | frameTooLong
  /-- The robot refused the connection. -/
  | refused
  /-- The robot did not answer in time. -/
  | timedOut
  /-- The robot answered with something else than the agreed opening. -/
  | badHandshake
  /-- The connection was closed by the other side. -/
  | connectionClosed
  /-- The link failed in a way that is not provided for. -/
  | unexpected
  deriving DecidableEq, Repr

/-- The description of a fault. -/
def Fault.message : Fault → String
  | .tooLarge => "int too large to convert to float"
  | .floorOfNan => "cannot convert float NaN to integer"
  | .floorOfInfinity => "cannot convert float infinity to integer"
  | .outsideDomain => "math domain error"
  | .cannotNegate kind => "bad operand type for unary -: '" ++ kind.name ++ "'"
  | .cannotMultiply left right =>
    "unsupported operand type(s) for *: '" ++ left.name ++ "' and '" ++ right.name ++ "'"
  | .cannotRepeat => "can't multiply sequence by non-int of type 'float'"
  | .repeatedTooOften => "cannot fit 'int' into an index-sized integer"
  | .outOfMemory => ""
  | .cannotWait kind =>
    "'<=' not supported between instances of '" ++ kind.name ++ "' and 'int'"
  | .tooLongToWrite =>
    "Exceeds the limit (4300 digits) for integer string conversion; " ++
      "use sys.set_int_max_str_digits() to increase the limit"
  | .frameTooShort bytes =>
    "not enough values to unpack (expected 3, got " ++ toString bytes ++ ")"
  | .frameTooLong => "too many values to unpack (expected 3)"
  | .refused => "refused"
  | .timedOut => ""
  | .badHandshake => "bad handshake"
  | .connectionClosed => "no close frame received or sent"
  | .unexpected => "unexpected"

end PenRover
