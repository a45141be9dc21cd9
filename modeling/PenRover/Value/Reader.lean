import PenRover.Value.Basic
import PenRover.Text.DecimalDigit

/-!
# Reading JSON

The reader takes JSON and the words `NaN`, `Infinity` and `-Infinity`.  A numeral without a point
and an exponent is an exact integer.  Of fields with one name the last value counts, at the place
of the first.  A pair of escapes that name a high and a low surrogate is one code point; any other
escape of a surrogate stays one.
-/

namespace PenRover

/-- Why a text was not read. -/
inductive JsonError where
  /-- The text is not JSON. -/
  | malformed
  /-- An integer has more digits than are read. -/
  | numeralTooLong (digits : Nat)
  deriving DecidableEq, Repr

namespace Value

/-- The text without the blanks of JSON at its start. -/
def skipBlanks : Text → Text :=
  List.dropWhile fun c => c.val == 0x20 || c.val == 0x09 || c.val == 0x0A || c.val == 0x0D

/-- What follows a word at the start of a text. -/
def afterWord? (word : String) (t : Text) : Option Text :=
  let w := Text.ofString word
  if w.isPrefixOf t then some (t.drop w.length) else none

/-! ## Numerals -/

/-- The value of an ASCII digit. -/
def asciiDigit? (c : CodePoint) : Option Nat :=
  if 0x30 ≤ c.val ∧ c.val ≤ 0x39 then some (c.val - 0x30) else none

/-- The ASCII digits at the start of a text, and the rest. -/
def takeDigits : Text → List Nat × Text
  | [] => ([], [])
  | c :: rest =>
    match asciiDigit? c with
    | none => ([], c :: rest)
    | some d =>
      let (ds, t) := takeDigits rest
      (d :: ds, t)

/-- The digits before the point: a single zero, or digits that do not start with one. -/
def takeWhole (t : Text) : Option (List Nat × Text) :=
  match takeDigits t with
  | ([], _) => none
  | (0 :: _, _) => some ([0], t.drop 1)
  | (ds, rest) => some (ds, rest)

/-- The digits after a point, if there is a point with a digit behind it. -/
def takeFraction : Text → Option (List Nat × Text)
  | [] => none
  | c :: rest =>
    if c = CodePoint.ofChar '.' then
      match takeDigits rest with
      | ([], _) => none
      | (ds, t) => some (ds, t)
    else none

/-- The exponent of a numeral, if there is an exponent mark with a digit behind it. -/
def takeExponent : Text → Option (Int × Text)
  | [] => none
  | c :: rest =>
    if c = CodePoint.ofChar 'e' ∨ c = CodePoint.ofChar 'E' then
      let (negative, digits) := Text.splitSign rest
      match takeDigits digits with
      | ([], _) => none
      | (ds, t) => some (if negative then -(Text.ofDigits ds : Int) else Text.ofDigits ds, t)
    else none

/-- The number at the start of a text. -/
def readNumber (t : Text) : Except JsonError (Value × Text) :=
  let (negative, unsigned) := match t with
    | c :: rest => if c = CodePoint.ofChar '-' then (true, rest) else (false, t)
    | [] => (false, [])
  match takeWhole unsigned with
  | none => .error .malformed
  | some (whole, rest) =>
    match takeFraction rest, takeExponent (((takeFraction rest).map (·.2)).getD rest) with
    | none, none =>
      if maxNumeralDigits < whole.length then .error (.numeralTooLong whole.length)
      else
        let n : Int := Text.ofDigits whole
        .ok (.int (if negative then -n else n), rest)
    | fraction, exponent =>
      let (digits, rest) := fraction.getD ([], rest)
      let (power, rest) := exponent.getD (0, rest)
      let x := Double.ofDecimal negative (Text.ofDigits (whole ++ digits)) (power - digits.length)
      .ok (.double x, rest)

/-! ## Strings -/

/-- The value of a hexadecimal digit. -/
def hexDigit? (c : CodePoint) : Option Nat :=
  if 0x30 ≤ c.val ∧ c.val ≤ 0x39 then some (c.val - 0x30)
  else if 0x61 ≤ c.val ∧ c.val ≤ 0x66 then some (c.val - 0x57)
  else if 0x41 ≤ c.val ∧ c.val ≤ 0x46 then some (c.val - 0x37)
  else none

/-- The number written with four hexadecimal digits at the start of a text. -/
def takeUnit : Text → Option (Nat × Text)
  | a :: b :: c :: d :: rest => do
    let a ← hexDigit? a
    let b ← hexDigit? b
    let c ← hexDigit? c
    let d ← hexDigit? d
    return (((a * 16 + b) * 16 + c) * 16 + d, rest)
  | _ => none

/-- The low surrogate escaped at the start of a text. -/
def takeLowSurrogate : Text → Option (Nat × Text)
  | a :: b :: rest =>
    if a = CodePoint.ofChar '\\' ∧ b = CodePoint.ofChar 'u' then
      match takeUnit rest with
      | some (n, t) => if 0xDC00 ≤ n ∧ n ≤ 0xDFFF then some (n, t) else none
      | none => none
    else none
  | _ => none

/-- The code point that a letter names after a backslash. -/
def namedEscape? (c : CodePoint) : Option CodePoint :=
  match c.val with
  | 0x22 => some (CodePoint.ofNat 0x22)
  | 0x5C => some (CodePoint.ofNat 0x5C)
  | 0x2F => some (CodePoint.ofNat 0x2F)
  | 0x62 => some (CodePoint.ofNat 0x08)
  | 0x66 => some (CodePoint.ofNat 0x0C)
  | 0x6E => some (CodePoint.ofNat 0x0A)
  | 0x72 => some (CodePoint.ofNat 0x0D)
  | 0x74 => some (CodePoint.ofNat 0x09)
  | _ => none

/-- The escape after a backslash. -/
def takeEscape : Text → Option (CodePoint × Text)
  | [] => none
  | c :: rest =>
    if c = CodePoint.ofChar 'u' then
      match takeUnit rest with
      | none => none
      | some (n, t) =>
        if 0xD800 ≤ n ∧ n ≤ 0xDBFF then
          match takeLowSurrogate t with
          | some (low, t') =>
            some (CodePoint.ofNat (0x10000 + (n - 0xD800) * 0x400 + (low - 0xDC00)), t')
          | none => some (CodePoint.ofNat n, t)
        else some (CodePoint.ofNat n, t)
    else (namedEscape? c).map (·, rest)

/-- The content of a string up to its closing quote, and what follows it. -/
def takeString (fuel : Nat) (t : Text) : Option (Text × Text) :=
  match fuel, t with
  | 0, _ | _, [] => none
  | fuel + 1, c :: rest =>
    if c = CodePoint.ofChar '"' then some ([], rest)
    else if c = CodePoint.ofChar '\\' then do
      let (escaped, rest) ← takeEscape rest
      let (more, rest) ← takeString fuel rest
      return (escaped :: more, rest)
    else if c.val < 0x20 then none
    else do
      let (more, rest) ← takeString fuel rest
      return (c :: more, rest)

/-- The string at the start of a text that begins with its opening quote. -/
def readString (t : Text) : Except JsonError (Text × Text) :=
  match t with
  | c :: rest =>
    if c = CodePoint.ofChar '"' then
      match takeString t.length rest with
      | some found => .ok found
      | none => .error .malformed
    else .error .malformed
  | [] => .error .malformed

/-! ## Values -/

/-- The words that stand for values. -/
def words : List (String × Value) :=
  [("null", .null), ("true", .flag true), ("false", .flag false), ("NaN", .double (0 / 0)),
    ("Infinity", .double (1 / 0)), ("-Infinity", .double (-1 / 0))]

/-- The value that a word at the start of a text stands for. -/
def readWord? (t : Text) : Option (Value × Text) :=
  words.findSome? fun (word, v) => (afterWord? word t).map (v, ·)

mutual

/-- The value at the start of a text. -/
def readValue (fuel : Nat) (t : Text) : Except JsonError (Value × Text) :=
  match fuel with
  | 0 => .error .malformed
  | fuel + 1 =>
    match t with
    | [] => .error .malformed
    | c :: rest =>
      match c.val with
      | 0x22 => do
        let (s, t) ← readString (c :: rest)
        return (.text s, t)
      | 0x5B =>
        match skipBlanks rest with
        | [] => .error .malformed
        | d :: after =>
          if d = CodePoint.ofChar ']' then .ok (.list [], after)
          else do
            let (items, t) ← readItems fuel (d :: after)
            return (.list items, t)
      | 0x7B =>
        match skipBlanks rest with
        | [] => .error .malformed
        | d :: after =>
          if d.val = 0x7D then .ok (.record [], after)
          else do
            let (fields, t) ← readFields fuel [] (d :: after)
            return (.record fields, t)
      | _ =>
        match readWord? (c :: rest) with
        | some found => .ok found
        | none => readNumber (c :: rest)

/-- The items of a list up to its closing bracket. -/
def readItems (fuel : Nat) (t : Text) : Except JsonError (List Value × Text) :=
  match fuel with
  | 0 => .error .malformed
  | fuel + 1 => do
    let (v, t) ← readValue fuel t
    match skipBlanks t with
    | [] => .error .malformed
    | c :: rest =>
      if c = CodePoint.ofChar ']' then .ok ([v], rest)
      else if c = CodePoint.ofChar ',' then do
        let (more, t) ← readItems fuel (skipBlanks rest)
        return (v :: more, t)
      else .error .malformed

/-- The fields of a record up to its closing brace, added to those before. -/
def readFields (fuel : Nat) (before : List (Text × Value)) (t : Text) :
    Except JsonError (List (Text × Value) × Text) :=
  match fuel with
  | 0 => .error .malformed
  | fuel + 1 => do
    let (name, t) ← readString t
    match skipBlanks t with
    | [] => .error .malformed
    | c :: rest =>
      if c = CodePoint.ofChar ':' then do
        let (v, t) ← readValue fuel (skipBlanks rest)
        let fields := setField name v before
        match skipBlanks t with
        | [] => .error .malformed
        | d :: rest =>
          if d.val = 0x7D then .ok (fields, rest)
          else if d = CodePoint.ofChar ',' then readFields fuel fields (skipBlanks rest)
          else .error .malformed
      else .error .malformed

end

/-- The value that a text denotes. -/
def read (t : Text) : Except JsonError Value := do
  let (v, rest) ← readValue (2 * t.length + 2) (skipBlanks t)
  if (skipBlanks rest).isEmpty then return v else throw .malformed

end Value

end PenRover
