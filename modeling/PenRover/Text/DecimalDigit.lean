import PenRover.Text.Blank

/-!
# Decimal digits of all scripts

Unicode has its decimal digits in runs of ten, from the digit zero to the digit nine of a script.  A
numeral may mix scripts.  Numerals of more than 4300 digits are refused wherever a numeral is read.
-/

namespace PenRover

/-- The digits zero of all scripts. -/
def digitZeros : List Nat :=
  [0x0030, 0x0660, 0x06F0, 0x07C0, 0x0966, 0x09E6, 0x0A66, 0x0AE6, 0x0B66, 0x0BE6, 0x0C66, 0x0CE6,
    0x0D66, 0x0DE6, 0x0E50, 0x0ED0, 0x0F20, 0x1040, 0x1090, 0x17E0, 0x1810, 0x1946, 0x19D0, 0x1A80,
    0x1A90, 0x1B50, 0x1BB0, 0x1C40, 0x1C50, 0xA620, 0xA8D0, 0xA900, 0xA9D0, 0xA9F0, 0xAA50, 0xABF0,
    0xFF10, 0x104A0, 0x10D30, 0x11066, 0x110F0, 0x11136, 0x111D0, 0x112F0, 0x11450, 0x114D0,
    0x11650, 0x116C0, 0x11730, 0x118E0, 0x11950, 0x11C50, 0x11D50, 0x11DA0, 0x16A60, 0x16AC0,
    0x16B50, 0x1D7CE, 0x1D7D8, 0x1D7E2, 0x1D7EC, 0x1D7F6, 0x1E140, 0x1E2F0, 0x1E950, 0x1FBF0]

/-- The value of a decimal digit. -/
def CodePoint.digit? (c : CodePoint) : Option Nat :=
  (digitZeros.find? fun first => first ≤ c.val && c.val ≤ first + 9).map (c.val - ·)

/-- The greatest number of digits of a numeral. -/
def maxNumeralDigits : Nat := 4300

/-- The message about a numeral with more digits than are read. -/
def numeralTooLongMessage (digits : Nat) : String :=
  "Exceeds the limit (4300 digits) for integer string conversion: value has " ++ toString digits ++
    " digits; use sys.set_int_max_str_digits() to increase the limit"

namespace Text

/-- The digits of a text that holds digits only. -/
def digits? (t : Text) : Option (List Nat) := t.mapM CodePoint.digit?

/-- The number with these digits, the leading one first. -/
def ofDigits (ds : List Nat) : Nat := ds.foldl (fun n d => 10 * n + d) 0

/-- The sign of a numeral and what follows it. -/
def splitSign : Text → Bool × Text
  | [] => (false, [])
  | c :: rest =>
    if c = CodePoint.ofChar '-' then (true, rest)
    else if c = CodePoint.ofChar '+' then (false, rest)
    else (false, c :: rest)

/-- A signed numeral: its sign and its digits, of which there is at least one. -/
def numeral? (t : Text) : Option (Bool × List Nat) :=
  let (negative, rest) := splitSign t
  match digits? rest with
  | none | some [] => none
  | some ds => some (negative, ds)

/-- The digits of a text in which single underscores may stand between digits; after an underscore
and at the start, when `due` holds, a digit has to come. -/
def groupedDigits? (due : Bool) : Text → Option (List Nat)
  | [] => if due then none else some []
  | c :: rest =>
    match c.digit? with
    | some d => (d :: ·) <$> groupedDigits? false rest
    | none => if c = CodePoint.ofChar '_' ∧ due = false then groupedDigits? true rest else none

/-- The integer that a text denotes, with underscores between its digits and with blanks around it,
of which the information separators are none here. -/
def integer? (t : Text) : Option Int :=
  let (negative, rest) := splitSign (t.strip fun c => c.isBlank && !c.isSeparator)
  match groupedDigits? true rest with
  | none => none
  | some ds =>
    if maxNumeralDigits < ds.length then none
    else some (if negative then -(ofDigits ds : Int) else ofDigits ds)

end Text

end PenRover
