import PenRover.Numeric.Double

/-!
# The shortest decimal of a double

A double is written with the fewest significant digits that read back as that double; among the
decimals of that length the nearest one is taken.  The search walks the decimal grids from one
digit to seventeen and asks of the two grid points around the exact value whether they round to
the double. How the digits are then laid out (positionally or with an exponent, and the words for
the infinities) is one record, so that the two formats of this library differ in a record only.
-/

namespace PenRover

-- powers are those of the core library, whatever other instances are in sight
attribute [local instance(2000)] instPowNat

/-- The number `digits · 10 ^ exponent`. -/
structure Decimal where
  digits : Nat
  exponent : Int
  deriving Repr, DecidableEq

namespace Decimal

/-- How many digits a natural number has; zero has one. -/
def width (n : Nat) : Nat := (Nat.toDigits 10 n).length

/-- The quotient `num / den` divided by `10 ^ e`, as a new quotient. -/
def scaleDown (num den : Nat) (e : Int) : Nat × Nat :=
  match e with
  | .ofNat k => (num, den * 10 ^ k)
  | .negSucc k => (num * 10 ^ (k + 1), den)

/-- The `e` with `10 ^ e ≤ num / den < 10 ^ (e + 1)`. -/
def leadingExponent (num den : Nat) : Int :=
  let guess := (width num : Int) - width den
  let (n, d) := scaleDown num den guess
  if n < d then guess - 1 else guess

/-- Whether `digits · 10 ^ exponent` is read as the double with these bits. -/
def readsAs (bits : Nat) (d : Decimal) : Bool :=
  d.digits != 0 &&
    match d.exponent with
    | .ofNat e => Double.nearestBits (d.digits * 10 ^ e) 1 == bits
    | .negSucc e => Double.nearestBits d.digits (10 ^ (e + 1)) == bits

/-- The grid points around `num / den` with last place `10 ^ exponent`, the nearer one first and the
even one first at a tie. -/
def neighbours (num den : Nat) (exponent : Int) : List Decimal :=
  let (n, d) := scaleDown num den exponent
  let low := n / d
  let twice := 2 * (n % d)
  if twice < d ∨ (twice = d ∧ low % 2 = 0) then [⟨low, exponent⟩, ⟨low + 1, exponent⟩]
  else [⟨low + 1, exponent⟩, ⟨low, exponent⟩]

/-- The shortest decimal that is read as the double with these bits, whose exact value is
`num / den`. -/
def shortest (bits num den : Nat) : Decimal :=
  let leading := leadingExponent num den
  let candidates :=
    (List.range 17).flatMap fun (k : Nat) => neighbours num den (leading - (k : Int))
  (candidates.find? (readsAs bits)).getD ⟨0, 0⟩

/-- The same number without zeros at the end of its digits.  The fuel bounds the number of zeros. -/
def strip (fuel : Nat) (d : Decimal) : Decimal :=
  match fuel with
  | 0 => d
  | fuel + 1 =>
    if d.digits ≠ 0 ∧ d.digits % 10 = 0 then strip fuel ⟨d.digits / 10, d.exponent + 1⟩ else d

end Decimal

/-! ## Layout -/

/-- How a double is laid out as text. -/
structure DoubleLayout where
  /-- The least exponent of the leading digit that is written without an exponent. -/
  lowest : Int
  /-- The first exponent of the leading digit that is again written with one. -/
  highest : Int
  /-- The least number of digits of a written exponent. -/
  exponentWidth : Nat
  /-- The word for infinity. -/
  infinity : String
  /-- The word for what is not a number. -/
  notANumber : String

namespace DoubleLayout

/-- Zeros and then the characters, to a given width. -/
def padLeft (width : Nat) (cs : List Char) : List Char :=
  List.replicate (width - cs.length) '0' ++ cs

/-- A decimal without trailing zeros, laid out. -/
def placeDecimal (layout : DoubleLayout) (d : Decimal) : List Char :=
  let cs := Nat.toDigits 10 d.digits
  let leading : Int := d.exponent + cs.length - 1
  if leading < layout.lowest ∨ layout.highest ≤ leading then
    let point := match cs.drop 1 with
      | [] => []
      | rest => '.' :: rest
    let sign := if leading < 0 then '-' else '+'
    cs.take 1 ++ point ++ 'e' :: sign ::
      padLeft layout.exponentWidth (Nat.toDigits 10 leading.natAbs)
  else if leading < 0 then
    '0' :: '.' :: (List.replicate (leading.natAbs - 1) '0' ++ cs)
  else if 0 ≤ d.exponent then
    cs ++ List.replicate d.exponent.toNat '0' ++ ['.', '0']
  else
    let whole := leading.toNat + 1
    cs.take whole ++ '.' :: cs.drop whole

/-- The text of a double. -/
def place (layout : DoubleLayout) (x : Float) : String :=
  match Double.view x with
  | .nan => layout.notANumber
  | .infinite negative => (if negative then "-" else "") ++ layout.infinity
  | .finite negative mantissa exponent =>
    let sign := if negative then ['-'] else []
    if mantissa = 0 then String.ofList (sign ++ ['0', '.', '0'])
    else
      let (num, den) := Double.scaleDown mantissa 1 (-exponent)
      let d := Decimal.shortest (x.toBits.toNat % 2 ^ (63 : Nat)) num den
      String.ofList (sign ++ layout.placeDecimal (d.strip 20))

end DoubleLayout

/-- Doubles in messages: an exponent below `1e-04` and from `1e+16` on, and lower-case words. -/
def messageLayout : DoubleLayout := ⟨-4, 16, 2, "inf", "nan"⟩

/-- Doubles in JSON text: as in messages, with words of its own for what JSON has no numeral for. -/
def jsonLayout : DoubleLayout := { messageLayout with infinity := "Infinity", notANumber := "NaN" }

end PenRover
