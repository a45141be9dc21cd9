import PenRover.Value.Basic
import PenRover.Text.DecimalDigit
import PenRover.Text.Quoted

/-!
# Values in messages

A value is displayed with quoted texts, brackets around lists and braces around records.  On its own
a text is shown as it is.  An integer with more digits than are read is not written either.
-/

namespace PenRover

-- powers are those of the core library, whatever other instances are in sight
attribute [local instance(2000)] instPowNat

namespace Value

/-- A displayed sequence: its parts with a comma and a space between them. -/
def commaSeparated (parts : List String) : String := ", ".intercalate parts

mutual

/-- The display of a value, with its texts quoted. -/
def display : Value → String
  | .null => "None"
  | .flag b => if b then "True" else "False"
  | .number n => n.text
  | .text t => t.quoted
  | .list items => "[" ++ commaSeparated (displayItems items) ++ "]"
  | .record fields => "\x7b" ++ commaSeparated (displayFields fields) ++ "\x7d"

/-- The displays of the items of a list. -/
def displayItems : List Value → List String
  | [] => []
  | v :: rest => v.display :: displayItems rest

/-- The displays of the fields of a record. -/
def displayFields : List (Text × Value) → List String
  | [] => []
  | (name, v) :: rest => (name.quoted ++ ": " ++ v.display) :: displayFields rest

end

/-- The display of a value on its own: a text stands without quotes. -/
def shown : Value → Text
  | .text t => t
  | v => Text.ofString v.display

/-- An integer has more digits than are written. -/
def isTooLong (n : Int) : Bool := 10 ^ maxNumeralDigits ≤ n.natAbs

mutual

/-- The value can be displayed: none of its integers is too long. -/
def isDisplayable : Value → Bool
  | .number (.int n) => !isTooLong n
  | .list items => itemsDisplayable items
  | .record fields => fieldsDisplayable fields
  | _ => true

/-- All items can be displayed. -/
def itemsDisplayable : List Value → Bool
  | [] => true
  | v :: rest => v.isDisplayable && itemsDisplayable rest

/-- All fields can be displayed. -/
def fieldsDisplayable : List (Text × Value) → Bool
  | [] => true
  | (_, v) :: rest => v.isDisplayable && fieldsDisplayable rest

end

end Value

end PenRover
