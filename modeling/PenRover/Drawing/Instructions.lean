import PenRover.Drawing.Command
import PenRover.Text.DecimalDigit

/-!
# Drawing files

A drawing file holds one instruction per line: two integers and a keyword, with blanks between them.
Lines end at a line feed and nowhere else.  The first line that is not an instruction decides the
error, and nothing of the file is kept.
-/

namespace PenRover

/-- What is wrong with a line. -/
inductive LineFault where
  /-- There are not three words. -/
  | malformed
  /-- The third word is no keyword. -/
  | unknownCommand
  /-- One of the first two words is no integer. -/
  | invalidNumber
  deriving DecidableEq, Repr

/-- Why a drawing was not read. -/
inductive DrawingError where
  /-- A line is no instruction; lines are counted from one. -/
  | badLine (fault : LineFault) (line : Int)
  /-- An integer has more digits than are read. -/
  | numeralTooLong (digits : Nat)
  deriving DecidableEq, Repr

/-- The description of a line fault. -/
def LineFault.message : LineFault → String
  | .malformed => "Invalid number of arguments on line"
  | .unknownCommand => "Unknown command on line"
  | .invalidNumber => "Invalid numeric values on line"

/-- The description of a drawing error. -/
def DrawingError.message : DrawingError → String
  | .badLine fault line => fault.message ++ " " ++ toString line ++ "."
  | .numeralTooLong digits => numeralTooLongMessage digits

namespace Drawing

/-- The integer of a numeral. -/
def integer (numeral : Bool × List Nat) : Except DrawingError Int :=
  let (negative, digits) := numeral
  if maxNumeralDigits < digits.length then .error (.numeralTooLong digits.length)
  else .ok (if negative then -(Text.ofDigits digits : Int) else Text.ofDigits digits)

/-- The command of a line. -/
def readLine (line : Text) (number : Int) : Except DrawingError Command :=
  match line.words with
  | [first, second, word] =>
    match Keyword.ofText? word with
    | none => .error (.badLine .unknownCommand number)
    | some keyword =>
      match first.numeral?, second.numeral? with
      | some a, some b => do return keyword.command (← integer a) (← integer b)
      | _, _ => .error (.badLine .invalidNumber number)
  | _ => .error (.badLine .malformed number)

/-- The commands of lines, the first of which has this number. -/
def readLinesFrom (number : Nat) : List Text → Except DrawingError (List Command)
  | [] => .ok []
  | line :: rest => do
    let command ← readLine line number
    return command :: (← readLinesFrom (number + 1) rest)

/-- The commands of the lines of a file. -/
def readLines (lines : List Text) : Except DrawingError (List Command) := readLinesFrom 1 lines

/-- The commands of a drawing file. -/
def read (text : Text) : Except DrawingError (List Command) :=
  readLines (text.pieces (CodePoint.ofChar '\n'))

end Drawing

end PenRover
