import PenRover.Disk
import PenRover.Settings.Basic
import PenRover.Value.Reader
import PenRover.Value.Writer

/-!
# Settings files

Settings are kept in a JSON file.  A file that does not exist stands for the standard settings, and
so does every setting that the file does not mention; names that are no settings are passed over.
-/

namespace PenRover

/-- Why settings could not be loaded. -/
inductive LoadError where
  | unreadable (error : ReadError)
  | json (error : JsonError)
  /-- The file holds a value that is no record. -/
  | notARecord (kind : Kind)

/-- The description of a load error; a text that is not JSON has none. -/
def LoadError.message : LoadError → String
  | .unreadable error => error.message
  | .json .malformed => ""
  | .json (.numeralTooLong digits) => numeralTooLongMessage digits
  | .notARecord kind => "'" ++ kind.name ++ "' object has no attribute 'get'"

namespace Settings

/-- The settings of a record, with the standard value for each that is not there. -/
def ofFields (fields : List (Text × Value)) : Settings :=
  ofFunction fun key => (Value.field? (Text.ofString key.name) fields).getD key.standard

/-- The settings that a text denotes. -/
def ofText (text : Text) : Except LoadError Settings :=
  match Value.read text with
  | .error error => .error (.json error)
  | .ok (.record fields) => .ok (ofFields fields)
  | .ok v => .error (.notARecord v.kind)

/-- The text that settings are saved as. -/
def toText (s : Settings) : Text := s.toValue.write fileStyle

/-- The settings of the file with this name. -/
def load (disk : Disk) (name : Text) : Except LoadError Settings :=
  if disk.contains name then
    match disk.readText name with
    | .error error => .error (.unreadable error)
    | .ok text => ofText text
  else .ok standard

/-- The disk with the settings saved under this name. -/
def save (s : Settings) (disk : Disk) (name : Text) : Except FileError Disk :=
  disk.write name (.bytes (Utf8.encode s.toText))

/-- Saves settings under this name, in a file that has room for so many bytes. -/
def saveWithin (s : Settings) (room : Option Nat) (disk : Disk) (name : Text) :
    Option WriteError × Disk :=
  disk.writeWithin room name (Utf8.encode s.toText)

end Settings

end PenRover
