import PenRover.Value.Basic
import PenRover.Text.Quoted

/-!
# Writing JSON

A written value has its fields in order.  Two styles are in use.  Settings files hold nothing but
printable ASCII, with a space after each comma and colon.  Answers to requests are written without
spaces, keep every code point but the control characters, and have no numeral for what is not a
finite number.
-/

namespace PenRover

/-- How JSON is written. -/
structure JsonStyle where
  comma : String
  colon : String
  asciiOnly : Bool

/-- The style of settings files. -/
def fileStyle : JsonStyle := ⟨", ", ": ", true⟩

/-- The style of answers to requests. -/
def answerStyle : JsonStyle := ⟨",", ":", false⟩

namespace Value

/-- The escape of a sixteen-bit unit. -/
def escapeUnit (n : Nat) : Text := Text.ofString (String.ofList ('\\' :: 'u' :: hexText 4 n))

/-- A code point inside a JSON string. -/
def escapePoint (asciiOnly : Bool) (c : CodePoint) : Text :=
  match c.val with
  | 0x22 => "\\\""
  | 0x5C => "\\\\"
  | 0x0A => "\\n"
  | 0x0D => "\\r"
  | 0x09 => "\\t"
  | 0x08 => "\\b"
  | 0x0C => "\\f"
  | n =>
    if n < 0x20 then escapeUnit n
    else if asciiOnly = false ∨ n < 0x7F then [c]
    else if n < 0x10000 then escapeUnit n
    else
      escapeUnit (0xD800 + (n - 0x10000) / 0x400) ++ escapeUnit (0xDC00 + (n - 0x10000) % 0x400)

/-- A JSON string. -/
def writeText (asciiOnly : Bool) (t : Text) : Text :=
  Text.ofString "\"" ++ t.flatMap (escapePoint asciiOnly) ++ Text.ofString "\""

/-- A JSON number, or the word for a double that has no numeral. -/
def writeNumber : Number → Text
  | .int n => Text.ofString (toString n)
  | .double x => Text.ofString (jsonLayout.place x)

/-- Parts with a separator between them. -/
def separated (separator : String) : List Text → Text
  | [] => []
  | [part] => part
  | part :: rest => part ++ Text.ofString separator ++ separated separator rest

mutual

/-- The JSON text of a value. -/
def write (style : JsonStyle) : Value → Text
  | .null => "null"
  | .flag b => if b then "true" else "false"
  | .number n => writeNumber n
  | .text t => writeText style.asciiOnly t
  | .list items =>
    Text.ofString "[" ++ separated style.comma (writeItems style items) ++ Text.ofString "]"
  | .record fields =>
    Text.ofString "\x7b" ++ separated style.comma (writeFields style fields) ++ Text.ofString "\x7d"

/-- The JSON texts of the items of a list. -/
def writeItems (style : JsonStyle) : List Value → List Text
  | [] => []
  | v :: rest => v.write style :: writeItems style rest

/-- The JSON texts of the fields of a record. -/
def writeFields (style : JsonStyle) : List (Text × Value) → List Text
  | [] => []
  | (name, v) :: rest =>
    (writeText style.asciiOnly name ++ Text.ofString style.colon ++ v.write style) ::
      writeFields style rest

end

mutual

/-- Every double in the value is finite. -/
def isFinite : Value → Bool
  | .number (.double x) => Double.isFinite x
  | .list items => itemsFinite items
  | .record fields => fieldsFinite fields
  | _ => true

/-- Every double in the items is finite. -/
def itemsFinite : List Value → Bool
  | [] => true
  | v :: rest => v.isFinite && itemsFinite rest

/-- Every double in the fields is finite. -/
def fieldsFinite : List (Text × Value) → Bool
  | [] => true
  | (_, v) :: rest => v.isFinite && fieldsFinite rest

end

end Value

end PenRover
