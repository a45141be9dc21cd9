import PenRover.Drawing.Preview
import PenRover.Text.Quoted
import PenRover.Text.Utf8

/-!
# The disk

The files that drawings and settings are read from, and that settings and previews are written to.
Names are relative to the working folder, the parts of a name being separated by slashes.
-/

namespace PenRover

/-- What a file holds: bytes, or the picture of a chart. -/
inductive Content where
  | bytes (bytes : Bytes)
  | picture (chart : Chart)

/-- An entry of the disk. -/
inductive Node where
  | file (content : Content)
  | folder

/-- Why a file could not be opened. -/
inductive FileFault where
  | missing
  | isFolder
  | notAFolder
  /-- The name holds a code point that no name can hold. -/
  | badName
  deriving DecidableEq, Repr

/-- A file that could not be opened. -/
structure FileError where
  fault : FileFault
  name : Text
  deriving DecidableEq

/-- The description of a file error. -/
def FileError.message (error : FileError) : String :=
  match error.fault with
  | .missing => "[Errno 2] No such file or directory: " ++ error.name.quoted
  | .isFolder => "[Errno 21] Is a directory: " ++ error.name.quoted
  | .notAFolder => "[Errno 20] Not a directory: " ++ error.name.quoted
  | .badName => "embedded null byte"

/-- Why a file was not written. -/
inductive WriteError where
  /-- It could not be opened, and is as it was. -/
  | unopened (error : FileError)
  /-- It was opened, which emptied it, and then there was room for a part only. -/
  | noSpace

/-- The description of a write error. -/
def WriteError.message : WriteError → String
  | .unopened error => error.message
  | .noSpace => "[Errno 28] No space left on device"

/-- A path from the working folder. -/
abbrev Path := List Text

/-- The entries below the working folder. -/
abbrev Disk := List (Path × Node)

/-- What a name leads to. -/
inductive Place where
  | file (path : Path) (content : Content)
  | folder (path : Path)
  /-- Nothing, in a folder that exists. -/
  | free (path : Path)
  /-- Nothing, under the name of a folder. -/
  | freeFolder
  /-- Nothing, in a folder that does not exist. -/
  | nowhere
  /-- A file stands where a folder is needed. -/
  | blocked

namespace Disk

/-- The entry at a path. -/
def node? (disk : Disk) (path : Path) : Option Node :=
  (disk.find? fun entry => entry.1 == path).map (·.2)

/-- Follows the parts of a name from a folder. -/
def follow (disk : Disk) (here : Path) : List Text → Place
  | [] => .folder here
  | part :: rest =>
    if part = [] ∨ part = ".".toList.map CodePoint.ofChar then follow disk here rest
    else if part = "..".toList.map CodePoint.ofChar then follow disk here.dropLast rest
    else
      match disk.node? (here ++ [part]) with
      | some .folder => follow disk (here ++ [part]) rest
      | some (.file content) => if rest = [] then .file (here ++ [part]) content else .blocked
      | none =>
        if rest = [] then .free (here ++ [part])
        else if rest.all List.isEmpty then .freeFolder
        else .nowhere

/-- What a name leads to. -/
def locate (disk : Disk) (name : Text) : Place :=
  match name with
  | [] => .nowhere
  | c :: _ =>
    if c = CodePoint.ofChar '/' then .nowhere
    else disk.follow [] (name.pieces (CodePoint.ofChar '/'))

/-- There is an entry with this name. -/
def contains (disk : Disk) (name : Text) : Bool :=
  match disk.locate name with
  | .file .. | .folder _ => !name.contains (CodePoint.ofNat 0)
  | _ => false

/-- The bytes of a file; a picture counts as empty. -/
def readBytes (disk : Disk) (name : Text) : Except FileError Bytes :=
  if name.contains (CodePoint.ofNat 0) then .error ⟨.badName, name⟩
  else match disk.locate name with
    | .file _ (.bytes bytes) => .ok bytes
    | .file _ (.picture _) => .ok []
    | .folder _ => .error ⟨.isFolder, name⟩
    | .free _ | .freeFolder | .nowhere => .error ⟨.missing, name⟩
    | .blocked => .error ⟨.notAFolder, name⟩

/-- The disk with an entry set. -/
def put (path : Path) (node : Node) : Disk → Disk
  | [] => [(path, node)]
  | (p, n) :: rest => if p == path then (p, node) :: rest else (p, n) :: put path node rest

/-- The disk with the content of a file set. -/
def write (disk : Disk) (name : Text) (content : Content) : Except FileError Disk :=
  if name.contains (CodePoint.ofNat 0) then .error ⟨.badName, name⟩
  else match disk.locate name with
    | .file path _ | .free path => .ok (disk.put path (.file content))
    | .folder _ | .freeFolder => .error ⟨.isFolder, name⟩
    | .nowhere => .error ⟨.missing, name⟩
    | .blocked => .error ⟨.notAFolder, name⟩

/-- Writes bytes to a file that has room for so many, if there is a limit; gives what went wrong,
and the disk in either case. -/
def writeWithin (disk : Disk) (room : Option Nat) (name : Text) (bytes : Bytes) :
    Option WriteError × Disk :=
  let part := bytes.take (room.getD bytes.length)
  match disk.write name (.bytes part) with
  | .error error => (some (.unopened error), disk)
  | .ok after => (if part.length < bytes.length then some .noSpace else none, after)

/-- The text of a path. -/
def nameOf (path : Path) : Text := Text.join (CodePoint.ofChar '/') path

/-- The files with their names, in the order of the names. -/
def files (disk : Disk) : List (Text × Content) :=
  (disk.filterMap fun (path, node) =>
    match node with
    | .file content => some (nameOf path, content)
    | .folder => none).mergeSort fun a b => Text.le a.1 b.1

end Disk

/-- The text with every line ending as a line feed. -/
def Text.unifyLines : Text → Text
  | [] => []
  | [c] => if c = CodePoint.ofChar '\r' then [CodePoint.ofChar '\n'] else [c]
  | c :: d :: rest =>
    if c = CodePoint.ofChar '\r' then
      if d = CodePoint.ofChar '\n' then CodePoint.ofChar '\n' :: unifyLines rest
      else CodePoint.ofChar '\n' :: unifyLines (d :: rest)
    else c :: unifyLines (d :: rest)

/-- The description of a decoding error. -/
def Utf8Error.message (error : Utf8Error) : String :=
  "'utf-8' codec can't decode " ++
    (match error.bad with
      | [b] =>
        "byte 0x" ++ String.ofList (hexText 2 b.toNat) ++ " in position " ++ toString error.position
      | bad =>
        "bytes in position " ++ toString error.position ++ "-" ++
          toString (error.position + bad.length - 1)) ++
    ": " ++ error.fault.message

/-- Why a text file could not be read. -/
inductive ReadError where
  | file (error : FileError)
  | undecodable (error : Utf8Error)

/-- The description of a read error. -/
def ReadError.message : ReadError → String
  | .file error => error.message
  | .undecodable error => error.message

/-- The text of a file, with every line ending as a line feed. -/
def Disk.readText (disk : Disk) (name : Text) : Except ReadError Text :=
  match disk.readBytes name with
  | .error error => .error (.file error)
  | .ok bytes =>
    match Utf8.decode false bytes with
    | .error error => .error (.undecodable error)
    | .ok text => .ok text.unifyLines

end PenRover
