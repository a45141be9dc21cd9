import PenRover.CommandLine.Program

/-!
# The executable

The outer layer of the program: it reads the files that the command line names, runs the program on
them, replays its journal in real time, and writes the files that have changed.  There is no radio
here, so nobody answers a connection attempt, and none is made in the background; a rehearsal needs
none.
-/

namespace PenRover.Main

/-- The entry with this name in the real file system.  What is there but cannot be read counts as a
folder. -/
def readNode? (name : String) : IO (Option Node) := do
  try
    let content ← IO.FS.readBinFile name
    return some (.file (.bytes content.toList))
  catch
    | .noFileOrDirectory .. => return none
    | _ => return some .folder

/-- The disk with the entry at a path and with the folders that lead to it. -/
def addPath (disk : Disk) (path : Path) : IO Disk := do
  let mut disk := disk
  for length in List.range path.length do
    let part := path.take (length + 1)
    if let some node ← readNode? (Disk.nameOf part).toString then
      disk := disk.put part node
  return disk

/-- The names of the files that a job works on. -/
def names (arguments : Arguments) : List Text :=
  match arguments.job with
  | .draw file .. => [file, arguments.settingsFile]
  | .preview file output => [file, output]
  | .serve .. => []

/-- The bytes of a file; of a picture the points of its lines. -/
def contentBytes : Content → Bytes
  | .bytes bytes => bytes
  | .picture chart =>
    Utf8.encode (chart.lines.flatMap fun line =>
      Text.ofString (line.colour ++ "\n" ++ String.join (line.points.map fun p =>
        p.1.text ++ " " ++ p.2.text ++ "\n")))

/-- Replays an entry of the journal. -/
def replay (level : Level) : Entry → IO Unit
  | .event (.wait time) => do
    match (Clock.checkTime time).bind Clock.seconds with
    | .ok seconds => IO.sleep (seconds * 1000).toUInt32
    | .error _ => return ()
  | .event _ => return ()
  | .note note =>
    if level.rank ≤ note.level.rank then
      IO.eprintln (note.level.name ++ " " ++ note.source ++ ": " ++ note.message.toString)
    else return ()

end PenRover.Main

open PenRover PenRover.Main in
/-- Runs the program. -/
def main (args : List String) : IO UInt32 := do
  let line := args.map Text.ofString
  let mut disk : Disk := []
  if let .ok arguments := Arguments.read line then
    for name in names arguments do
      disk ← addPath disk (name.pieces (CodePoint.ofChar '/'))
  let report := Program.run ⟨disk, ⟨[], []⟩, [], []⟩ line
  for entry in report.journal do
    replay report.level entry
  for (name, content) in report.disk.files do
    if let .picture _ := content then
      IO.FS.writeBinFile name.toString ⟨(contentBytes content).toArray⟩
  match report.ending with
  | .ok code => return code.toUInt32
  | .error breakdown =>
    IO.eprintln breakdown.message
    return 1
