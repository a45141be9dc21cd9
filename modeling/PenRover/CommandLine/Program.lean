import PenRover.CommandLine.Arguments
import PenRover.CommandLine.Console
import PenRover.Settings.File

/-!
# The program

The program does the job that its command line names, on a disk and under given radio conditions.
A drawing file that cannot be read or that is rejected is reported in the journal.
-/

namespace PenRover

/-- What ends the program before its job is done. -/
inductive Breakdown where
  | settings (error : LoadError)
  | motion (fault : Fault)
  | numeralTooLong (digits : Nat)
  | file (error : FileError)

/-- The description of a breakdown. -/
def Breakdown.message : Breakdown → String
  | .settings error => error.message
  | .motion fault => fault.message
  | .numeralTooLong digits => numeralTooLongMessage digits
  | .file error => error.message

/-- What the program works on. -/
structure Surroundings where
  disk : Disk
  air : Air
  /-- The waits at whose beginning the user interrupts. -/
  interrupts : List Nat
  /-- What happens during the waits of a drawing, and after its run. -/
  pauses : List Pause

/-- How the program ended. -/
structure Report where
  /-- The exit code, or what went wrong. -/
  ending : Except Breakdown Nat
  /-- Everything of importance is noted, and with verbose notes the rest too. -/
  level : Level
  journal : Journal
  disk : Disk
  /-- The address at which the dashboard was served. -/
  served : Option (Text × Int)

namespace Outcome

/-- The exit code after a drawing. -/
def exitCode : Outcome → Nat
  | .completed => 0
  | .cancelled => 130

end Outcome

namespace Program

/-- Reads a drawing file.  A file that is unreadable or rejected gives a note and no commands. -/
def load (disk : Disk) (name : Text) : Except Breakdown (Option (List Command) × Journal) :=
  match disk.readText name with
  | .error (.file ⟨.badName, name⟩) => .error (.file ⟨.badName, name⟩)
  | .error error => .ok (none, [.note (.fileUnreadable name error.message)])
  | .ok text =>
    match Drawing.read text with
    | .ok commands => .ok (some commands, [])
    | .error (.numeralTooLong digits) => .error (.numeralTooLong digits)
    | .error error => .ok (none, [.note (.fileRejected error)])

/-- The settings of a drawing job: those of the file, with the address and the rehearsal that the
command line asks for. -/
def jobSettings (settings : Settings) (url : Option Text) (rehearse : Bool) : Settings :=
  let settings := match url with
    | some (c :: rest) => settings.set .robotUrl (.text (c :: rest))
    | _ => settings
  if rehearse then settings.set .dryRun (.flag true) else settings

/-- Draws commands. -/
def draw (around : Surroundings) (settingsFile : Text) (url : Option Text) (rehearse : Bool)
    (commands : List Command) : Except Breakdown Nat × Journal :=
  match Settings.load around.disk settingsFile with
  | .error error => (.error (.settings error), [])
  | .ok settings =>
    let session := Session.new (jobSettings settings url rehearse) around.air Clock.start
    match Console.draw commands (Console.new session around.interrupts around.pauses) with
    | (.ok outcome, _, journal) => (.ok outcome.exitCode, journal ++ [.note (.fileDrawn outcome)])
    | (.error fault, _, journal) => (.error (.motion fault), journal)

/-- Writes the preview of commands.  The file is there, and empty, before the plan is made. -/
def preview (disk : Disk) (output : Text) (commands : List Command) :
    Except Breakdown Nat × Journal × Disk :=
  match disk.write output (.bytes []) with
  | .error error => (.error (.file error), [], disk)
  | .ok opened =>
    match Drawing.preview commands with
    | .error fault => (.error (.motion fault), [], opened)
    | .ok chart =>
      match opened.write output (.picture chart) with
      | .error error => (.error (.file error), [], opened)
      | .ok disk => (.ok 0, [.note (.previewWritten commands.length output)], disk)

/-- Does what the arguments say. -/
def perform (around : Surroundings) (arguments : Arguments) : Report :=
  let level := if arguments.verbose then Level.debug else Level.info
  let report (ending : Except Breakdown Nat) (journal : Journal) (disk : Disk) : Report :=
    ⟨ending, level, journal, disk, none⟩
  let loading (file : Text) (work : List Command → Except Breakdown Nat × Journal × Disk) :
      Report :=
    match load around.disk file with
    | .error breakdown => report (.error breakdown) [] around.disk
    | .ok (none, journal) => report (.ok 1) journal around.disk
    | .ok (some commands, journal) =>
      let (ending, more, disk) := work commands
      report ending (journal ++ more) disk
  match arguments.job with
  | .serve host port => { report (.ok 0) [] around.disk with served := some (host, port) }
  | .preview file output => loading file (preview around.disk output)
  | .draw file url rehearse => loading file fun commands =>
    let (ending, journal) := draw around arguments.settingsFile url rehearse commands
    (ending, journal, around.disk)

/-- Runs the program on a command line. -/
def run (around : Surroundings) (line : List Text) : Report :=
  match Arguments.read line with
  | .error usage => ⟨.ok usage.exitCode, .info, [], around.disk, none⟩
  | .ok arguments => perform around arguments

end Program

end PenRover
