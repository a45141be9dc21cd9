import PenRover.CommandLine.Options

/-!
# Arguments

The command line names a job, and options before and after it: options that concern every job stand
before its name, and its own options and file after it.  A command line that is not understood is
refused as a whole, unless a request for help comes first.
-/

namespace PenRover

/-- What the program is to do. -/
inductive Job where
  | draw (file : Text) (url : Option Text) (rehearse : Bool)
  | serve (host : Text) (port : Int)
  | preview (file output : Text)
  deriving DecidableEq

/-- The arguments of the program. -/
structure Arguments where
  settingsFile : Text
  verbose : Bool
  job : Job
  deriving DecidableEq

/-- Why a command line gives no arguments. -/
inductive Usage where
  /-- Help was asked for. -/
  | help
  | refused
  deriving DecidableEq, Repr

namespace Usage

/-- The exit code of a program that explains its usage. -/
def exitCode : Usage → Nat
  | .help => 0
  | .refused => 2

end Usage

namespace Arguments

/-- What the options stand for. -/
inductive Key where
  | help
  | config
  | verbose
  | url
  | dryRun
  | host
  | port
  | output
  deriving DecidableEq, Repr

/-- The names of the jobs. -/
inductive JobName where
  | draw
  | serve
  | preview
  deriving DecidableEq, Repr

/-- The option that every job and the program itself have. -/
def helpOption : OptionSpec Key := ⟨.help, ["-h", "--help"], false⟩

/-- The options before the job. -/
def programOptions : List (OptionSpec Key) :=
  [helpOption, ⟨.config, ["--config"], true⟩, ⟨.verbose, ["-v", "--verbose"], false⟩]

namespace JobName

/-- The job with this name. -/
def ofText? (t : Text) : Option JobName :=
  if t = Text.ofString "draw" then some .draw
  else if t = Text.ofString "serve" then some .serve
  else if t = Text.ofString "preview" then some .preview
  else none

/-- The options of a job. -/
def options : JobName → List (OptionSpec Key)
  | .draw => [helpOption, ⟨.url, ["--url"], true⟩, ⟨.dryRun, ["--dry-run"], false⟩]
  | .serve => [helpOption, ⟨.host, ["--host"], true⟩, ⟨.port, ["--port"], true⟩]
  | .preview => [helpOption, ⟨.output, ["--output"], true⟩]

/-- The job works on a file. -/
def takesFile : JobName → Bool
  | .serve => false
  | _ => true

end JobName

/-- What was read so far. -/
structure Reading where
  config : Text
  verbose : Bool
  url : Option Text
  dryRun : Bool
  host : Text
  port : Int
  output : Text
  file : Option Text
  /-- A word was not understood, which is told only at the end. -/
  surplus : Bool

/-- Nothing read yet. -/
def Reading.start : Reading :=
  ⟨"config.json", false, none, false, "0.0.0.0", 8000, "preview.png", none, false⟩

/-- The effect of one option. -/
def apply (reading : Reading) : Key × Option Text → Except Usage Reading
  | (.help, _) => .error .help
  | (.config, value) => .ok { reading with config := value.getD reading.config }
  | (.verbose, _) => .ok { reading with verbose := true }
  | (.url, value) => .ok { reading with url := value }
  | (.dryRun, _) => .ok { reading with dryRun := true }
  | (.host, value) => .ok { reading with host := value.getD reading.host }
  | (.port, value) =>
    match value.bind Text.integer? with
    | some port => .ok { reading with port }
    | none => .error .refused
  | (.output, value) => .ok { reading with output := value.getD reading.output }

/-- The effect of options in turn. -/
def applyAll (reading : Reading) : List (Key × Option Text) → Except Usage Reading
  | [] => .ok reading
  | o :: rest => do applyAll (← apply reading o) rest

/-- Words with what they look like. -/
abbrev Words := List (Text × WordKind Key)

/-- The value that an option waits for is the next word, if that is a plain one. -/
def takeValue? : Option Key → Words → Option (List (Key × Option Text) × Nat)
  | none, _ => some ([], 0)
  | some key, (value, .plain) :: _ => some ([(key, some value)], 1)
  | some _, _ => none

/-- The effect of an option at the start of words, and how many of them belong to it as a value. -/
def takeOption (specs : List (OptionSpec Key)) (reading : Reading) (spec : OptionSpec Key)
    (byLetter : Bool) (attached : Option Text) (rest : Words) : Except Usage (Reading × Nat) :=
  match Options.effect? specs spec byLetter attached with
  | none => .error .refused
  | some effect =>
    match takeValue? effect.pending rest with
    | none => .error .refused
    | some (value, count) => do
      let reading ← applyAll reading (effect.complete ++ value)
      return ({ reading with surplus := reading.surplus || effect.surplus }, count)

/-- Reads the words after the name of a job.  The file is the first plain word; a divider next to it
belongs to it. -/
def readJob (specs : List (OptionSpec Key)) (takesFile : Bool) (reading : Reading) (words : Words) :
    Except Usage Reading :=
  match words with
  | [] => if takesFile && reading.file.isNone then .error .refused else .ok reading
  | (_, .option spec byLetter attached) :: rest => do
    let (reading, count) ← takeOption specs reading spec byLetter attached rest
    readJob specs takesFile reading (rest.drop count)
  | (_, .unknown) :: rest => readJob specs takesFile { reading with surplus := true } rest
  | (_, .divider) :: (word, .plain) :: rest =>
    if takesFile && reading.file.isNone then
      readJob specs takesFile { reading with file := some word } rest
    else readJob specs takesFile { reading with surplus := true } rest
  | (word, .plain) :: rest =>
    if takesFile && reading.file.isNone then
      let rest := match rest with
        | (_, .divider) :: more => more
        | _ => rest
      readJob specs takesFile { reading with file := some word } rest
    else readJob specs takesFile { reading with surplus := true } rest
  | (_, .divider) :: rest => readJob specs takesFile { reading with surplus := true } rest
  termination_by words.length
  decreasing_by all_goals grind [List.length_drop]

/-- The arguments of what was read. -/
def ofReading (job : JobName) (reading : Reading) : Arguments :=
  let file := reading.file.getD []
  ⟨reading.config, reading.verbose,
    match job with
    | .draw => .draw file reading.url reading.dryRun
    | .serve => .serve reading.host reading.port
    | .preview => .preview file reading.output⟩

/-- Reads the words of the program: its own options and then a job with all that follows it. -/
def readProgram (reading : Reading) (words : Words) : Except Usage Arguments :=
  match words with
  | (_, .option spec byLetter attached) :: rest => do
    let (reading, count) ← takeOption programOptions reading spec byLetter attached rest
    readProgram reading (rest.drop count)
  | (_, .unknown) :: rest => readProgram { reading with surplus := true } rest
  | (word, .plain) :: rest =>
    match JobName.ofText? word with
    | none => .error .refused
    | some job =>
      match Options.kinds? job.options (rest.map (·.1)) with
      | none => .error .refused
      | some words => do
        let reading ← readJob job.options job.takesFile reading words
        if reading.surplus then throw .refused else return ofReading job reading
  | (_, .divider) :: _ | [] => .error .refused
  termination_by words.length
  decreasing_by all_goals grind [List.length_drop]

/-- The arguments that a command line gives. -/
def read (line : List Text) : Except Usage Arguments :=
  match Options.kinds? programOptions line with
  | none => .error .refused
  | some words => readProgram Reading.start words

end Arguments

end PenRover
