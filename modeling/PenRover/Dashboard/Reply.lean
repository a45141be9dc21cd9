import PenRover.Dashboard.Basic
import PenRover.Dashboard.Route
import PenRover.Text.Wide

/-!
# Requests and answers

What the dashboard answers to a request, and what the request does to it.  A drawing is replaced
only while none is being drawn.  A run is stopped at once but its last command runs to its end
without frames.  A change of settings takes effect as a whole or not at all, and is saved.

An answer can fail after the request took effect: JSON has no numeral for an infinity, and UTF-8 no
bytes for a surrogate.
-/

namespace PenRover

/-- A request. -/
structure Request where
  method : Text
  /-- The address of the dashboard itself. -/
  host : Text
  /-- The path with its query. -/
  address : Text
  contentType : Text
  body : Bytes

/-- An answer. -/
inductive Answer where
  | json (code : Nat) (body : Value)
  | redirect (location : Text)
  /-- The page of the dashboard. -/
  | page
  | picture (chart : Chart)
  /-- The body of the request does not have the form that is asked for. -/
  | unprocessable

/-- Why a request was not answered. -/
inductive Mishap where
  /-- A fault of the motors or of the plan. -/
  | fault (cause : Fault)
  /-- The name of the settings file is no name. -/
  | badName (error : FileError)
  | numeralTooLong (digits : Nat)
  /-- The answer holds a double that has no numeral. -/
  | notFinite
  /-- The answer holds surrogates: the position of the first, and it with those that follow it. -/
  | surrogates (position : Nat) (run : Text)

/-- The description of a mishap. -/
def Mishap.message : Mishap → String
  | .fault cause => cause.message
  | .badName error => error.message
  | .numeralTooLong digits => numeralTooLongMessage digits
  | .notFinite => "Out of range float values are not JSON compliant"
  | .surrogates position run =>
    "'utf-8' codec can't encode " ++
      (match run with
        | [c] =>
          "character '\\u" ++ String.ofList (hexText 4 c.val) ++ "' in position " ++
            toString position
        | _ =>
          "characters in position " ++ toString position ++ "-" ++
            toString (position + run.length - 1)) ++
      ": surrogates not allowed"

/-- The number of lines of the page of the dashboard. -/
def pageLines : Nat := 65

namespace Answer

/-- A record with these fields. -/
def record (fields : List (String × Value)) : Value :=
  .record (fields.map fun (name, v) => (Text.ofString name, v))

/-- The refusal of a request, with its reason. -/
def refusal (code : Nat) (reason : String) : Answer :=
  .json code (record [("detail", .text (Text.ofString reason))])

/-- A status in an answer. -/
def ofStatus (status : Status) : Value :=
  record [("message", .text (Text.ofString status.message)),
    ("severity", .text (Text.ofString status.severity.word))]

/-- The first surrogates of a text with their position, which starts from here. -/
def firstSurrogates (position : Nat) : Text → Option (Nat × Text)
  | [] => none
  | c :: rest =>
    if c.isSurrogate then some (position, c :: rest.takeWhile CodePoint.isSurrogate)
    else firstSurrogates (position + 1) rest

/-- The answer, unless it cannot be written. -/
def check (answer : Answer) : Except Mishap Answer :=
  match answer with
  | .json code body =>
    if !body.isFinite then .error .notFinite
    else match firstSurrogates 0 (body.write answerStyle) with
      | some (position, run) => .error (.surrogates position run)
      | none => .ok (.json code body)
  | answer => .ok answer

end Answer

/-! ## Bodies -/

namespace Request

/-- The content type is JSON: the type `application` with the subtype `json` or one that ends in
`+json`.  Without a content type the body counts as JSON. -/
def isJson (request : Request) : Bool :=
  let kind : Text := request.contentType.takeWhile (· != CodePoint.ofChar ';')
  let lower : Text := (Text.trim kind).map fun c =>
    if 0x41 ≤ c.val ∧ c.val ≤ 0x5A then CodePoint.ofNat (c.val + 0x20) else c
  request.contentType.isEmpty ||
    match lower.pieces (CodePoint.ofChar '/') with
    | [family, subtype] =>
      family == Text.ofString "application" &&
        (subtype == Text.ofString "json" || (Text.ofString "+json").isSuffixOf subtype)
    | _ => false

/-- The fields of the record that the body denotes, or the answer to a body that denotes none. -/
def fields (request : Request) : Except Answer (List (Text × Value)) :=
  let unreadable := Answer.refusal 400 "There was an error parsing the body"
  if request.body.isEmpty || !request.isJson then .error .unprocessable
  else match Wide.decode? request.body with
    | none => .error unreadable
    | some text =>
      match Value.read text with
      | .ok (.record fields) => .ok fields
      | .ok _ | .error .malformed => .error .unprocessable
      | .error (.numeralTooLong _) => .error unreadable

end Request

/-! ## Services -/

namespace Dashboard

/-- What a request comes to. -/
abbrev Reply := Except Mishap Answer × Dashboard × Journal

/-- The state as it is shown. -/
def overview (d : Dashboard) : Answer :=
  .json 200 (Answer.record [("status", Answer.ofStatus d.status),
    ("file_ready", .flag d.drawing.isSome),
    ("command_count", .int ((d.drawing.map List.length).getD 0)),
    ("drawing", .flag d.current.isSome)])

/-- Loads a drawing when its bytes are there.  A drawing with a bad line leaves none loaded. -/
def receive (d : Dashboard) (body : Bytes) : Reply :=
  match Utf8.decode false body with
  | .error _ => (.ok (.refusal 400 "Drawing files must be UTF-8 text"), d, [])
  | .ok text =>
    match Drawing.read text with
    | .error (.numeralTooLong digits) => (.error (.numeralTooLong digits), d, [])
    | .error error =>
      (.ok (.refusal 400 error.message),
        { d with drawing := none, status := .failed error.message },
        [.note (.drawingRejected error)])
    | .ok commands =>
      let answer := Answer.record [("status", Answer.ofStatus .ready),
        ("command_count", .int commands.length)]
      (.ok (.json 200 answer), { d with drawing := some commands, status := .ready },
        [.note (.drawingLoaded commands.length)])

/-- Lets an upload in while no session is in use, and loads its drawing.  The bytes may arrive later
than the upload was let in; here they are there at once. -/
def upload (d : Dashboard) (body : Bytes) : Reply :=
  if d.current.isSome then (.ok (.refusal 409 "Already drawing"), d, []) else d.receive body

/-- Starts to draw the loaded drawing. -/
def start (d : Dashboard) : Reply :=
  match d.current, d.drawing with
  | some _, _ => (.ok (.refusal 409 "Already drawing"), d, [])
  | none, none => (.ok (.refusal 400 "No drawing file loaded"), d, [])
  | none, some commands =>
    let n := d.sessions.length
    let sessions := d.sessions ++ [⟨Link.ofSettings d.settings, false⟩]
    let (d, journal) := { d with sessions, current := some n, status := .running }.begin n commands
    (.ok (.json 200 (Answer.record [("status", Answer.ofStatus .running)])), d, journal)

/-- Discards the drawing after a stop. -/
def discard (d : Dashboard) (journal : Journal) : Reply :=
  (.ok (.json 200 (Answer.record [("status", Answer.ofStatus .aborted)])),
    { d with drawing := none, status := .aborted }, journal ++ [.note .drawingStopped])

/-- Stops the run and discards the drawing.  When the stop cannot be sent, nothing else happens. -/
def stop (d : Dashboard) : Reply :=
  match d.current with
  | none => d.discard []
  | some n =>
    match d.inSession n Session.stop with
    | (.ok (), d, journal) => d.discard journal
    | (.error fault, d, journal) => (.error (.fault fault), d, journal)

/-- Shows the planned path of the loaded drawing. -/
def preview (d : Dashboard) : Reply :=
  match d.drawing with
  | none => (.ok (.refusal 404 "No drawing file loaded"), d, [])
  | some commands =>
    match Drawing.preview commands with
    | .ok chart => (.ok (.picture chart), d, [])
    | .error fault => (.error (.fault fault), d, [])

/-- Changes settings and saves them. -/
def changeSettings (d : Dashboard) (entries : List (Text × Value)) : Reply :=
  match d.settings.update entries with
  | .error error =>
    let reason := match error with
      | .unknown _ => "Unknown configuration key: " ++ error.message
      | .wrongKind .. => error.message
    (.ok (.refusal 400 reason), d, [])
  | .ok settings =>
    let (error, disk) := settings.saveWithin d.room d.disk d.settingsFile
    let d := { d with settings, disk }
    match error with
    | some (.unopened ⟨.badName, name⟩) => (.error (.badName ⟨.badName, name⟩), d, [])
    | some error =>
      (.ok (.refusal 500 ("Failed to save configuration: " ++ error.message)), d,
        [.note (.settingsNotSaved error)])
    | none =>
      let answer := Answer.record [("status", .text "success"), ("config", settings.toValue)]
      (.ok (.json 200 answer), d, [.note (.settingsUpdated entries)])

/-- The reply of a service. -/
def serve (d : Dashboard) (request : Request) : Service → Reply
  | .welcome => (.ok (.redirect "/ui"), d, [])
  | .page => (.ok .page, d, [])
  | .status => (.ok d.overview, d, [])
  | .upload => d.upload request.body
  | .start => d.start
  | .stop => d.stop
  | .preview => d.preview
  | .readSettings => (.ok (.json 200 d.settings.toValue), d, [])
  | .changeSettings =>
    match request.fields with
    | .ok fields => d.changeSettings fields
    | .error answer => (.ok answer, d, [])

/-- The reply to a request, before background tasks begin. -/
def answer (d : Dashboard) (request : Request) : Reply :=
  match (Address.path? request.address).map (Destination.ofPath request.method) with
  | some (.service service) => d.serve request service
  | some .wrongMethod => (.ok (.refusal 405 "Method Not Allowed"), d, [])
  | some (.elsewhere path) =>
    let query := Address.queryOf request.address
    (.ok (.redirect (Text.ofString "http://" ++ request.host ++ path ++ query)), d, [])
  | some .unknown | none => (.ok (.refusal 404 "Not Found"), d, [])

/-- The reply to a request. -/
def handle (d : Dashboard) (request : Request) : Reply :=
  let (result, d, journal) := d.answer request
  let (d, more) := d.settle
  (result.bind Answer.check, d, journal ++ more)

end Dashboard

end PenRover
