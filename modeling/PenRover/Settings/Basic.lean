import PenRover.Value.Display

/-!
# Settings

The eight settings, in the order in which they are listed and saved.  A setting has the kind of its
standard value.  Only updates are checked against it: settings from a file may hold any value.
-/

namespace PenRover

/-- The names of the settings. -/
inductive Setting where
  | robotUrl
  | reconnectDelay
  | dryRun
  | settleDelay
  | turnPower
  | turnPhaseTime
  | forwardPower
  | forwardTimePerUnit
  deriving DecidableEq, Repr

/-- The values of the settings. -/
structure Settings where
  robotUrl : Value
  reconnectDelay : Value
  dryRun : Value
  settleDelay : Value
  turnPower : Value
  turnPhaseTime : Value
  forwardPower : Value
  forwardTimePerUnit : Value

namespace Setting

/-- All settings in order. -/
def all : List Setting :=
  [.robotUrl, .reconnectDelay, .dryRun, .settleDelay, .turnPower, .turnPhaseTime, .forwardPower,
    .forwardTimePerUnit]

/-- The name of a setting in a file. -/
def name : Setting → String
  | .robotUrl => "robot_url"
  | .reconnectDelay => "reconnect_delay"
  | .dryRun => "dry_run"
  | .settleDelay => "settle_delay"
  | .turnPower => "turn_power"
  | .turnPhaseTime => "turn_phase_time"
  | .forwardPower => "forward_power"
  | .forwardTimePerUnit => "forward_time_per_unit"

/-- The setting with a name. -/
def ofName? (name : Text) : Option Setting := all.find? fun s => name == Text.ofString s.name

/-- The value of a setting that is not given. -/
def standard : Setting → Value
  | .robotUrl => .text "ws://192.168.4.1/ws"
  | .reconnectDelay => .double 1.0
  | .dryRun => .flag false
  | .settleDelay => .double 0.5
  | .turnPower => .int 15
  | .turnPhaseTime => .double 1.3
  | .forwardPower => .int 15
  | .forwardTimePerUnit => .double 0.2

/-- The kind of value that an update may give to a setting. -/
def kind (s : Setting) : Kind := s.standard.kind

/-- An update may give this value to the setting: one of its kind, and an integer for a double. -/
def accepts (s : Setting) (v : Value) : Bool :=
  match s.kind, v.kind with
  | .double, .integer => true
  | expected, given => expected == given

end Setting

namespace Settings

/-- The value of a setting. -/
def get (s : Settings) : Setting → Value
  | .robotUrl => s.robotUrl
  | .reconnectDelay => s.reconnectDelay
  | .dryRun => s.dryRun
  | .settleDelay => s.settleDelay
  | .turnPower => s.turnPower
  | .turnPhaseTime => s.turnPhaseTime
  | .forwardPower => s.forwardPower
  | .forwardTimePerUnit => s.forwardTimePerUnit

/-- The settings with one value changed. -/
def set (s : Settings) (key : Setting) (v : Value) : Settings :=
  match key with
  | .robotUrl => { s with robotUrl := v }
  | .reconnectDelay => { s with reconnectDelay := v }
  | .dryRun => { s with dryRun := v }
  | .settleDelay => { s with settleDelay := v }
  | .turnPower => { s with turnPower := v }
  | .turnPhaseTime => { s with turnPhaseTime := v }
  | .forwardPower => { s with forwardPower := v }
  | .forwardTimePerUnit => { s with forwardTimePerUnit := v }

/-- The settings with these values. -/
def ofFunction (value : Setting → Value) : Settings :=
  ⟨value .robotUrl, value .reconnectDelay, value .dryRun, value .settleDelay, value .turnPower,
    value .turnPhaseTime, value .forwardPower, value .forwardTimePerUnit⟩

/-- The settings of a robot that nothing was set for. -/
def standard : Settings := ofFunction Setting.standard

/-- The settings as the fields of a record. -/
def toFields (s : Settings) : List (Text × Value) :=
  Setting.all.map fun key => (Text.ofString key.name, s.get key)

/-- The settings as a record. -/
def toValue (s : Settings) : Value := .record s.toFields

/-- A setting that was set has the value that it was set to. -/
@[simp] theorem get_set_self (s : Settings) (key : Setting) (v : Value) :
    (s.set key v).get key = v := by
  cases key <;> rfl

/-- Setting one setting leaves the others as they are. -/
theorem get_set_of_ne (s : Settings) {key other : Setting} (v : Value) (h : other ≠ key) :
    (s.set key v).get other = s.get other := by
  cases key <;> cases other <;> simp_all [get, set]

/-- The settings made from a function have its values. -/
@[simp] theorem get_ofFunction (value : Setting → Value) (key : Setting) :
    (ofFunction value).get key = value key := by
  cases key <;> rfl

end Settings

/-! ## Updates -/

/-- Why an update was refused. -/
inductive UpdateError where
  /-- No setting has this name. -/
  | unknown (name : Text)
  /-- The value is not of the kind of the setting. -/
  | wrongKind (setting : Setting) (value : Value)

/-- The description of a refused update; of an unknown name it is the name. -/
def UpdateError.message : UpdateError → String
  | .unknown name => name.quoted
  | .wrongKind setting value =>
    setting.name ++ " must be of type " ++ setting.kind.name ++ ", got " ++ value.display

namespace Settings

/-- The setting that an entry of an update changes, when the entry is valid. -/
def checkEntry (entry : Text × Value) : Except UpdateError (Setting × Value) :=
  match Setting.ofName? entry.1 with
  | none => .error (.unknown entry.1)
  | some key => if key.accepts entry.2 then .ok (key, entry.2) else .error (.wrongKind key entry.2)

/-- The changes of an update, or the error of its first invalid entry. -/
def checkAll : List (Text × Value) → Except UpdateError (List (Setting × Value))
  | [] => .ok []
  | entry :: rest => do
    let change ← checkEntry entry
    return change :: (← checkAll rest)

/-- The settings after an update, of which either all entries take effect or none. -/
def update (s : Settings) (entries : List (Text × Value)) : Except UpdateError Settings := do
  let changes ← checkAll entries
  return changes.foldl (fun s change => s.set change.1 change.2) s

end Settings

end PenRover
