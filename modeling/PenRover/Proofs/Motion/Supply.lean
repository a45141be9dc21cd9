import PenRover.Proofs.Motion.Pieces

/-!
# Settings supplied beforehand

A script reads the settings at the moments when it needs them, and between two of its waits they do
not change.  So a list that says which settings are in force after how many waits answers all that a
script can ask: `supply` goes through a script and answers its questions from the list, and a script
that reads no settings any more is left.

For a drawing this script can be written down (`drawSupplied`).  It is given the settings movement
by movement: a turn takes its power and the time of its arcs from the settings in force when it
begins, however many waits it goes through, a way forward takes its power and its time from those of
its own beginning, and so does the delay in which the robot settles.  That `supply` makes nothing
else of a drawing is the statement that no movement reads the settings of a later moment
(`supply_drawFrom`).

A piece of the script with its answers runs like the piece of the script that asks, whatever the
settings of its session are (`resume_supplies`).
-/

namespace PenRover

namespace Script

variable {α β γ : Type}

/-! ### Answers from a list -/

section Supply

variable (during : Nat → Settings)

/-- The script with its questions for the settings answered: after this number of waits, with the
settings in force then.  What follows the script is told how many waits there have been. -/
def supply (next : Nat → α → Script β) : Nat → Script α → Script β
  | waits, .finish a => next waits a
  | _, .fail fault => .fail fault
  | waits, .note n script => .note n (script.supply next waits)
  | waits, .consult script => (script (during waits)).supply next waits
  | waits, .poll script => .poll fun up => (script up).supply next waits
  | waits, .drive left right script => .drive left right (script.supply next waits)
  | waits, .wait time script => .wait time (script.supply next (waits + 1))

/-- The script with its questions for the settings answered, and nothing after it. -/
def supplied (waits : Nat) (script : Script α) : Script α :=
  script.supply during (fun _ a => .finish a) waits

end Supply

variable {during : Nat → Settings} {next : Nat → α → Script β} {waits : Nat}

/-- Answering the questions of two scripts, one after the other, answers those of both. -/
lemma supply_bind (script : Script γ) (f : γ → Script α) :
    (script >>= f).supply during next waits =
      script.supply during (fun waits c => (f c).supply during next waits) waits := by
  change (script.bind f).supply during next waits = _
  induction script generalizing waits with
  | finish c => rfl
  | fail fault => rfl
  | note n script ih => exact congrArg _ ih
  | consult script ih => exact ih _
  | poll script ih => exact congrArg _ (funext fun up => ih up)
  | drive left right script ih => exact congrArg _ ih
  | wait time script ih => exact congrArg _ ih

/-- A computation asks nothing. -/
lemma supply_ofExcept (result : Except Fault α) :
    (ofExcept result).supply during next waits = ofExcept result >>= next waits := by
  cases result <;> rfl

section Primitives

variable {next : Nat → Unit → Script β}

/-- A note asks nothing. -/
lemma supply_say (n : Note) : (say n).supply during next waits = say n >>= next waits := rfl

/-- A request asks nothing. -/
lemma supply_go (left right : Value) :
    (go left right).supply during next waits = go left right >>= next waits := rfl

/-- A halt asks nothing. -/
lemma supply_halt : halt.supply during next waits = halt >>= next waits := rfl

/-- A wait asks nothing, and is counted. -/
lemma supply_pause (time : Value) :
    (Script.pause time).supply during next waits = Script.pause time >>= next (waits + 1) := rfl

/-- A question for the settings is answered with those of the moment. -/
lemma supply_settings {next : Nat → Settings → Script β} :
    Script.settings.supply during next waits = next waits (during waits) := rfl

/-- The question for the abort flag is left open. -/
lemma supply_aborted {next : Nat → Bool → Script β} :
    aborted.supply during next waits = aborted >>= next waits := rfl

/-- A request at multiples of a power asks nothing. -/
lemma supply_goTimes (power : Value) (left right : Int) :
    (goTimes power left right).supply during next waits =
      goTimes power left right >>= next waits := by
  unfold goTimes
  simp only [supply_bind, supply_ofExcept, supply_go, bind_assoc]

/-- A quarter turn asks nothing, and waits twice. -/
lemma supply_quarter (arc : Arc) :
    (quarter arc).supply during next waits = quarter arc >>= next (waits + 2) := by
  unfold quarter
  simp only [supply_bind, supply_goTimes, supply_pause, bind_assoc]

/-- Quarter turns read no settings, and there are two waits in each. -/
lemma supply_quarters (arc : Arc) (n : Nat) :
    (quarters arc n).supply during next waits = quarters arc n >>= next (waits + 2 * n) := by
  induction n generalizing waits with
  | zero => rfl
  | succ n ih =>
    have hwaits : waits + 2 + 2 * n = waits + 2 * (n + 1) := by ring
    rw [quarters, supply_bind, supply_quarter, bind_assoc]
    refine bind_congr fun _ => ?_
    rw [ih, hwaits]

end Primitives

/-! ### Movements with the values they are given -/

/-- A turn with this power in arcs of this time. -/
def turnWith (power time : Value) (turn : Number) : Script Unit := do
  let (clockwise, angle) ← ofExcept (nearerSide turn)
  let count ← ofExcept (quarterTurns angle)
  let shown ← ofExcept angle.toDouble
  say (.turn clockwise shown count)
  quarters ⟨power, time, (wheelFactors clockwise).1, (wheelFactors clockwise).2⟩ count.toNat
  halt

/-- A way forward with this power, for this time a unit. -/
def forwardWith (power timePerUnit : Value) (distance : Number) : Script Unit := do
  let time ← ofExcept (timePerUnit.times distance)
  let shown ← ofExcept distance.toDouble
  say (.forward shown)
  let opposite ← ofExcept power.negate
  go opposite opposite
  pause time
  halt

/-- The number of waits in a turn. -/
def turnWaits (turn : Number) : Nat := 2 * (turnPlan turn).2

/-- A turn reads the settings once, before its first wait. -/
lemma supply_turnBy {next : Nat → Unit → Script β} (turn : Number) :
    (turnBy turn).supply during next waits =
      turnWith (during waits).turnPower (during waits).turnPhaseTime turn >>=
        next (waits + turnWaits turn) := by
  cases hside : nearerSide turn with
  | error fault =>
    rw [turnBy, turnWith, hside]
    rfl
  | ok side =>
    obtain ⟨clockwise, angle⟩ := side
    cases hcount : quarterTurns angle with
    | error fault =>
      rw [turnBy, turnWith, hside, ofExcept_ok_bind, ofExcept_ok_bind]
      dsimp only
      rw [hcount]
      rfl
    | ok count =>
      obtain ⟨hplan, hturn⟩ := turnBy_eq hside hcount
      rw [hturn, turnWith, hside, ofExcept_ok_bind]
      dsimp only
      rw [hcount, ofExcept_ok_bind, turnWaits, hplan]
      simp only [supply_bind, supply_ofExcept, supply_say, supply_settings, supply_quarters,
        supply_halt, bind_assoc]

/-- So does a way forward. -/
lemma supply_goForward {next : Nat → Unit → Script β} (distance : Number) :
    (goForward distance).supply during next waits =
      forwardWith (during waits).forwardPower (during waits).forwardTimePerUnit distance >>=
        next (waits + 1) := by
  unfold goForward forwardWith
  simp only [supply_bind, supply_ofExcept, supply_say, supply_settings, supply_go, supply_pause,
    supply_halt, bind_assoc]

/-- Performs a command at a pose after this number of waits.  The turn and the way forward are given
what the settings say when they begin. -/
def performSupplied (during : Nat → Settings) (waits : Nat) (command : Command)
    (pose : Pose Number) : Script (Displacement Number × Pose Number) := do
  let displacement ← ofExcept (command.displacement pose)
  let turn ← ofExcept displacement.turn.toDouble
  let distance ← ofExcept displacement.distance.toDouble
  say (.displacement command turn distance)
  let atTurn := during waits
  turnWith atTurn.turnPower atTurn.turnPhaseTime displacement.turn
  let atWay := during (waits + turnWaits displacement.turn)
  forwardWith atWay.forwardPower atWay.forwardTimePerUnit displacement.distance
  match pose.advance displacement.vector displacement.heading with
  | (_, some fault) => .fail fault
  | (next, none) => return (displacement, next)

/-- Draws commands from a pose after this number of waits.  Each movement is given what the settings
say when it begins, and the delay after a command is the one of the moment when it begins. -/
def drawSupplied (during : Nat → Settings) (index total waits : Nat) (pose : Pose Number) :
    List Command → Script Outcome
  | [] => do
    if ← aborted then
      say (.stoppedAt pose)
      return .cancelled
    else
      say (.completedAt pose)
      return .completed
  | command :: rest => do
    if ← aborted then
      say (.stoppedAt pose)
      return .cancelled
    else
      say (.began index total command)
      let (displacement, next) ← performSupplied during waits command pose
      let settling := waits + turnWaits displacement.turn + 1
      pause (during settling).settleDelay
      drawSupplied during (index + 1) total (settling + 1) next rest

/-- A command asks when its movements begin, and waits for its turn and its way. -/
lemma supply_perform {next : Nat → Displacement Number × Pose Number → Script β}
    (command : Command) (pose : Pose Number) :
    (perform command pose).supply during next waits =
      performSupplied during waits command pose >>= fun performed =>
        next (waits + turnWaits performed.1.turn + 1) performed := by
  unfold perform performSupplied
  simp only [supply_bind, supply_ofExcept, supply_say, supply_turnBy, supply_goForward, bind_assoc]
  refine bind_congr fun displacement => bind_congr fun turn => bind_congr fun distance =>
    bind_congr fun _ => bind_congr fun _ => bind_congr fun _ => ?_
  cases pose.advance displacement.vector displacement.heading with
  | mk arrival fault => cases fault <;> rfl

/-- The answers are all that a drawing needs, and it needs them at the beginning of its movements
only. -/
lemma supply_drawFrom (during : Nat → Settings) (index total waits : Nat) (pose : Pose Number)
    (commands : List Command) :
    (drawFrom index total pose commands).supplied during waits =
      drawSupplied during index total waits pose commands := by
  induction commands generalizing index waits pose with
  | nil =>
    unfold drawFrom drawSupplied supplied
    rw [supply_bind, supply_aborted]
    refine bind_congr fun up => ?_
    cases up <;> rfl
  | cons command rest ih =>
    unfold drawFrom drawSupplied supplied
    rw [supply_bind, supply_aborted]
    refine bind_congr fun up => ?_
    cases up with
    | true => rfl
    | false =>
      simp only [Bool.false_eq_true, ↓reduceIte]
      rw [supply_bind, supply_say]
      refine bind_congr fun _ => ?_
      rw [supply_bind, supply_perform]
      refine bind_congr fun performed => ?_
      rw [supply_bind, supply_settings, supply_bind, supply_pause]
      exact bind_congr fun _ => ih _ _ _

end Script

/-! ### Pieces of a script with its answers -/

namespace Session

open Script

variable {α β : Type}

/-- The session with other settings. -/
def withSettings (s : Session) (settings : Settings) : Session := { s with settings }

/-- What comes of an action, in a session with other settings. -/
def withSettingsAfter (settings : Settings) (after : Except Fault α × Session × Journal) :
    Except Fault α × Session × Journal :=
  (after.1, after.2.1.withSettings settings, after.2.2)

/-- The action neither looks at the settings nor changes them. -/
def Blind (act : Act Session α) : Prop :=
  ∀ s settings, act (s.withSettings settings) = withSettingsAfter settings (act s)

/-- The settings after a blind action, given its result. -/
lemma Blind.settings_eq {act : Act Session α} (h : Blind act) {s t : Session}
    {result : Except Fault α} {journal : Journal} (hact : act s = (result, t, journal)) :
    t.settings = s.settings := by
  have hsame := h s s.settings
  have hself : s.withSettings s.settings = s := rfl
  rw [hself, hact] at hsame
  exact congrArg (fun after => after.2.1.settings) hsame

/-- Blind actions one after another are blind. -/
lemma Blind.bind {act : Act Session α} {next : α → Act Session β} (h : Blind act)
    (hnext : ∀ a, Blind (next a)) : Blind (act >>= next) := by
  intro s settings
  have hblind := h s settings
  rcases hact : act s with ⟨fault | a, t, journal⟩
  · rw [hact] at hblind
    rw [Act.bind_error hact, Act.bind_error hblind]
    rfl
  · rw [hact] at hblind
    rw [Act.bind_ok hact, Act.bind_ok hblind, hnext a t settings]
    rfl

/-- Returning is blind. -/
lemma blind_pure (a : α) : Blind (Act.pure a) := fun _ _ => rfl

/-- Failing is blind. -/
lemma blind_fail (fault : Fault) : Blind (Act.fail fault : Act Session α) := fun _ _ => rfl

/-- A computation is blind. -/
lemma blind_ofExcept (result : Except Fault α) : Blind (Act.ofExcept result) := fun _ _ => rfl

/-- Writing the journal is blind. -/
lemma blind_write (journal : Journal) : Blind (Act.write journal) := fun _ _ => rfl

/-- An attempt to open the link that ends is blind: the link was made from the settings before. -/
lemma blind_opened (reply : Reply) : Blind (Session.opened reply) := fun _ _ => rfl

/-- Opening the link is blind. -/
lemma blind_open : Blind Session.open := by
  have hdial : Blind Session.dial := fun _ _ => rfl
  refine hdial.bind fun reply => ?_
  cases reply with
  | none => exact blind_pure ()
  | some reply => exact blind_opened reply

/-- Sending bytes is blind. -/
lemma blind_send (bytes : Bytes) : Blind (Session.send bytes) := fun _ _ => rfl

/-- An action that takes place while the flag is down. -/
lemma blind_unlessAborted {act : Act Session Unit} (h : Blind act) :
    Blind (Act.state >>= fun s => if s.aborted then pure () else act) := by
  intro s settings
  change (if s.aborted then pure () else act : Act Session Unit) (s.withSettings settings) =
    withSettingsAfter settings ((if s.aborted then pure () else act : Act Session Unit) s)
  split
  · exact blind_pure () s settings
  · exact h s settings

/-- A request for powers is blind. -/
lemma blind_drive (left right : Value) : Blind (Session.drive left right) := by
  unfold Session.drive
  split
  · refine (blind_write _).bind fun _ => (blind_ofExcept _).bind fun frame => ?_
    cases frame with
    | none => exact blind_write _
    | some frame => exact blind_unlessAborted (blind_send _)
  · exact blind_fail _

/-- The beginning of a wait is blind. -/
lemma blind_beginWait (time : Value) : Blind (beginWait time) :=
  (blind_ofExcept _).bind fun length => (blind_write _).bind fun _ =>
    Blind.bind (fun _ _ => rfl) fun _ => blind_pure length

/-- Setting an alarm is blind. -/
lemma blind_setAlarm (length : Number) : Blind (setAlarm length) := fun _ _ => rfl

/-- Where the script with its answers stands when the script itself stands there. -/
def Standing.supplied (during : Nat → Settings) (waits : Nat) : Standing α → Standing α
  | .ended a => .ended a
  | .waiting alarm next => .waiting alarm (next.supplied during (waits + 1))

/-- What comes of a piece of the script with its answers when this comes of a piece of the
script. -/
def suppliedAfter (during : Nat → Settings) (waits : Nat) (settings : Settings)
    (after : Except Fault (Standing α) × Session × Journal) :
    Except Fault (Standing α) × Session × Journal :=
  withSettingsAfter settings (after.1.map (Standing.supplied during waits), after.2)

/-- The piece `given` is the piece `piece` with the answers after this number of waits: where the
settings of this moment are in force, they do the same, and then stand at the same place.  The
piece `given` does so under any settings. -/
def Supplies (during : Nat → Settings) (waits : Nat)
    (piece given : Act Session (Standing α)) : Prop :=
  ∀ s settings, s.settings = during waits →
    given (s.withSettings settings) = suppliedAfter during waits settings (piece s)

/-- A blind action before both pieces. -/
lemma Supplies.after {during : Nat → Settings} {waits : Nat} {act : Act Session β}
    (h : Blind act) {piece given : β → Act Session (Standing α)}
    (hpieces : ∀ b, Supplies during waits (piece b) (given b)) :
    Supplies during waits (act >>= piece) (act >>= given) := by
  intro s settings hs
  have hblind := h s settings
  rcases hact : act s with ⟨fault | b, t, journal⟩
  · rw [hact] at hblind
    rw [Act.bind_error hact, Act.bind_error hblind]
    rfl
  · rw [hact] at hblind
    have ht : t.settings = during waits := (h.settings_eq hact).trans hs
    rw [Act.bind_ok hact, Act.bind_ok hblind, hpieces b t settings ht]
    rfl

/-- A piece of the script with its answers. -/
lemma resume_supplies (during : Nat → Settings) (waits : Nat) (script : Script α) :
    Supplies during waits (resume script) (resume (script.supplied during waits)) := by
  induction script with
  | finish a => exact fun _ _ _ => rfl
  | fail fault => exact fun _ _ _ => rfl
  | note n script ih => exact Supplies.after (blind_write _) fun _ => ih
  | consult script ih =>
    intro s settings hs
    have hsame : resume (.consult script) s = resume (script (during waits)) s := by
      rw [← hs]
      rfl
    rw [hsame]
    exact ih (during waits) s settings hs
  | poll script ih => exact fun s settings hs => ih s.aborted s settings hs
  | drive left right script ih => exact Supplies.after (blind_drive left right) fun _ => ih
  | wait time script ih =>
    exact Supplies.after (blind_beginWait time) fun length =>
      Supplies.after (blind_setAlarm length) fun alarm _ _ _ => rfl

end Session

end PenRover
