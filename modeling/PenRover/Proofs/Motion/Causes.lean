import PenRover.Proofs.Motion.Rehearsal

/-!
# Causes of faults

Some faults come from the radio link.  Whatever is computed for a drawing fails for other reasons
only: the arithmetic of numbers and values, the geometry, and the scripts made of them.  So a
rehearsal never ends with a fault of the link (`offline_rehearse`).
-/

namespace PenRover

/-- The faults that come from the radio link. -/
def Fault.ofLink : List Fault :=
  [.refused, .timedOut, .badHandshake, .connectionClosed, .unexpected]

/-- The computation does not end with a fault of the link. -/
def Offline {α : Type} (x : Except Fault α) : Prop := ∀ fault ∈ Fault.ofLink, x ≠ .error fault

section Computations

variable {α β : Type}

/-- A result is no fault of the link. -/
lemma offline_ok (a : α) : Offline (.ok a : Except Fault α) := nofun

/-- A result that is returned is no fault of the link. -/
lemma offline_pure (a : α) : Offline (pure a : Except Fault α) := nofun

/-- A fault of another kind is none of the link. -/
lemma offline_error {fault : Fault} (h : fault ∉ Fault.ofLink) :
    Offline (.error fault : Except Fault α) := by
  intro other hother heq
  obtain rfl : fault = other := Except.error.inj heq
  exact h hother

/-- A fault of a computation is a fault of the computations that go on after it. -/
lemma Offline.error {x : Except Fault α} (hx : Offline x) {fault : Fault} (h : x = .error fault) :
    Offline (.error fault : Except Fault β) :=
  offline_error fun hlink => hx fault hlink h

/-- Computations one after another cause no fault of the link when none of them does. -/
lemma Offline.bind {x : Except Fault α} {next : α → Except Fault β} (hx : Offline x)
    (hnext : ∀ a, Offline (next a)) : Offline (x >>= next) := by
  cases x with
  | error fault => exact hx.error rfl
  | ok a => exact hnext a

end Computations

/-! ### Numbers -/

namespace Number

/-- An integer may be too large for a double, which is no fault of the link. -/
lemma offline_toDouble (a : Number) : Offline a.toDouble := by
  cases a with
  | int n =>
    rw [toDouble]
    split
    · exact offline_ok _
    · exact offline_error (by decide)
  | double x => exact offline_ok x

/-- An operation may fail on its operands only. -/
lemma offline_combine (exact : Int → Int → Int) (rounded : Float → Float → Float)
    (a b : Number) : Offline (combine exact rounded a b) := by
  cases a with
  | int m =>
    cases b with
    | int n => exact offline_ok _
    | double y => exact (offline_toDouble (.int m)).bind fun _ => offline_pure _
  | double x =>
    cases b with
    | int n => exact (offline_toDouble (.int n)).bind fun _ => offline_pure _
    | double y => exact offline_ok _

/-- An addition causes no fault of the link. -/
lemma offline_add (a b : Number) : Offline (Arithmetic.add a b) := offline_combine _ _ a b

/-- A subtraction causes no fault of the link. -/
lemma offline_sub (a b : Number) : Offline (Arithmetic.sub a b) := offline_combine _ _ a b

/-- A multiplication causes no fault of the link. -/
lemma offline_mul (a b : Number) : Offline (Arithmetic.mul a b) := offline_combine _ _ a b

/-- A division may be one by zero, which is no fault of the link. -/
lemma offline_div (a b : Number) : Offline (Arithmetic.div a b) :=
  (offline_toDouble a).bind fun _ => (offline_toDouble b).bind fun _ => offline_pure _

/-- A square root causes no fault of the link. -/
lemma offline_sqrt (a : Number) : Offline (Arithmetic.sqrt a) :=
  (offline_toDouble a).bind fun _ => offline_pure _

/-- Measuring a number causes no fault of the link. -/
lemma offline_measured (a : Number) : Offline (Arithmetic.measured a) :=
  (offline_toDouble a).bind fun _ => offline_pure _

/-- A circular function causes no fault of the link. -/
lemma offline_circular (f : Float → Float) (a : Number) : Offline (circular f a) := by
  refine (offline_toDouble a).bind fun x => ?_
  split
  · exact offline_error (by decide)
  · exact offline_pure _
  · exact offline_pure _

/-- Rounding down may find nothing finite, which is no fault of the link. -/
lemma offline_floor (a : Number) : Offline (Arithmetic.floor a) := by
  change Offline a.floor
  cases a with
  | int n => exact offline_ok n
  | double x =>
    rw [floor]
    split
    · exact offline_error (by decide)
    · exact offline_error (by decide)
    · exact offline_ok _

end Number

/-! ### Geometry -/

open Number

/-- Bringing an angle into one turn causes no fault of the link. -/
lemma offline_normalizeAngle (angle : Number) : Offline (normalizeAngle angle) := by
  refine (offline_div _ _).bind fun ratio => (offline_floor ratio).bind fun turns => ?_
  exact (offline_mul _ _).bind fun whole => (offline_sub _ _).bind fun _ => offline_pure _

/-- Changing from degrees causes no fault of the link. -/
lemma offline_radiansOfDegrees (degrees : Number) : Offline (radiansOfDegrees degrees) :=
  (offline_mul _ _).bind fun _ => offline_div _ _

/-- Finding the nearer side causes no fault of the link. -/
lemma offline_nearerSide (turn : Number) : Offline (nearerSide turn) := by
  unfold nearerSide
  split
  · exact offline_pure _
  · exact (offline_sub _ _).bind fun _ => offline_pure _

/-- Counting quarter turns causes no fault of the link. -/
lemma offline_quarterTurns (angle : Number) : Offline (quarterTurns angle) := by
  refine (offline_mul _ _).bind fun double => (offline_div _ _).bind fun halves => ?_
  exact (offline_add _ _).bind fun raised => offline_floor raised

/-- Computing a distance causes no fault of the link. -/
lemma offline_distance (p q : Number × Number) : Offline (distance p q) := by
  refine (offline_sub _ _).bind fun dx => (offline_sub _ _).bind fun dy => ?_
  refine (offline_mul _ _).bind fun xs => (offline_mul _ _).bind fun ys => ?_
  exact (offline_add _ _).bind fun sum => offline_sqrt sum

/-- Changing to polar coordinates causes no fault of the link. -/
lemma offline_toPolar (dx dy : Number) : Offline (toPolar dx dy) := by
  refine (offline_mul _ _).bind fun xs => (offline_mul _ _).bind fun ys => ?_
  refine (offline_add _ _).bind fun sum => (offline_sqrt sum).bind fun r => ?_
  split
  · refine (offline_distance _ _).bind fun chord => (offline_mul _ _).bind fun squared => ?_
    refine (offline_mul _ _).bind fun double => (offline_mul _ _).bind fun area => ?_
    refine (offline_div _ _).bind fun ratio => (offline_sub _ _).bind fun cosine => ?_
    refine (offline_circular _ _).bind fun phi => ?_
    split
    · exact (offline_sub _ _).bind fun _ => offline_pure _
    · exact offline_pure _
  · exact offline_pure _

/-- Changing from polar coordinates causes no fault of the link. -/
lemma offline_ofPolar (phi r : Number) : Offline (ofPolar phi r) := by
  refine (offline_circular _ _).bind fun cosine => (offline_mul _ _).bind fun x => ?_
  exact (offline_circular _ _).bind fun sine => (offline_mul _ _).bind fun y => offline_pure _

/-- A pose that cannot be advanced is stopped by no fault of the link. -/
lemma Pose.advance_notMem_ofLink (pose : Pose Number) (vector : Number × Number)
    (heading : Number) {fault : Fault} (h : (pose.advance vector heading).2 = some fault) :
    fault ∉ Fault.ofLink := by
  have hmove : Offline (pose.move vector) :=
    (offline_add _ _).bind fun _ => (offline_add _ _).bind fun _ => offline_pure _
  have hface (moved : Pose Number) : Offline (moved.face heading) :=
    (offline_normalizeAngle heading).bind fun _ => offline_pure _
  unfold Pose.advance at h
  intro hlink
  split at h
  next other heq =>
    obtain rfl : other = fault := Option.some.inj h
    exact hmove other hlink heq
  next moved heq =>
    split at h
    next other heq' =>
      obtain rfl : other = fault := Option.some.inj h
      exact hface moved other hlink heq'
    next => nomatch h

namespace Command

/-- The displacement along a vector causes no fault of the link. -/
lemma offline_towards (pose : Pose Number) (dx dy : Number) : Offline (towards pose dx dy) := by
  refine (offline_toPolar dx dy).bind fun polar => ?_
  dsimp only
  split
  · exact offline_pure _
  · refine (offline_sub _ _).bind fun turn => ?_
    exact (offline_normalizeAngle turn).bind fun _ => offline_pure _

/-- The displacement along an angle causes no fault of the link. -/
lemma offline_along (pose : Pose Number) (angle length : Int) :
    Offline (along pose angle length) := by
  refine (offline_radiansOfDegrees _).bind fun phi => (offline_measured _).bind fun r => ?_
  refine (offline_ofPolar phi r).bind fun vector => ?_
  -- forwards or backwards, the rest of the computation is the same
  have hturn (direction way : Number) :
      Offline (do
        let heading ← normalizeAngle direction
        let turn ← normalizeAngle (← Arithmetic.sub heading pose.heading)
        return (⟨turn, way, vector, heading⟩ : Displacement Number)) := by
    refine (offline_normalizeAngle direction).bind fun heading => ?_
    refine (offline_sub _ _).bind fun difference => ?_
    exact (offline_normalizeAngle difference).bind fun _ => offline_pure _
  dsimp only
  split
  · exact (offline_radiansOfDegrees _).bind fun half =>
      (offline_add _ _).bind fun direction => hturn direction _
  · exact hturn phi r

/-- The displacement of a command causes no fault of the link. -/
lemma offline_displacement (command : Command) (pose : Pose Number) :
    Offline (command.displacement pose) := by
  cases command with
  | lineTo x y =>
    refine (offline_sub _ _).bind fun dx => (offline_sub _ _).bind fun dy => ?_
    exact offline_towards pose dx dy
  | lineBy dx dy => exact offline_towards pose (.int dx) (.int dy)
  | lineAt angle length => exact offline_along pose angle length

end Command

/-! ### Values -/

namespace Value

/-- Negating a value may find no number, which is no fault of the link. -/
lemma offline_negate (v : Value) : Offline v.negate := by
  unfold negate
  split
  · exact offline_ok _
  · exact offline_error (by simp [Fault.ofLink])

/-- Repeating a list may take too much memory, which is no fault of the link. -/
lemma offline_repeatList {α : Type} (count : Int) (items : List α) :
    Offline (repeatList count items) := by
  unfold repeatList
  split
  · exact offline_error (by decide)
  · split
    · exact offline_ok []
    · split
      · exact offline_error (by decide)
      · exact offline_ok _

/-- Repeating a value causes no fault of the link when its mismatch is none. -/
lemma offline_repeated (v : Value) (count : Int) {mismatch : Fault}
    (h : mismatch ∉ Fault.ofLink) : Offline (v.repeated count mismatch) := by
  cases v with
  | text t => exact (offline_repeatList count t).bind fun _ => offline_pure _
  | list items => exact (offline_repeatList count items).bind fun _ => offline_pure _
  | null => exact offline_error h
  | flag b => exact offline_error h
  | number n => exact offline_error h
  | record fields => exact offline_error h

/-- Scaling a value causes no fault of the link. -/
lemma offline_scale (factor : Int) (v : Value) : Offline (scale factor v) := by
  unfold scale
  split
  · exact (offline_mul _ _).bind fun _ => offline_pure _
  · exact offline_repeated v factor (by simp [Fault.ofLink])

/-- Multiplying a value causes no fault of the link. -/
lemma offline_times (v : Value) (n : Number) : Offline (v.times n) := by
  unfold times
  split
  · exact (offline_mul _ _).bind fun _ => offline_pure _
  · exact offline_repeated v _ (by simp [Fault.ofLink])
  · split
    · exact offline_error (by decide)
    · exact offline_error (by decide)
    · exact offline_error (by simp [Fault.ofLink])

/-- Reading a power may find no number, which is no fault of the link. -/
lemma offline_power? (v : Value) : Offline v.power? := by
  unfold power?
  split
  · exact (offline_toDouble _).bind fun _ => offline_pure _
  · split
    · split
      · exact offline_ok _
      · exact offline_ok none
    · exact offline_ok none
  · exact offline_ok none

end Value

/-- A request for powers causes no fault of the link before it is sent. -/
lemma Frame.offline_request (left right : Value) : Offline (Frame.request left right) := by
  unfold Frame.request Frame.ofPowers?
  split
  · refine left.offline_power?.bind fun l => ?_
    cases l with
    | none => exact offline_pure none
    | some l =>
      refine right.offline_power?.bind fun r => ?_
      cases r with
      | none => exact offline_pure none
      | some r => exact offline_pure _
  · exact offline_error (by decide)

/-- A length may be refused, which is no fault of the link. -/
lemma Clock.offline_checkTime (time : Value) : Offline (Clock.checkTime time) := by
  unfold Clock.checkTime
  split
  · exact offline_ok _
  · exact offline_error (by simp [Fault.ofLink])

/-- Neither does a wait that is too long. -/
lemma Clock.offline_seconds (length : Number) : Offline (Clock.seconds length) := by
  unfold Clock.seconds
  cases hdouble : length.toDouble with
  | ok seconds => exact offline_ok seconds
  | error fault =>
    dsimp only
    split
    · exact offline_ok 0
    · exact (Number.offline_toDouble length).error hdouble

/-! ### Scripts -/

namespace Script

variable {α β : Type}

/-- The script itself does not end with a fault of the link. -/
@[simp] def Offline : Script α → Prop
  | .finish _ => True
  | .fail fault => fault ∉ Fault.ofLink
  | .note _ next => next.Offline
  | .consult next => ∀ settings, (next settings).Offline
  | .poll next => ∀ aborted, (next aborted).Offline
  | .drive _ _ next => next.Offline
  | .wait _ next => next.Offline

/-- Scripts one after another cause no fault of the link when none of them does. -/
lemma Offline.bind {script : Script α} {next : α → Script β} (h : script.Offline)
    (hnext : ∀ a, (next a).Offline) : (script >>= next).Offline := by
  change (script.bind next).Offline
  induction script with
  | finish a => exact hnext a
  | fail fault => exact h
  | note n script ih => exact ih h
  | consult script ih => exact fun settings => ih settings (h settings)
  | poll script ih => exact fun aborted => ih aborted (h aborted)
  | drive left right script ih => exact ih h
  | wait time script ih => exact ih h

/-- A computation in a script causes a fault of the link only if it does so itself. -/
lemma offline_ofExcept {x : Except Fault α} (h : PenRover.Offline x) : (ofExcept x).Offline := by
  cases x with
  | ok a => trivial
  | error fault => exact fun hlink => h fault hlink rfl

/-- A request at multiples of a power causes no fault of the link itself. -/
lemma offline_goTimes (power : Value) (left right : Int) : (goTimes power left right).Offline :=
  (offline_ofExcept (power.offline_scale left)).bind fun _ =>
    (offline_ofExcept (power.offline_scale right)).bind fun _ => trivial

/-- Quarter turns cause no fault of the link themselves. -/
lemma offline_quarters (arc : Arc) (count : Nat) : (quarters arc count).Offline := by
  induction count with
  | zero => trivial
  | succ n ih =>
    have hpause : (pause arc.time).Offline := trivial
    have hquarter : (quarter arc).Offline := by
      refine (offline_goTimes _ _ _).bind fun _ => hpause.bind fun _ => ?_
      exact (offline_goTimes _ _ _).bind fun _ => hpause
    exact hquarter.bind fun _ => ih

/-- A turn causes no fault of the link itself. -/
lemma offline_turnBy (turn : Number) : (turnBy turn).Offline := by
  refine (offline_ofExcept (offline_nearerSide turn)).bind fun side => ?_
  refine (offline_ofExcept (offline_quarterTurns side.2)).bind fun count => ?_
  refine (offline_ofExcept (offline_toDouble side.2)).bind fun shown => ?_
  exact fun settings => (offline_quarters _ _).bind fun _ => trivial

/-- A way forward causes no fault of the link itself. -/
lemma offline_goForward (distance : Number) : (goForward distance).Offline := by
  intro settings
  refine (offline_ofExcept (settings.forwardTimePerUnit.offline_times distance)).bind fun time => ?_
  refine (offline_ofExcept (offline_toDouble distance)).bind fun shown => ?_
  exact (offline_ofExcept settings.forwardPower.offline_negate).bind fun power => trivial

/-- A command causes no fault of the link itself. -/
lemma offline_perform (command : Command) (pose : Pose Number) :
    (perform command pose).Offline := by
  refine (offline_ofExcept (command.offline_displacement pose)).bind fun displacement => ?_
  refine (offline_ofExcept (offline_toDouble _)).bind fun turn => ?_
  refine (offline_ofExcept (offline_toDouble _)).bind fun distance => ?_
  refine (offline_turnBy _).bind fun _ => (offline_goForward _).bind fun _ => ?_
  split
  next fault heq =>
    exact pose.advance_notMem_ofLink displacement.vector displacement.heading (by rw [heq])
  next => trivial

/-- A drawing causes no fault of the link itself. -/
lemma offline_drawFrom (index total : Nat) (pose : Pose Number) (commands : List Command) :
    (drawFrom index total pose commands).Offline := by
  induction commands generalizing index pose with
  | nil =>
    intro aborted
    cases aborted <;> trivial
  | cons command rest ih =>
    intro aborted
    cases aborted with
    | true => trivial
    | false => exact (offline_perform command pose).bind fun next settings => ih _ _

/-- A rehearsal never ends with a fault of the link. -/
theorem offline_rehearse (settings : Settings) (stops : Nat → Bool) (script : Script α)
    (p : Progress) (h : script.Offline) :
    PenRover.Offline (script.rehearse settings stops p).1 := by
  induction script generalizing p with
  | finish a => exact offline_ok a
  | fail fault => exact offline_error h
  | note n script ih => exact ih p h
  | consult script ih => exact ih settings p (h settings)
  | poll script ih => exact ih p.aborted p (h p.aborted)
  | drive left right script ih =>
    cases hrequest : Frame.request left right with
    | error fault =>
      rw [rehearse_drive_of_error hrequest]
      exact (Frame.offline_request left right).error hrequest
    | ok frame =>
      rw [rehearse_drive_of_ok hrequest]
      exact ih p h
  | wait time script ih =>
    obtain ⟨fault, hcheck⟩ | ⟨length, fault, hcheck, hlate⟩ | ⟨length, seconds, hcheck, hlength⟩ :=
      wait_cases time
    · rw [rehearse_wait_of_refused hcheck]
      exact (Clock.offline_checkTime time).error hcheck
    · rw [rehearse_wait_of_late hcheck hlate]
      exact (Clock.offline_seconds length).error hlate
    · rw [rehearse_wait_of_ok hcheck hlength]
      exact ih _ h

/-- Neither does a drawing that is rehearsed in a session. -/
lemma offline_play_draw (stops : Nat → Bool) (commands : List Command) {s : Session}
    {settings : Settings} {p : Progress} (h : s.Rehearses settings p) :
    PenRover.Offline ((draw commands).play (Session.rehearsal stops) s).1 := by
  obtain ⟨t, journal, hplay, -, -⟩ := play_rehearsal stops (draw commands) s settings p h
  have hdraw : (draw commands).Offline := offline_drawFrom 1 commands.length Pose.start commands
  rw [hplay]
  exact offline_rehearse settings stops (draw commands) p hdraw

end Script

end PenRover
