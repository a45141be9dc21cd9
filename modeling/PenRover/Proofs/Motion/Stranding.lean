import PenRover.Proofs.Geometry.Headings
import PenRover.Proofs.Motion.Moderate

/-!
# Motors that are left running

Every movement ends with a stop frame, and so does every stop of the session.  There is one way all
the same to end a drawing with the motors running: the wait after the first arc of a turn fails, and
nobody catches the failure before it ends the drawing.  `leftRunning_play_draw_iff` says that this
is the only way, whatever the drawing, the settings and the stops are.

All other failures come before a frame is sent or after the motors were stopped.  The second wait of
a quarter turn has the length of the first one, so it is held when that one was.  The arc back is
requested with multiples of a power that has just fitted a frame.  And the way forward computes its
time, which is a double, before it drives.
-/

namespace PenRover

/-! ### The last frame -/

/-- The last of these frames leaves the motors running. -/
def LeftRunning (frames : List Frame) : Prop :=
  ∃ frame, frames.getLast? = some frame ∧ frame ≠ .stop

/-- Motors that were stopped last are not running. -/
lemma not_leftRunning_of_getLast? {frames : List Frame} (h : frames.getLast? = some .stop) :
    ¬ LeftRunning frames := by
  rintro ⟨frame, hlast, hne⟩
  exact hne (Option.some.inj (hlast.symm.trans h))

/-- Without frames the motors are not running. -/
@[simp] lemma not_leftRunning_nil : ¬ LeftRunning [] := by
  rintro ⟨frame, hlast, -⟩
  simp at hlast

/-- Frames before others that end with a stop, or before none, do not matter. -/
lemma leftRunning_append_iff {first second : List Frame} (h : ¬ LeftRunning first) :
    LeftRunning (first ++ second) ↔ LeftRunning second := by
  unfold LeftRunning at h ⊢
  rw [List.getLast?_append]
  cases hsecond : second.getLast? with
  | none => simpa using h
  | some frame => simp

/-- One frame leaves the motors running unless it is the stop. -/
lemma leftRunning_singleton {frame : Frame} : LeftRunning [frame] ↔ frame ≠ .stop := by
  simp [LeftRunning]

/-! ### The first arc of a turn -/

/-- The frame of the first arc of a turn: none when the turn has no quarter, or when the powers of
the arc fit no frame. -/
def firstArc? (settings : Settings) (turn : Number) : Option Frame :=
  let (clockwise, count) := turnPlan turn
  let (near, far) := wheelFactors clockwise
  if count = 0 then none
  else
    Frame.fitting? (Value.given (settings.turnPower.scale (-near)))
      (Value.given (settings.turnPower.scale (-far)))

/-- A wait of this length fails with no stop frame: it is refused, or it is found too long once it
has begun, and the session is not stopped at that moment. -/
def WaitFails (stopped : Bool) (time : Value) : Prop :=
  (∃ fault, Clock.checkTime time = .error fault) ∨
    ∃ length fault, Clock.checkTime time = .ok length ∧ Clock.seconds length = .error fault ∧
      stopped = false

/-- The turn drives its first arc, and the wait after it fails. -/
def Strands (settings : Settings) (stopped : Bool) (turn : Number) : Prop :=
  (∃ frame, firstArc? settings turn = some frame ∧ frame ≠ .stop) ∧
    WaitFails stopped settings.turnPhaseTime

/-- A power whose multiple fits a frame is a moderate number. -/
lemma moderate_of_wheel? {power : Value} {factor : Int} {byte : Int8} (hfactor : factor ≠ 0)
    (h : (Value.given (power.scale factor)).wheel? = some byte) :
    ∃ n, power.number? = some n ∧ n.Moderate := by
  cases hnumber : power.number? with
  | none =>
    have hscale : power.scale factor =
        power.repeated factor (.cannotMultiply .integer power.kind) := by
      simp only [Value.scale, hnumber]
    rw [hscale] at h
    unfold Value.repeated at h
    split at h
    next text =>
      cases hr : Value.repeatList factor text <;>
        simp [hr, bind, Except.bind, pure, Except.pure, Value.given, Value.wheel?] at h
    next items =>
      cases hr : Value.repeatList factor items <;>
        simp [hr, bind, Except.bind, pure, Except.pure, Value.given, Value.wheel?] at h
    next => simp [Value.given, Value.wheel?] at h
  | some n =>
    refine ⟨n, rfl, ?_⟩
    cases n with
    | double x => trivial
    | int k =>
      have hscale : power.scale factor = .ok (.number (.int (factor * k))) := by
        simp only [Value.scale, hnumber]
        rfl
      rw [hscale, Value.given_ok] at h
      simp only [Value.wheel?, Number.value?_int, Option.bind_eq_bind, Option.bind_some] at h
      split at h
      next hrange =>
        have hbound : |factor * k| ≤ 128 := by
          have hcast : -128 ≤ factor * k ∧ factor * k ≤ 127 := by exact_mod_cast hrange
          rw [abs_le]
          omega
        have hone : 1 ≤ |factor| := Int.one_le_abs hfactor
        have hk : |k| ≤ 128 := by
          rw [abs_mul] at hbound
          nlinarith [abs_nonneg k]
        have hpow : (10 : Int) ^ 3 ≤ 10 ^ 300 := pow_le_pow_right₀ (by norm_num) (by norm_num)
        exact lt_of_lt_of_le (lt_of_le_of_lt hk (by norm_num)) hpow
      next => simp at h

/-- The power of an arc whose frame exists is moderate. -/
lemma moderate_of_fitting? {power : Value} {left right : Int} {frame : Frame} (hleft : left ≠ 0)
    (h : Frame.fitting? (Value.given (power.scale left)) (Value.given (power.scale right)) =
      some frame) :
    ∃ n, power.number? = some n ∧ n.Moderate := by
  cases hwheel : (Value.given (power.scale left)).wheel? with
  | none => simp [Frame.fitting?, hwheel] at h
  | some byte => exact moderate_of_wheel? hleft hwheel

namespace Script

variable {settings : Settings}

/-! ### Courses that fail -/

/-- A request that fails sends nothing. -/
lemma course_go_eq_error {left right : Value} {fault : Fault} {events : List Event}
    (h : (go left right).course settings = (.error fault, events)) : events = [] := by
  cases hrequest : Frame.request left right with
  | error fault =>
    rw [course_go_of_error hrequest] at h
    exact (Prod.mk.inj h).2.symm
  | ok frame =>
    rw [course_go_of_ok hrequest] at h
    simp at h

/-- A script fails in the computation that it begins with, or after it. -/
lemma course_ofExcept_bind_eq_error {α β : Type} {result : Except Fault α} {next : α → Script β}
    {fault : Fault} {events : List Event}
    (h : (Script.ofExcept result >>= next).course settings = (.error fault, events)) :
    events = [] ∨ ∃ a, result = .ok a ∧ (next a).course settings = (.error fault, events) := by
  cases result with
  | error fault =>
    rw [course_ofExcept_bind_error] at h
    exact .inl (Prod.mk.inj h).2.symm
  | ok a =>
    rw [course_ofExcept_bind_ok] at h
    exact .inr ⟨a, rfl, h⟩

/-- Of two scripts one after the other, the first fails, or the second. -/
lemma course_bind_eq_error {α β : Type} {script : Script α} {next : α → Script β} {fault : Fault}
    {events : List Event} (h : (script >>= next).course settings = (.error fault, events)) :
    script.course settings = (.error fault, events) ∨
      ∃ a first second, script.course settings = (.ok a, first) ∧
        (next a).course settings = (.error fault, second) ∧ events = first ++ second := by
  cases hscript : script.course settings with
  | mk result first =>
    cases result with
    | error fault =>
      rw [course_bind_of_error hscript, Prod.mk.injEq, Except.error.injEq] at h
      obtain ⟨rfl, rfl⟩ := h
      exact .inl rfl
    | ok a =>
      rw [course_bind_of_ok hscript, Prod.mk.injEq] at h
      exact .inr ⟨a, first, ((next a).course settings).2, rfl, Prod.ext h.1 rfl, h.2.symm⟩

/-- A request at multiples of a power that fails sends nothing. -/
lemma course_goTimes_eq_error {power : Value} {left right : Int} {fault : Fault}
    {events : List Event}
    (h : (goTimes power left right).course settings = (.error fault, events)) :
    events = [] := by
  rw [goTimes] at h
  obtain hnone | ⟨l, -, h⟩ := course_ofExcept_bind_eq_error h
  · exact hnone
  obtain hnone | ⟨r, -, h⟩ := course_ofExcept_bind_eq_error h
  · exact hnone
  · exact course_go_eq_error h

/-- A wait that fails drives nothing.  One that is refused does not begin. -/
lemma course_pause_eq_error {time : Value} {fault : Fault} {events : List Event}
    (h : (pause time).course settings = (.error fault, events)) :
    framesOf events = [] ∧
      ∀ stopped, (waitsOf events = 0 ∨ stopped = false) → WaitFails stopped time := by
  obtain ⟨fault, hc⟩ | ⟨length, fault, hc, hlate⟩ | ⟨length, seconds, hc, hlength⟩ :=
    wait_cases time
  · rw [course_pause_of_refused hc] at h
    obtain ⟨-, rfl⟩ := Prod.mk.inj h
    exact ⟨rfl, fun stopped _ => .inl ⟨fault, hc⟩⟩
  · rw [course_pause_of_late hc hlate] at h
    obtain ⟨-, rfl⟩ := Prod.mk.inj h
    refine ⟨rfl, fun stopped hstopped => .inr ⟨length, fault, hc, hlate, ?_⟩⟩
    simpa using hstopped
  · rw [course_pause_of_ok hc hlength] at h
    simp at h

/-- A request sends the frame that its powers fit, if there is one. -/
lemma framesOf_goEvents (left right : Value) :
    framesOf (goEvents left right) = (Frame.fitting? left right).toList := by
  unfold goEvents
  cases Frame.fitting? left right <;> rfl

/-- A request does not wait. -/
lemma waitsOf_goEvents (left right : Value) : waitsOf (goEvents left right) = 0 := by
  unfold goEvents
  cases Frame.fitting? left right <;> rfl

/-- A quarter turn that fails has driven nothing, or it fails in the wait after its first arc. -/
lemma course_quarter_eq_error {power time : Value} {near far : Int} (hnear : near = 1 ∨ near = 2)
    (hfar : far = 1 ∨ far = 2) {fault : Fault} {events : List Event}
    (h : (quarter ⟨power, time, near, far⟩).course settings = (.error fault, events)) :
    (framesOf events = (Frame.fitting? (Value.given (power.scale (-near)))
        (Value.given (power.scale (-far)))).toList ∧
      ∀ stopped, (waitsOf events = 0 ∨ stopped = false) → WaitFails stopped time) ∨
      framesOf events = [] := by
  rw [quarter] at h
  obtain hout | ⟨_, out, _, hout, hlater, rfl⟩ := course_bind_eq_error h
  · rw [course_goTimes_eq_error hout]
    exact .inr rfl
  rw [course_goTimes_eq_ok hout]
  obtain hwait | ⟨_, waiting, _, hwait, hreturn, rfl⟩ := course_bind_eq_error hlater
  · obtain ⟨hsilent, hfails⟩ := course_pause_eq_error hwait
    left
    rw [framesOf_append, framesOf_goEvents, hsilent, List.append_nil, waitsOf_append,
      waitsOf_goEvents, Nat.zero_add]
    exact ⟨rfl, hfails⟩
  right
  obtain hback | ⟨_, back, _, hback, hagain, rfl⟩ := course_bind_eq_error hreturn
  · rw [course_pause_eq_ok hwait, course_goTimes_eq_error hback, List.append_nil, framesOf_append,
      framesOf_goEvents]
    cases hfits : Frame.fitting? (Value.given (power.scale (-near)))
      (Value.given (power.scale (-far))) with
    | none => rfl
    | some frame =>
      -- the power is moderate, so the arc back cannot have failed
      exfalso
      obtain ⟨n, hn, hmoderate⟩ := moderate_of_fitting? (by omega) hfits
      have hfar' : |far| ≤ 2 := by rcases hfar with rfl | rfl <;> norm_num
      have hnear' : |near| ≤ 2 := by rcases hnear with rfl | rfl <;> norm_num
      obtain ⟨_, _, hsucceeds⟩ :=
        succeeds_goTimes_of_moderate settings hn hmoderate hfar' hnear'
      rw [hsucceeds] at hback
      simp at hback
  · rw [hwait] at hagain
    simp at hagain

/-- Quarter turns that fail do so in the first one. -/
lemma course_quarters_eq_error {arc : Arc} {n : Nat} {fault : Fault} {events : List Event}
    (h : (quarters arc n).course settings = (.error fault, events)) :
    n ≠ 0 ∧ (quarter arc).course settings = (.error fault, events) := by
  induction n generalizing events with
  | zero => simp [quarters] at h
  | succ n ih =>
    refine ⟨Nat.succ_ne_zero n, ?_⟩
    rw [quarters] at h
    obtain hfirst | ⟨_, first, rest, hfirst, hrest, -⟩ := course_bind_eq_error h
    · exact hfirst
    · rw [(ih hrest).2] at hfirst
      simp at hfirst

/-- One wheel is driven at the power or at twice it, and so is the other. -/
lemma wheelFactors_cases (clockwise : Bool) :
    ((wheelFactors clockwise).1 = 1 ∨ (wheelFactors clockwise).1 = 2) ∧
      ((wheelFactors clockwise).2 = 1 ∨ (wheelFactors clockwise).2 = 2) := by
  cases clockwise <;> decide

/-- A turn that fails has driven nothing, or it fails in the wait after its first arc. -/
lemma course_turnBy_eq_error {turn : Number} {fault : Fault} {events : List Event}
    (h : (turnBy turn).course settings = (.error fault, events)) :
    (framesOf events = (firstArc? settings turn).toList ∧
      ∀ stopped, (waitsOf events = 0 ∨ stopped = false) →
        WaitFails stopped settings.turnPhaseTime) ∨
      framesOf events = [] := by
  cases hside : nearerSide turn with
  | error fault =>
    rw [turnBy, hside, course_ofExcept_bind_error] at h
    obtain ⟨-, rfl⟩ := Prod.mk.inj h
    exact .inr rfl
  | ok side =>
    obtain ⟨clockwise, angle⟩ := side
    cases hcount : quarterTurns angle with
    | error fault =>
      rw [turnBy, hside, course_ofExcept_bind_ok] at h
      simp only [hcount, course_ofExcept_bind_error] at h
      obtain ⟨-, rfl⟩ := Prod.mk.inj h
      exact .inr rfl
    | ok count =>
      obtain ⟨hplan, hscript⟩ := turnBy_eq hside hcount
      rw [hscript] at h
      obtain rfl | ⟨shown, -, h⟩ := course_ofExcept_bind_eq_error h
      · exact .inr rfl
      rw [course_say_bind, course_settings_bind] at h
      obtain hturning | ⟨_, turning, rest, -, hhalt, -⟩ := course_bind_eq_error h
      · obtain ⟨hpositive, hquarter⟩ := course_quarters_eq_error hturning
        obtain ⟨hnear, hfar⟩ := wheelFactors_cases clockwise
        rw [firstArc?, hplan]
        simp only [if_neg hpositive]
        exact course_quarter_eq_error hnear hfar hquarter
      · simp at hhalt

/-- A wait that fails, with the number of waits that have begun by then. -/
lemma course_pause_of_waitFails (settings : Settings) {stopped : Bool} {time : Value}
    (h : WaitFails stopped time) :
    ∃ fault events, (pause time).course settings = (.error fault, events) ∧
      framesOf events = [] ∧
      (waitsOf events = 0 ∨ waitsOf events = 1 ∧ stopped = false) := by
  obtain ⟨fault, hc⟩ | ⟨length, fault, hc, hlate, hstopped⟩ := h
  · exact ⟨fault, [], course_pause_of_refused hc, rfl, .inl rfl⟩
  · exact ⟨fault, [.wait time], course_pause_of_late hc hlate, rfl, .inr ⟨rfl, hstopped⟩⟩

/-- An arc whose frame exists is driven. -/
lemma course_goTimes_of_fitting {power : Value} {left right : Int} {frame : Frame}
    (hleft : left ≠ 0) (hleft' : |left| ≤ 2) (hright : |right| ≤ 2)
    (h : Frame.fitting? (Value.given (power.scale left)) (Value.given (power.scale right)) =
      some frame) :
    (goTimes power left right).course settings = (.ok (), [.frame frame]) := by
  obtain ⟨n, hn, hmoderate⟩ := moderate_of_fitting? hleft h
  obtain ⟨u, events, hgo⟩ :=
    succeeds_goTimes_of_moderate settings hn hmoderate hleft' hright
  rw [hgo, course_goTimes_eq_ok hgo, goEvents, h]
  rfl

/-- A quarter turn whose first arc is driven, and whose first wait fails. -/
lemma course_quarter_of_waitFails {power time : Value} {near far : Int} {frame : Frame}
    {fault : Fault} {waiting : List Event} (hnear : near = 1 ∨ near = 2) (hfar : far = 1 ∨ far = 2)
    (hframe : Frame.fitting? (Value.given (power.scale (-near)))
      (Value.given (power.scale (-far))) = some frame)
    (hpause : (pause time).course settings = (.error fault, waiting)) :
    (quarter ⟨power, time, near, far⟩).course settings =
      (.error fault, .frame frame :: waiting) := by
  have hout : (goTimes power (-near) (-far)).course settings = (.ok (), [.frame frame]) :=
    course_goTimes_of_fitting (by omega) (by rcases hnear with rfl | rfl <;> norm_num)
      (by rcases hfar with rfl | rfl <;> norm_num) hframe
  rw [quarter, course_bind_of_ok hout, course_bind_of_error hpause]
  rfl

/-- A turn that strands fails and leaves its first arc driven. -/
lemma course_turnBy_of_strands {stopped : Bool} {x : Float}
    (h : Strands settings stopped (.double x)) :
    ∃ fault events frame, (turnBy (.double x)).course settings = (.error fault, events) ∧
      framesOf events = [frame] ∧ frame ≠ .stop ∧
      (waitsOf events = 0 ∨ waitsOf events = 1 ∧ stopped = false) := by
  obtain ⟨⟨frame, hframe, hne⟩, hfails⟩ := h
  obtain ⟨fault, waiting, hpause, hsilent, hwaits⟩ :=
    course_pause_of_waitFails settings hfails
  refine ⟨fault, .frame frame :: waiting, frame, ?_, by simp [hsilent], hne, by simpa using hwaits⟩
  obtain ⟨clockwise, y, hside⟩ : ∃ clockwise y, nearerSide (Number.double x) =
      .ok (clockwise, .double y) := by
    unfold nearerSide
    split
    · exact ⟨_, _, rfl⟩
    · exact ⟨_, _, rfl⟩
  cases hcount : quarterTurns (Number.double y) with
  | error fault => simp [firstArc?, turnPlan, hside, hcount] at hframe
  | ok count =>
    obtain ⟨hplan, hscript⟩ := turnBy_eq hside hcount
    rw [firstArc?, hplan] at hframe
    dsimp only at hframe
    split at hframe
    · simp at hframe
    next hpositive =>
      obtain ⟨n, hn⟩ := Nat.exists_eq_succ_of_ne_zero hpositive
      obtain ⟨hnear, hfar⟩ := wheelFactors_cases clockwise
      have hquarter := course_quarter_of_waitFails hnear hfar hframe hpause
      have hshown : (Number.double y).toDouble = .ok y := rfl
      rw [hscript, hshown, course_ofExcept_bind_ok, course_say_bind, course_settings_bind, hn,
        Nat.succ_eq_add_one, quarters, course_bind_of_error (course_bind_of_error hquarter)]

/-! ### Commands -/

/-- A product with a double is a double. -/
lemma times_double_eq_ok {v time : Value} {y : Float} (h : v.times (.double y) = .ok time) :
    ∃ z, time = .number (.double z) := by
  unfold Value.times at h
  cases hnumber : v.number? with
  | none =>
    rw [hnumber] at h
    dsimp only at h
    split at h <;> simp at h
  | some m =>
    rw [hnumber] at h
    dsimp only at h
    rw [bind_eq_ok] at h
    obtain ⟨product, hproduct, h⟩ := h
    obtain rfl := Except.ok.inj h
    cases m with
    | double x => exact ⟨_, congrArg Value.number (Except.ok.inj hproduct).symm⟩
    | int n =>
      have hmul : Number.mul (.int n) (.double y) =
          (Number.int n).toDouble >>= fun x => .ok (.double (x * y)) := rfl
      rw [hmul, bind_eq_ok] at hproduct
      obtain ⟨x, -, hproduct⟩ := hproduct
      exact ⟨_, congrArg Value.number (Except.ok.inj hproduct).symm⟩

/-- A way forward that fails has driven nothing. -/
lemma course_goForward_eq_error {y : Float} {fault : Fault} {events : List Event}
    (h : (goForward (.double y)).course settings = (.error fault, events)) : events = [] := by
  rw [goForward, course_settings_bind] at h
  obtain hnone | ⟨time, htime, h⟩ := course_ofExcept_bind_eq_error h
  · exact hnone
  obtain hnone | ⟨shown, -, h⟩ := course_ofExcept_bind_eq_error h
  · exact hnone
  rw [course_say_bind] at h
  obtain hnone | ⟨power, -, h⟩ := course_ofExcept_bind_eq_error h
  · exact hnone
  obtain hgo | ⟨_, going, _, -, h, -⟩ := course_bind_eq_error h
  · exact course_go_eq_error hgo
  exfalso
  obtain hpause | ⟨_, waiting, _, -, hhalt, -⟩ := course_bind_eq_error h
  · -- its time is a double, so the wait is held
    obtain ⟨z, rfl⟩ := times_double_eq_ok htime
    have hdouble : (Value.number (.double z)).number? = some (.double z) := rfl
    obtain ⟨_, _, hheld⟩ := succeeds_pause_of_tame settings hdouble trivial
    rw [hheld] at hpause
    simp at hpause
  · simp at hhalt

/-- The last frame of a turn is the stop. -/
lemma getLast?_framesOf_turnEvents (turn : Number) :
    (framesOf (turnEvents settings turn)).getLast? = some .stop := by
  simp [turnEvents, List.getLast?_append]

/-- The last frame of a way is the stop. -/
lemma getLast?_framesOf_wayEvents (distance : Number) :
    (framesOf (wayEvents settings distance)).getLast? = some .stop := by
  simp [wayEvents, List.getLast?_append]

/-- A turn and a way that are completed leave the motors stopped. -/
lemma not_leftRunning_movement (turn distance : Number) :
    ¬ LeftRunning (framesOf (turnEvents settings turn ++ wayEvents settings distance)) := by
  apply not_leftRunning_of_getLast?
  simp [getLast?_framesOf_wayEvents]

/-- A command that fails and leaves the motors running is stranded in its turn. -/
lemma strands_of_course_perform {command : Command} {pose : Pose Number} {fault : Fault}
    {events : List Event} (h : (perform command pose).course settings = (.error fault, events))
    (hrunning : LeftRunning (framesOf events)) :
    ∃ displacement, command.displacement pose = .ok displacement ∧
      ∀ stopped, (waitsOf events = 0 ∨ stopped = false) →
        Strands settings stopped displacement.turn := by
  rw [perform] at h
  obtain rfl | ⟨displacement, hdisplacement, h⟩ := course_ofExcept_bind_eq_error h
  · exact absurd hrunning not_leftRunning_nil
  obtain rfl | ⟨turn, -, h⟩ := course_ofExcept_bind_eq_error h
  · exact absurd hrunning not_leftRunning_nil
  obtain rfl | ⟨distance, -, h⟩ := course_ofExcept_bind_eq_error h
  · exact absurd hrunning not_leftRunning_nil
  rw [course_say_bind] at h
  refine ⟨displacement, hdisplacement, ?_⟩
  obtain hturn | ⟨_, turning, _, hturn, hrest, rfl⟩ := course_bind_eq_error h
  · obtain ⟨hframes, hfails⟩ | hnone := course_turnBy_eq_error hturn
    · rw [hframes] at hrunning
      obtain ⟨frame, hframe, hne⟩ := hrunning
      refine fun stopped hstopped => ⟨⟨frame, ?_, hne⟩, hfails stopped hstopped⟩
      cases hfirst : firstArc? settings displacement.turn <;> simp_all
    · rw [hnone] at hrunning
      exact absurd hrunning not_leftRunning_nil
  -- the turn is over, so what was driven so far ends with a stop
  rw [course_turnBy_eq_ok hturn] at hrunning
  exfalso
  obtain hgo | ⟨_, going, _, hgo, hend, rfl⟩ := course_bind_eq_error hrest
  · obtain ⟨y, hy⟩ := (displacement_doubles hdisplacement).2
    rw [hy] at hgo
    rw [course_goForward_eq_error hgo, List.append_nil] at hrunning
    exact not_leftRunning_of_getLast? (getLast?_framesOf_turnEvents _) hrunning
  · rw [course_goForward_eq_ok hgo] at hrunning
    cases hadvance : pose.advance displacement.vector displacement.heading with
    | mk next failure =>
      simp only [hadvance] at hend
      cases failure with
      | none => simp at hend
      | some fault =>
        simp only [course_fail, Prod.mk.injEq] at hend
        obtain ⟨-, rfl⟩ := hend
        rw [List.append_nil] at hrunning
        exact not_leftRunning_movement _ _ hrunning

/-- A leg that is over has stopped the motors. -/
lemma not_leftRunning_of_course_leg {command : Command} {pose next : Pose Number}
    {events : List Event} (h : (leg command pose).course settings = (.ok next, events)) :
    ¬ LeftRunning (framesOf events) := by
  obtain ⟨displacement, -, -, rfl⟩ := course_leg h
  rw [PlanStep.events, framesOf_append]
  simpa using not_leftRunning_movement displacement.turn displacement.distance

/-- A leg that leaves the motors running is stranded in its turn. -/
lemma strands_of_course_leg {command : Command} {pose : Pose Number}
    (h : LeftRunning (framesOf ((leg command pose).course settings).2)) :
    ∃ displacement, command.displacement pose = .ok displacement ∧
      ∀ stopped, (waitsOf ((leg command pose).course settings).2 = 0 ∨ stopped = false) →
        Strands settings stopped displacement.turn := by
  cases hcourse : (leg command pose).course settings with
  | mk result events =>
    rw [hcourse] at h
    cases result with
    | ok next => exact absurd h (not_leftRunning_of_course_leg hcourse)
    | error fault =>
      rw [leg] at hcourse
      obtain hperform | ⟨⟨displacement, next⟩, performing, _, hperform, hrest, rfl⟩ :=
        course_bind_eq_error hcourse
      · exact strands_of_course_perform hperform h
      exfalso
      obtain ⟨-, -, rfl⟩ := course_perform_eq_ok hperform
      rw [course_settings_bind] at hrest
      obtain hpause | ⟨_, _, _, -, hend, -⟩ := course_bind_eq_error hrest
      · rw [framesOf_append, (course_pause_eq_error hpause).1, List.append_nil] at h
        exact not_leftRunning_movement _ _ h
      · simp at hend

/-- A leg whose turn strands fails and leaves its first arc driven. -/
lemma course_leg_of_strands {stopped : Bool} {command : Command} {pose : Pose Number}
    {displacement : Displacement Number}
    (hdisplacement : command.displacement pose = .ok displacement)
    (h : Strands settings stopped displacement.turn) :
    ∃ fault events, (leg command pose).course settings = (.error fault, events) ∧
      LeftRunning (framesOf events) ∧
      (waitsOf events = 0 ∨ waitsOf events = 1 ∧ stopped = false) := by
  obtain ⟨⟨x, hx⟩, y, hy⟩ := displacement_doubles hdisplacement
  rw [hx] at h
  obtain ⟨fault, events, frame, hturn, hframes, hne, hwaits⟩ := course_turnBy_of_strands h
  refine ⟨fault, events, ?_, ?_, hwaits⟩
  · have hshown : (Number.double x).toDouble = .ok x := rfl
    have hlong : (Number.double y).toDouble = .ok y := rfl
    have hperform : (perform command pose).course settings = (.error fault, events) := by
      rw [perform, hdisplacement, course_ofExcept_bind_ok, hx, hy, hshown, course_ofExcept_bind_ok,
        hlong, course_ofExcept_bind_ok, course_say_bind, course_bind_of_error hturn]
    rw [leg, course_bind_of_error hperform]
  · rw [hframes]
    exact leftRunning_singleton.mpr hne

/-! ### Drawings -/

section Drawings

variable {stops : Nat → Bool} {p : Progress}

/-- A rehearsal that leaves the motors running was never stopped, so it is the quiet one. -/
lemma rehearse_of_leftRunning {α : Type} {script : Script α}
    (h : LeftRunning (framesOf (script.rehearse settings stops p).2.2)) :
    (script.rehearse settings stops p).2.1.aborted = false ∧ p.aborted = false ∧
      script.rehearse settings stops p = script.rehearse settings quiet p := by
  have hdown : (script.rehearse settings stops p).2.1.aborted = false := by
    by_contra hup
    rw [Bool.not_eq_false] at hup
    have hlast := getLast?_frames_rehearse settings stops script p hup
    obtain ⟨frame, hframe, hne⟩ := h
    rw [hlast] at hframe
    split at hframe
    · simp at hframe
    · exact hne (Option.some.inj hframe).symm
  exact ⟨hdown, aborted_eq_false_of_rehearse hdown, rehearse_of_not_aborted settings stops script p
    hdown⟩

/-- A leg that is over has stopped the motors, also if the session was stopped meanwhile. -/
lemma not_leftRunning_of_rehearse_leg {command : Command} {pose next : Pose Number} {q : Progress}
    {events : List Event}
    (h : (leg command pose).rehearse settings stops p = (.ok next, q, events)) :
    ¬ LeftRunning (framesOf events) := by
  intro hrunning
  have hrunning' : LeftRunning (framesOf ((leg command pose).rehearse settings stops p).2.2) := by
    rwa [h]
  obtain ⟨-, hp, hquiet⟩ := rehearse_of_leftRunning hrunning'
  rw [rehearse_quiet settings _ p hp, h] at hquiet
  simp only [Prod.mk.injEq] at hquiet
  obtain ⟨hend, -, rfl⟩ := hquiet
  exact not_leftRunning_of_course_leg (Prod.ext hend.symm rfl) hrunning

/-- A leg that is over with the flag down is a step of the plan. -/
lemma advance_of_rehearse_leg {command : Command} {pose next : Pose Number} {q : Progress}
    {events : List Event}
    (h : (leg command pose).rehearse settings stops p = (.ok next, q, events))
    (hq : q.aborted = false) :
    ∃ displacement, command.displacement pose = .ok displacement ∧
      pose.advance displacement.vector displacement.heading = (next, none) := by
  have hdown : ((leg command pose).rehearse settings stops p).2.1.aborted = false := by rwa [h]
  have hquiet := rehearse_of_not_aborted settings stops (leg command pose) p hdown
  rw [h, rehearse_quiet settings _ p (aborted_eq_false_of_rehearse hdown), Prod.mk.injEq] at hquiet
  obtain ⟨displacement, hdisplacement, hadvance, -⟩ := course_leg (Prod.ext hquiet.1.symm rfl)
  exact ⟨displacement, hdisplacement, hadvance⟩

/-- A leg leaves the motors running when its turn strands. -/
lemma leftRunning_rehearse_leg_iff (command : Command) (pose : Pose Number)
    (hp : p.aborted = false) :
    LeftRunning (framesOf ((leg command pose).rehearse settings stops p).2.2) ↔
      ∃ displacement, command.displacement pose = .ok displacement ∧
        Strands settings (stops (p.begun + 1)) displacement.turn := by
  constructor
  · intro h
    obtain ⟨hdown, -, hquiet⟩ := rehearse_of_leftRunning h
    have hstops := stops_eq_false_of_rehearse settings stops (leg command pose) p hdown
      (p.begun + 1) (Nat.lt_succ_self _)
    rw [hquiet, rehearse_quiet settings _ p hp] at h hstops
    obtain ⟨displacement, hdisplacement, hstrands⟩ := strands_of_course_leg h
    refine ⟨displacement, hdisplacement, hstrands _ ?_⟩
    rcases Nat.eq_zero_or_pos (waitsOf ((leg command pose).course settings).2) with hzero | hpos
    · exact .inl hzero
    · exact .inr (hstops (by dsimp only; omega))
  · rintro ⟨displacement, hdisplacement, hstrands⟩
    obtain ⟨fault, events, hcourse, hrunning, hwaits⟩ :=
      course_leg_of_strands hdisplacement hstrands
    have hunstopped := rehearse_of_unstopped settings stops (leg command pose) p hp
    rw [rehearse_quiet settings _ p hp, hcourse] at hunstopped
    rw [hunstopped]
    · exact hrunning
    · intro k hlow hhigh
      dsimp only at hhigh
      obtain hzero | ⟨hone, hstopped⟩ := hwaits
      · omega
      · obtain rfl : k = p.begun + 1 := by omega
        exact hstopped

/-- The drawing comes to a command whose turn strands; the commands before it are completed. -/
def StrandsIn (settings : Settings) (stops : Nat → Bool) (index total : Nat) (pose : Pose Number)
    (commands : List Command) (p : Progress) : Prop :=
  ∃ before command after q events displacement, commands = before ++ command :: after ∧
    (drawFrom index total pose before).rehearse settings stops p = (.ok .completed, q, events) ∧
    command.displacement ((Plan.walk pose before).arrival pose) = .ok displacement ∧
    Strands settings (stops (q.begun + 1)) displacement.turn

variable {index total : Nat} {pose : Pose Number} {command : Command} {commands : List Command}

/-- A drawing whose first command is completed goes on with the rest. -/
lemma rehearse_drawFrom_cons_of_ok (hp : p.aborted = false) {next : Pose Number} {q : Progress}
    {events : List Event}
    (h : (leg command pose).rehearse settings stops p = (.ok next, q, events)) :
    (drawFrom index total pose (command :: commands)).rehearse settings stops p =
      ((drawFrom (index + 1) total next commands).rehearse settings stops q).after events := by
  rw [rehearse_drawFrom_cons _ _ hp, rehearse_bind, h]

/-- A drawing that is completed has completed its first leg and then the rest. -/
lemma rehearse_drawFrom_cons_eq_completed (hp : p.aborted = false) {q' : Progress}
    {events : List Event}
    (h : (drawFrom index total pose (command :: commands)).rehearse settings stops p =
      (.ok .completed, q', events)) :
    ∃ next q first second,
      (leg command pose).rehearse settings stops p = (.ok next, q, first) ∧ q.aborted = false ∧
      (drawFrom (index + 1) total next commands).rehearse settings stops q =
        (.ok .completed, q', second) := by
  rw [rehearse_drawFrom_cons _ _ hp, rehearse_bind] at h
  rcases hleg : (leg command pose).rehearse settings stops p with ⟨fault | next, q, first⟩
  · rw [hleg] at h
    simp at h
  · rw [hleg] at h
    simp only [Rehearsed.after, Prod.mk.injEq] at h
    obtain ⟨hend, hprogress, -⟩ := h
    cases hq : q.aborted with
    | true =>
      rw [rehearse_drawFrom_of_aborted _ hq] at hend
      simp at hend
    | false => exact ⟨next, q, first, _, rfl, hq, Prod.ext hend (Prod.ext hprogress rfl)⟩

/-- A drawing comes to a command that strands in its first leg, or after it. -/
lemma strandsIn_cons_iff (hp : p.aborted = false) :
    StrandsIn settings stops index total pose (command :: commands) p ↔
      (∃ displacement, command.displacement pose = .ok displacement ∧
        Strands settings (stops (p.begun + 1)) displacement.turn) ∨
      ∃ next q events, (leg command pose).rehearse settings stops p = (.ok next, q, events) ∧
        q.aborted = false ∧ StrandsIn settings stops (index + 1) total next commands q := by
  constructor
  · rintro ⟨_ | ⟨first, before⟩, stranded, after, q', events, displacement, hsplit, hbefore,
      hdisplacement, hstrands⟩
    · -- the first command strands
      left
      obtain ⟨rfl, rfl⟩ := List.cons.inj hsplit
      rw [rehearse_drawFrom_nil hp, Prod.mk.injEq, Prod.mk.injEq] at hbefore
      obtain ⟨-, rfl, -⟩ := hbefore
      exact ⟨displacement, hdisplacement, hstrands⟩
    · -- the first command is completed, and a later one strands
      right
      obtain ⟨rfl, rfl⟩ := List.cons.inj hsplit
      obtain ⟨next, q, events, later, hleg, hq, hrest⟩ :=
        rehearse_drawFrom_cons_eq_completed hp hbefore
      obtain ⟨found, hfound, hadvance⟩ := advance_of_rehearse_leg hleg hq
      rw [Plan.arrival_walk_cons_of_ok hfound hadvance] at hdisplacement
      exact ⟨next, q, events, hleg, hq, before, stranded, after, q', later,
        displacement, rfl, hrest,
        hdisplacement, hstrands⟩
  · rintro (⟨displacement, hdisplacement, hstrands⟩ | ⟨next, q, events, hleg, hq, before, stranded,
      after, q', later, displacement, rfl, hbefore, hdisplacement, hstrands⟩)
    · exact ⟨[], command, commands, p, [], displacement, rfl, rehearse_drawFrom_nil hp,
        hdisplacement, hstrands⟩
    · obtain ⟨found, hfound, hadvance⟩ := advance_of_rehearse_leg hleg hq
      refine ⟨command :: before, stranded, after, q', events ++ later, displacement, rfl, ?_, ?_,
        hstrands⟩
      · rw [rehearse_drawFrom_cons_of_ok hp hleg, hbefore]
        rfl
      · rwa [Plan.arrival_walk_cons_of_ok hfound hadvance]

/-- A drawing leaves the motors running in its first leg, or after it. -/
lemma leftRunning_rehearse_drawFrom_cons_iff (hp : p.aborted = false) :
    LeftRunning (framesOf
        ((drawFrom index total pose (command :: commands)).rehearse settings stops p).2.2) ↔
      LeftRunning (framesOf ((leg command pose).rehearse settings stops p).2.2) ∨
      ∃ next q events, (leg command pose).rehearse settings stops p = (.ok next, q, events) ∧
        q.aborted = false ∧ LeftRunning (framesOf
          ((drawFrom (index + 1) total next commands).rehearse settings stops q).2.2) := by
  rcases hleg : (leg command pose).rehearse settings stops p with ⟨fault | next, q, events⟩
  · rw [rehearse_drawFrom_cons _ _ hp, rehearse_bind, hleg]
    simp
  · have hover : ¬ LeftRunning (framesOf events) := not_leftRunning_of_rehearse_leg hleg
    rw [rehearse_drawFrom_cons_of_ok hp hleg, Rehearsed.after, framesOf_append,
      leftRunning_append_iff hover]
    constructor
    · intro h
      exact .inr ⟨next, q, events, rfl, (rehearse_of_leftRunning h).2.1, h⟩
    · rintro (hnow | ⟨next', q', events', hsame, -, h⟩)
      · exact absurd hnow hover
      · obtain ⟨rfl, rfl, rfl⟩ : next = next' ∧ q = q' ∧ events = events' := by simpa using hsame
        exact h

/-- A drawing leaves the motors running when it comes to a command whose turn strands. -/
lemma leftRunning_rehearse_drawFrom_iff (commands : List Command) (index total : Nat)
    (pose : Pose Number) (hp : p.aborted = false) :
    LeftRunning (framesOf ((drawFrom index total pose commands).rehearse settings stops p).2.2) ↔
      StrandsIn settings stops index total pose commands p := by
  induction commands generalizing index pose p with
  | nil =>
    rw [rehearse_drawFrom_nil hp]
    simp [StrandsIn]
  | cons command commands ih =>
    rw [leftRunning_rehearse_drawFrom_cons_iff hp, strandsIn_cons_iff hp,
      leftRunning_rehearse_leg_iff command pose hp]
    refine or_congr_right ?_
    constructor
    · rintro ⟨next, q, events, hleg, hq, h⟩
      exact ⟨next, q, events, hleg, hq, (ih _ _ hq).mp h⟩
    · rintro ⟨next, q, events, hleg, hq, h⟩
      exact ⟨next, q, events, hleg, hq, (ih _ _ hq).mpr h⟩

end Drawings

end Script

open Script in
/-- A drawing, however it is stopped, ends with the motors running exactly when it comes to a
command whose turn strands: the commands before it are completed, its turn drives a first arc, and
the wait after this arc fails. -/
theorem Session.leftRunning_play_draw_iff (commands : List Command) (settings : Settings)
    (frames : List Bytes) (aborted : Bool) (air : Air) (clock : Clock) (stops : Nat → Bool) :
    LeftRunning (framesOf ((draw commands).play (Session.rehearsal stops)
        ⟨settings, .rehearsal frames, aborted, air, clock⟩).2.2.events) ↔
      ∃ before command after t journal displacement, commands = before ++ command :: after ∧
        (draw before).play (Session.rehearsal stops)
          ⟨settings, .rehearsal frames, aborted, air, clock⟩ = (.ok .completed, t, journal) ∧
        command.displacement ((Plan.walk Pose.start before).arrival Pose.start) =
          .ok displacement ∧
        Strands settings (stops (t.clock.begun + 1)) displacement.turn := by
  have hs : Session.Rehearses ⟨settings, .rehearsal frames, aborted, air, clock⟩ settings
      ⟨clock.begun, aborted⟩ := ⟨⟨frames, rfl⟩, rfl, rfl⟩
  generalize Session.mk settings (.rehearsal frames) aborted air clock = s at hs
  obtain ⟨t, journal, hplay, -, hevents⟩ :=
    play_rehearsal stops (draw commands) s settings ⟨clock.begun, aborted⟩ hs
  rw [hplay, hevents]
  cases haborted : aborted with
  | true =>
    -- a session that was stopped before draws nothing at all
    rw [draw, rehearse_drawFrom_of_aborted commands rfl]
    refine iff_of_false not_leftRunning_nil ?_
    rintro ⟨before, command, after, t, journal, displacement, -, hbefore, -⟩
    obtain ⟨t', journal', hplay', -⟩ := play_rehearsal stops (draw before) s settings _ hs
    rw [hbefore, haborted, draw, rehearse_drawFrom_of_aborted before rfl] at hplay'
    simp at hplay'
  | false =>
    subst haborted
    rw [draw, leftRunning_rehearse_drawFrom_iff commands 1 commands.length Pose.start rfl]
    constructor
    · rintro ⟨before, command, after, q, events, displacement, hsplit, hbefore, hrest⟩
      obtain ⟨t', journal', hplay', ht', -⟩ := play_rehearsal stops (draw before) s settings _ hs
      rw [draw, rehearse_drawFrom_total before commands.length, hbefore] at hplay' ht'
      have hbegun : t'.clock.begun = q.begun := congrArg Progress.begun ht'.progress_eq
      refine ⟨before, command, after, t', journal', displacement, hsplit, hplay', ?_⟩
      rwa [hbegun]
    · rintro ⟨before, command, after, t', journal', displacement, hsplit, hbefore, hrest⟩
      obtain ⟨t'', journal'', hplay', ht', -⟩ := play_rehearsal stops (draw before) s settings _ hs
      rw [hbefore, Prod.mk.injEq, Prod.mk.injEq] at hplay'
      obtain ⟨hend, rfl, -⟩ := hplay'
      have hbegun := congrArg Progress.begun ht'.progress_eq
      rw [draw, rehearse_drawFrom_total before commands.length] at hend hbegun
      refine ⟨before, command, after, _, _, displacement, hsplit, Prod.ext hend.symm rfl, ?_⟩
      rwa [← hbegun]

open Script in
/-- An update accepts a time for the arcs of a turn that no clock can wait for.  The first turn then
ends the drawing with the motors running. -/
theorem Session.leftRunning_play_draw_of_update :
    ∃ settings,
      Settings.standard.update [(Text.ofString "turn_phase_time", .int (10 ^ 400))] =
        .ok settings ∧
      LeftRunning (framesOf ((draw [.lineAt 0 1]).play (Session.rehearsal fun _ => false)
        ⟨settings, .rehearsal [], false, ⟨[], []⟩, .start⟩).2.2.events) := by
  refine ⟨Settings.standard.set .turnPhaseTime (.int (10 ^ 400)), rfl, ⟨-30, -15, 0⟩, ?_, ?_⟩
  · decide +kernel
  · decide

end PenRover
