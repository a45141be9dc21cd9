import PenRover.Proofs.Drawing.Lines
import PenRover.Proofs.Motion.Course
import PenRover.Proofs.Numeric.Order

/-!
# Itineraries

The itinerary of a drawing says what the robot does for each step of its plan: the quarter turns,
each of them two arcs and two waits, the way forward, and the delay in which it settles.  It is
written down from the plan and the settings alone, without the script.

`course_leg` says that the script of one command, when it comes to a good end, has gone through the
step that the plan has for this command, and that its events are those of the itinerary.
-/

namespace PenRover

/-! ### Powers that fit a frame -/

/-- The power that a wheel gets for a requested value: the integer part of a finite number from
`-128` to `127`, and none for anything else. -/
def Value.wheel? : Value → Option Int8
  | .number n => do
    let q ← n.value?
    if -128 ≤ q ∧ q ≤ 127 then some (Int8.ofInt (integerPart q)) else none
  | _ => none

/-- The frame for two requested powers, if both of them fit. -/
def Frame.fitting? (left right : Value) : Option Frame := do
  return ⟨← left.wheel?, ← right.wheel?, 0⟩

/-- A finite double gives its integer part as a power when it is in range. -/
lemma Value.power?_double {x : Float} {q : ℚ} (h : Double.value? x = some q) :
    (Value.double x).power? =
      .ok (if -128 ≤ q ∧ q ≤ 127 then some (integerPart q) else none) := by
  have hlow := Number.le_eq_decide (a := .int (-128)) (b := .double x) rfl h
  have hhigh := Number.le_eq_decide (a := .double x) (b := .int 127) h rfl
  obtain ⟨negative, m, e, hview, rfl⟩ := Double.exists_view_of_value? h
  push_cast at hlow hhigh
  simp only [Value.double, Value.power?, hview, hlow, hhigh, Double.truncateOf_eq, Bool.and_eq_true,
    decide_eq_true_eq]
  split_ifs <;> rfl

/-- An infinity or a NaN gives no power. -/
lemma Value.power?_double_of_not_finite {x : Float} (h : Double.value? x = none) :
    (Value.double x).power? = .ok none := by
  simp only [Value.double, Value.power?]
  split
  next negative m e hview =>
    rw [Double.value?_of_view hview] at h
    exact nomatch h
  next => rfl

/-- A wheel gets the power that was read, as a signed byte. -/
lemma Value.wheel?_of_power? {v : Value} {power : Option Int} (h : v.power? = .ok power) :
    v.wheel? = power.map Int8.ofInt := by
  cases v with
  | number n =>
    cases n with
    | int n =>
      simp only [Value.power?, bind, Except.bind] at h
      split at h
      next => simp at h
      next =>
        obtain rfl : (if -128 ≤ n ∧ n ≤ 127 then some n else none) = power := Except.ok.inj h
        have hrange : (-128 ≤ (n : ℚ) ∧ (n : ℚ) ≤ 127) ↔ -128 ≤ n ∧ n ≤ 127 := by norm_cast
        by_cases hn : -128 ≤ n ∧ n ≤ 127 <;> simp [Value.wheel?, hrange, hn]
    | double x =>
      cases hvalue : Double.value? x with
      | none =>
        obtain rfl : none = power :=
          Except.ok.inj ((Value.power?_double_of_not_finite hvalue).symm.trans h)
        simp [Value.wheel?, hvalue]
      | some q =>
        obtain rfl := Except.ok.inj ((Value.power?_double hvalue).symm.trans h)
        by_cases hq : -128 ≤ q ∧ q ≤ 127 <;> simp [Value.wheel?, hvalue, hq]
  | null | flag _ | text _ | list _ | record _ =>
    obtain rfl : none = power := by simpa [Value.power?] using h
    rfl

/-- A request that does not fail asks for the frame that fits its powers. -/
lemma Frame.fitting?_of_request {left right : Value} {frame : Option Frame}
    (h : Frame.request left right = .ok frame) : frame = Frame.fitting? left right := by
  unfold Frame.request at h
  split at h
  next =>
    cases hl : left.power? with
    | error fault => simp [Frame.ofPowers?, hl, bind, Except.bind] at h
    | ok l =>
      have hleft := Value.wheel?_of_power? hl
      cases l with
      | none =>
        simp only [Frame.ofPowers?, hl, bind, Except.bind, pure, Except.pure, Except.ok.injEq] at h
        simp [Frame.fitting?, hleft, ← h]
      | some l =>
        cases hr : right.power? with
        | error fault => simp [Frame.ofPowers?, hl, hr, bind, Except.bind] at h
        | ok r =>
          have hright := Value.wheel?_of_power? hr
          cases r <;>
            simp_all [Frame.ofPowers?, Frame.fitting?, bind, Except.bind, pure, Except.pure]
  next => simp at h

/-! ### The itinerary of a step -/

/-- The value that a computation gives, and nothing when it fails. -/
def Value.given : Except Fault Value → Value
  | .ok v => v
  | .error _ => .null

/-- The events of a request for two powers. -/
def goEvents (left right : Value) : List Event := ((Frame.fitting? left right).map .frame).toList

/-- The side that a turn is driven to and the number of its quarter turns, none if it is not
positive. -/
def turnPlan (turn : Number) : Bool × Nat :=
  match nearerSide turn with
  | .error _ => (false, 0)
  | .ok (clockwise, angle) =>
    match quarterTurns angle with
    | .error _ => (clockwise, 0)
    | .ok count => (clockwise, count.toNat)

/-- The events of one quarter turn: an arc out, and an arc back that is bent the other way. -/
def quarterEvents (power time : Value) (near far : Int) : List Event :=
  let times factor := Value.given (power.scale factor)
  goEvents (times (-near)) (times (-far)) ++ [.wait time] ++
    (goEvents (times far) (times near) ++ [.wait time])

/-- The factors of the wheels, near and far, for a turn to this side. -/
def wheelFactors (clockwise : Bool) : Int × Int := if clockwise then (2, 1) else (1, 2)

/-- The events of a turn. -/
def turnEvents (settings : Settings) (turn : Number) : List Event :=
  let (clockwise, count) := turnPlan turn
  let (near, far) := wheelFactors clockwise
  (List.replicate count
    (quarterEvents settings.turnPower settings.turnPhaseTime near far)).flatten ++ [.frame .stop]

/-- The events of a way forward. -/
def wayEvents (settings : Settings) (distance : Number) : List Event :=
  let power := Value.given settings.forwardPower.negate
  goEvents power power ++
    [.wait (Value.given (settings.forwardTimePerUnit.times distance)), .frame .stop]

/-- The events of a step. -/
def PlanStep.events (settings : Settings) (step : PlanStep Number) : List Event :=
  turnEvents settings step.displacement.turn ++ wayEvents settings step.displacement.distance ++
    [.wait settings.settleDelay]

/-- The legs of a plan: the events of its steps. -/
def legsOf (settings : Settings) (plan : Plan Number) : List (List Event) :=
  plan.steps.map (PlanStep.events settings)

/-- The poses that a plan goes through from a pose, this one included. -/
def Plan.poses (pose : Pose Number) (plan : Plan Number) : List (Pose Number) :=
  pose :: plan.steps.map PlanStep.pose

/-- The pose to which a plan leads from a pose. -/
def Plan.arrival (pose : Pose Number) (plan : Plan Number) : Pose Number :=
  (plan.poses pose).getLastD pose

/-- The poses of a plan are its first and those of the rest from the next pose. -/
lemma Plan.poses_walk_cons_of_ok {command : Command} {rest : List Command}
    {pose next : Pose Number} {displacement : Displacement Number}
    (hdisplacement : command.displacement pose = .ok displacement)
    (hadvance : pose.advance displacement.vector displacement.heading = (next, none)) :
    (Plan.walk pose (command :: rest)).poses pose = pose :: (Plan.walk next rest).poses next := by
  rw [Plan.walk_cons_of_ok hdisplacement hadvance]
  rfl

/-- Without commands a plan ends where it starts. -/
@[simp] lemma Plan.arrival_walk_nil (pose : Pose Number) :
    (Plan.walk pose []).arrival pose = pose := rfl

/-- A plan ends where the rest of it ends from the next pose. -/
lemma Plan.arrival_walk_cons_of_ok {command : Command} {rest : List Command}
    {pose next : Pose Number} {displacement : Displacement Number}
    (hdisplacement : command.displacement pose = .ok displacement)
    (hadvance : pose.advance displacement.vector displacement.heading = (next, none)) :
    (Plan.walk pose (command :: rest)).arrival pose = (Plan.walk next rest).arrival next := by
  rw [arrival, poses_walk_cons_of_ok hdisplacement hadvance, arrival, List.getLastD_cons, poses,
    List.getLastD_cons, List.getLastD_cons]

/-- A value that was computed is given. -/
@[simp] lemma Value.given_ok (v : Value) : Value.given (.ok v) = v := rfl

namespace Script

variable {α β : Type} {settings : Settings}

/-! ### Good courses -/

/-- A request comes to a good end with the events of its powers. -/
lemma course_go_eq_ok {left right : Value} {u : Unit} {events : List Event}
    (h : (Script.go left right).course settings = (.ok u, events)) :
    events = goEvents left right := by
  cases hrequest : Frame.request left right with
  | error fault =>
    rw [course_go_of_error hrequest] at h
    simp at h
  | ok frame =>
    rw [course_go_of_ok hrequest] at h
    rw [goEvents, ← Frame.fitting?_of_request hrequest]
    exact (Prod.mk.inj h).2.symm

/-- A wait comes to a good end when it is held. -/
lemma course_pause_eq_ok {time : Value} {u : Unit} {events : List Event}
    (h : (Script.pause time).course settings = (.ok u, events)) : events = [.wait time] := by
  obtain ⟨fault, hc⟩ | ⟨length, fault, hc, hlate⟩ | ⟨length, seconds, hc, hlength⟩ :=
    wait_cases time
  · rw [course_pause_of_refused hc] at h
    simp at h
  · rw [course_pause_of_late hc hlate] at h
    simp at h
  · rw [course_pause_of_ok hc hlength] at h
    exact (Prod.mk.inj h).2.symm

/-- What is computed on the way comes to a good end when the computation does. -/
lemma course_ofExcept_bind_eq_ok {result : Except Fault α} {next : α → Script β} {b : β}
    {events : List Event} :
    (Script.ofExcept result >>= next).course settings = (.ok b, events) ↔
      ∃ a, result = .ok a ∧ (next a).course settings = (.ok b, events) := by
  cases result <;> simp

/-- A turn of the wheels at multiples of a power. -/
lemma course_goTimes_eq_ok {power : Value} {left right : Int} {u : Unit} {events : List Event}
    (h : (Script.goTimes power left right).course settings = (.ok u, events)) :
    events = goEvents (Value.given (power.scale left)) (Value.given (power.scale right)) := by
  rw [Script.goTimes, course_ofExcept_bind_eq_ok] at h
  obtain ⟨l, hl, h⟩ := h
  rw [course_ofExcept_bind_eq_ok] at h
  obtain ⟨r, hr, h⟩ := h
  rw [hl, hr]
  exact course_go_eq_ok h

/-- A quarter turn that comes to a good end has the events of its arcs. -/
lemma course_quarter_eq_ok {arc : Arc} {u : Unit} {events : List Event}
    (h : (Script.quarter arc).course settings = (.ok u, events)) :
    events = quarterEvents arc.power arc.time arc.near arc.far := by
  rw [Script.quarter, course_bind_eq_ok] at h
  obtain ⟨_, out, _, hout, h, rfl⟩ := h
  rw [course_bind_eq_ok] at h
  obtain ⟨_, first, _, hfirst, h, rfl⟩ := h
  rw [course_bind_eq_ok] at h
  obtain ⟨_, back, second, hback, hsecond, rfl⟩ := h
  rw [course_goTimes_eq_ok hout, course_pause_eq_ok hfirst, course_goTimes_eq_ok hback,
    course_pause_eq_ok hsecond]
  simp [quarterEvents]

/-- Quarter turns that come to a good end have the events of one, repeated. -/
lemma course_quarters_eq_ok {arc : Arc} {n : Nat} {u : Unit} {events : List Event}
    (h : (Script.quarters arc n).course settings = (.ok u, events)) :
    events =
      (List.replicate n (quarterEvents arc.power arc.time arc.near arc.far)).flatten := by
  induction n generalizing events with
  | zero => exact (Prod.mk.inj h).2.symm
  | succ n ih =>
    rw [Script.quarters, course_bind_eq_ok] at h
    obtain ⟨_, first, rest, hfirst, hrest, rfl⟩ := h
    rw [course_quarter_eq_ok hfirst, ih hrest, List.replicate_succ, List.flatten_cons]

/-- What follows a computation that succeeds goes on with its result. -/
lemma ofExcept_ok_bind {α β : Type} (a : α) (next : α → Script β) :
    ofExcept (.ok a) >>= next = next a := rfl

/-- The script of a turn by the side and the number of quarters that are planned for it. -/
lemma turnBy_eq {turn : Number} {clockwise : Bool} {angle : Number} {count : Int}
    (hside : nearerSide turn = .ok (clockwise, angle)) (hcount : quarterTurns angle = .ok count) :
    turnPlan turn = (clockwise, count.toNat) ∧
      turnBy turn = ofExcept angle.toDouble >>= fun shown =>
        say (.turn clockwise shown count) >>= fun _ => Script.settings >>= fun settings =>
          quarters ⟨settings.turnPower, settings.turnPhaseTime, (wheelFactors clockwise).1,
            (wheelFactors clockwise).2⟩ count.toNat >>= fun _ => halt := by
  constructor
  · simp only [turnPlan, hside, hcount]
  · rw [turnBy, hside, ofExcept_ok_bind]
    dsimp only
    rw [hcount, ofExcept_ok_bind]
    cases clockwise <;> rfl

/-- A turn that comes to a good end has the events of a turn. -/
lemma course_turnBy_eq_ok {turn : Number} {u : Unit} {events : List Event}
    (h : (Script.turnBy turn).course settings = (.ok u, events)) :
    events = turnEvents settings turn := by
  rw [Script.turnBy, course_ofExcept_bind_eq_ok] at h
  obtain ⟨⟨clockwise, angle⟩, hside, h⟩ := h
  rw [course_ofExcept_bind_eq_ok] at h
  obtain ⟨count, hcount, h⟩ := h
  rw [course_ofExcept_bind_eq_ok] at h
  obtain ⟨shown, -, h⟩ := h
  rw [course_say_bind, course_settings_bind, course_bind_eq_ok] at h
  obtain ⟨_, turning, halting, hturning, hhalting, rfl⟩ := h
  rw [course_quarters_eq_ok hturning, turnEvents, turnPlan, hside]
  simp only [course_halt, Prod.mk.injEq] at hhalting
  rw [← hhalting.2]
  cases clockwise <;> simp [hcount, wheelFactors]

/-- A way forward that comes to a good end has the events of a way. -/
lemma course_goForward_eq_ok {distance : Number} {u : Unit} {events : List Event}
    (h : (Script.goForward distance).course settings = (.ok u, events)) :
    events = wayEvents settings distance := by
  rw [Script.goForward, course_settings_bind, course_ofExcept_bind_eq_ok] at h
  obtain ⟨time, htime, h⟩ := h
  rw [course_ofExcept_bind_eq_ok] at h
  obtain ⟨shown, -, h⟩ := h
  rw [course_say_bind, course_ofExcept_bind_eq_ok] at h
  obtain ⟨power, hpower, h⟩ := h
  rw [course_bind_eq_ok] at h
  obtain ⟨_, going, _, hgoing, h, rfl⟩ := h
  rw [course_bind_eq_ok] at h
  obtain ⟨_, waiting, halting, hwaiting, hhalting, rfl⟩ := h
  simp only [course_halt, Prod.mk.injEq] at hhalting
  rw [course_go_eq_ok hgoing, course_pause_eq_ok hwaiting, ← hhalting.2, wayEvents, htime, hpower]
  rfl

/-- A command that is performed goes through the displacement that it stands for, and ends in the
pose to which this one leads. -/
lemma course_perform_eq_ok {command : Command} {pose next : Pose Number}
    {displacement : Displacement Number} {events : List Event}
    (h : (Script.perform command pose).course settings = (.ok (displacement, next), events)) :
    command.displacement pose = .ok displacement ∧
      pose.advance displacement.vector displacement.heading = (next, none) ∧
      events = turnEvents settings displacement.turn ++
        wayEvents settings displacement.distance := by
  rw [Script.perform, course_ofExcept_bind_eq_ok] at h
  obtain ⟨found, hfound, h⟩ := h
  rw [course_ofExcept_bind_eq_ok] at h
  obtain ⟨turn, -, h⟩ := h
  rw [course_ofExcept_bind_eq_ok] at h
  obtain ⟨distance, -, h⟩ := h
  rw [course_say_bind, course_bind_eq_ok] at h
  obtain ⟨_, turning, _, hturning, h, rfl⟩ := h
  rw [course_bind_eq_ok] at h
  obtain ⟨_, going, _, hgoing, h, rfl⟩ := h
  rw [course_turnBy_eq_ok hturning, course_goForward_eq_ok hgoing]
  cases hadvance : pose.advance found.vector found.heading with
  | mk arrival fault =>
    simp only [hadvance] at h
    cases fault with
    | some fault => simp at h
    | none =>
      simp only [course_pure, Prod.mk.injEq, Except.ok.injEq] at h
      obtain ⟨⟨rfl, rfl⟩, rfl⟩ := h
      exact ⟨hfound, hadvance, by simp⟩

/-! ### Legs -/

/-- The script of one command with the delay after it; gives the pose in which it ends. -/
def leg (command : Command) (pose : Pose Number) : Script (Pose Number) := do
  let (_, next) ← perform command pose
  pause (← Script.settings).settleDelay
  return next

/-- A leg that comes to a good end is a step of the plan, and its events are those of the step. -/
lemma course_leg {settings : Settings} {command : Command} {pose next : Pose Number}
    {events : List Event} (h : (leg command pose).course settings = (.ok next, events)) :
    ∃ displacement, command.displacement pose = .ok displacement ∧
      pose.advance displacement.vector displacement.heading = (next, none) ∧
      events = PlanStep.events settings ⟨command, displacement, next⟩ := by
  rw [leg, course_bind_eq_ok] at h
  obtain ⟨⟨displacement, arrival⟩, performing, _, hperforming, h, rfl⟩ := h
  rw [course_settings_bind, course_bind_eq_ok] at h
  obtain ⟨_, waiting, _, hwaiting, h, rfl⟩ := h
  simp only [course_pure, Prod.mk.injEq, Except.ok.injEq] at h
  obtain ⟨rfl, rfl⟩ := h
  obtain ⟨hdisplacement, hadvance, rfl⟩ := course_perform_eq_ok hperforming
  rw [course_pause_eq_ok hwaiting]
  exact ⟨displacement, hdisplacement, hadvance, by simp [PlanStep.events]⟩

/-! ### Drawings, leg by leg -/

/-- Scripts one after another, grouped either way. -/
lemma bind_assoc {γ : Type} (script : Script α) (f : α → Script β) (g : β → Script γ) :
    script >>= f >>= g = script >>= fun a => f a >>= g := by
  change (script.bind f).bind g = script.bind fun a => (f a).bind g
  induction script with
  | finish a => rfl
  | fail fault => rfl
  | note n script ih => exact congrArg _ ih
  | consult script ih => exact congrArg _ (funext ih)
  | poll script ih => exact congrArg _ (funext ih)
  | drive left right script ih => exact congrArg _ ih
  | wait time script ih => exact congrArg _ ih

/-- A drawing whose flag is down does the leg of its first command and then draws the rest. -/
lemma drawFrom_cons (index total : Nat) (pose : Pose Number) (command : Command)
    (rest : List Command) :
    drawFrom index total pose (command :: rest) =
      aborted >>= fun up =>
        if up then say (.stoppedAt pose) >>= fun _ => pure .cancelled
        else say (.began index total command) >>= fun _ =>
          leg command pose >>= fun next => drawFrom (index + 1) total next rest := by
  rw [drawFrom]
  congr 1
  funext up
  simp only [leg, bind_assoc]
  rfl

section Drawing

variable {stops : Nat → Bool} {p : Progress} {index total : Nat} {pose : Pose Number}

/-- Once the flag is up a drawing is cancelled before its next command. -/
lemma rehearse_drawFrom_of_aborted (commands : List Command) (hp : p.aborted = true) :
    (drawFrom index total pose commands).rehearse settings stops p = (.ok .cancelled, p, []) := by
  cases commands with
  | nil => simp [drawFrom, aborted, say, bind, Script.bind, pure, rehearse, hp]
  | cons command rest =>
    rw [drawFrom_cons]
    simp [aborted, say, bind, Script.bind, pure, rehearse, hp]

/-- A drawing without commands is completed when the flag is down. -/
lemma rehearse_drawFrom_nil (hp : p.aborted = false) :
    (drawFrom index total pose []).rehearse settings stops p = (.ok .completed, p, []) := by
  simp [drawFrom, aborted, say, bind, Script.bind, pure, rehearse, hp]

/-- While the flag is down, a drawing goes on with its first command and then with the rest. -/
lemma rehearse_drawFrom_cons (command : Command) (rest : List Command) (hp : p.aborted = false) :
    (drawFrom index total pose (command :: rest)).rehearse settings stops p =
      (leg command pose >>= fun next => drawFrom (index + 1) total next rest).rehearse
        settings stops p := by
  rw [drawFrom_cons]
  simp [aborted, say, bind, Script.bind, rehearse, hp]

/-- The number of commands in all is only told. -/
lemma rehearse_drawFrom_total (commands : List Command) (total' : Nat) :
    (drawFrom index total pose commands).rehearse settings stops p =
      (drawFrom index total' pose commands).rehearse settings stops p := by
  induction commands generalizing index pose p with
  | nil => rfl
  | cons command commands ih =>
    cases hp : p.aborted with
    | true => rw [rehearse_drawFrom_of_aborted _ hp, rehearse_drawFrom_of_aborted _ hp]
    | false =>
      rw [rehearse_drawFrom_cons _ _ hp, rehearse_drawFrom_cons _ _ hp, rehearse_bind,
        rehearse_bind]
      rcases (leg command pose).rehearse settings stops p with ⟨fault | next, q, events⟩
      · rfl
      · dsimp only
        rw [ih]

/-- An undisturbed drawing without commands is completed, with no events. -/
lemma course_drawFrom_nil : (drawFrom index total pose []).course settings = (.ok .completed, []) :=
  rfl

/-- A drawing that nothing disturbs and nothing fails: the leg of its first command, which is a step
of the plan, and then the rest. -/
lemma course_drawFrom_cons_eq_ok {command : Command} {rest : List Command} {outcome : Outcome}
    {events : List Event}
    (h : (drawFrom index total pose (command :: rest)).course settings = (.ok outcome, events)) :
    ∃ next first second, (leg command pose).course settings = (.ok next, first) ∧
      (drawFrom (index + 1) total next rest).course settings = (.ok outcome, second) ∧
      events = first ++ second ∧
      legsOf settings (Plan.walk pose (command :: rest)) =
        first :: legsOf settings (Plan.walk next rest) := by
  rw [course, rehearse_drawFrom_cons command rest rfl] at h
  obtain ⟨next, first, second, hleg, hrest, rfl⟩ := course_bind_eq_ok.mp h
  obtain ⟨displacement, hdisplacement, hadvance, rfl⟩ := course_leg hleg
  refine ⟨next, _, second, hleg, hrest, rfl, ?_⟩
  rw [Plan.walk_cons_of_ok hdisplacement hadvance]
  rfl

/-- The events of a drawing that nothing disturbs and nothing fails are its legs. -/
lemma events_course_drawFrom (settings : Settings) (index total : Nat) (pose : Pose Number)
    (commands : List Command) {outcome : Outcome} {events : List Event}
    (h : (drawFrom index total pose commands).course settings = (.ok outcome, events)) :
    events = (legsOf settings (Plan.walk pose commands)).flatten := by
  induction commands generalizing index pose events with
  | nil =>
    rw [course_drawFrom_nil] at h
    exact (Prod.mk.inj h).2.symm
  | cons command rest ih =>
    obtain ⟨next, first, second, -, hrest, rfl, hlegs⟩ := course_drawFrom_cons_eq_ok h
    rw [hlegs, List.flatten_cons, ih _ _ hrest]

end Drawing

end Script

end PenRover
