import PenRover.Drawing.Preview
import PenRover.Proofs.Geometry.Headings
import PenRover.Proofs.Motion.Moderate

/-!
# Drawings follow their plans

The plan of a drawing and its script are two walks over the commands: the plan only computes poses,
and the script drives and waits in between.  `play_draw_of_plan` says that they go together.  With
moderate settings a drawing whose plan does not fail is completed, its events are the itinerary of
the plan, and after each command the script goes on from the pose that the plan has there.

What can fail in a script besides the plan is arithmetic: on the turn, on the powers and on the
times.  On the powers and the times it does not because they are moderate.  On the turn it does not
because headings and turns stay in range, which is the invariant of the walk.
-/

namespace PenRover

open Arithmetic

/-- The powers and the delays of the settings are moderate numbers. -/
structure Settings.Moderate (settings : Settings) : Prop where
  turnPower : ∃ n, settings.turnPower = .number n ∧ n.Moderate
  turnPhaseTime : ∃ n, settings.turnPhaseTime = .number n ∧ n.Moderate
  forwardPower : ∃ n, settings.forwardPower = .number n ∧ n.Moderate
  forwardTimePerUnit : ∃ n, settings.forwardTimePerUnit = .number n ∧ n.Moderate
  settleDelay : ∃ n, settings.settleDelay = .number n ∧ n.Moderate

/-- Everything that the itinerary of a step is made of can be computed: the side and the number of
its quarter turns, the powers of its arcs and of its way, and the time of its way. -/
structure PlanStep.Computed (settings : Settings) (step : PlanStep Number) : Prop where
  quarters : ∃ angle count,
    nearerSide step.displacement.turn =
      .ok (Number.lt halfTurn step.displacement.turn, angle) ∧
    quarterTurns angle = .ok count ∧
    turnPlan step.displacement.turn =
      (Number.lt halfTurn step.displacement.turn, count.toNat)
  arc : ∀ factor : Int, |factor| ≤ 2 → ∃ n, settings.turnPower.scale factor = .ok (.number n)
  way : ∃ n, settings.forwardPower.negate = .ok (.number n)
  time : ∃ x, settings.forwardTimePerUnit.times step.displacement.distance =
    .ok (.number (.double x))

/-- A moderate number times a double is a double. -/
lemma times_double_of_moderate {n : Number} (hn : n.Moderate) (y : Float) :
    ∃ x, (Value.number n).times (.double y) = .ok (.number (.double x)) := by
  cases n with
  | double x => exact ⟨_, rfl⟩
  | int k =>
    obtain ⟨x, hx⟩ := hn.tame.toDouble
    have htimes : (Value.number (.int k)).times (.double y) =
        ((Number.int k).toDouble >>= fun x => .ok (.double (x * y))) >>= fun m =>
          .ok (.number m) := rfl
    refine ⟨x * y, ?_⟩
    rw [htimes, hx]
    rfl

/-- The negative of a moderate number is moderate. -/
lemma Number.Moderate.neg {n : Number} (h : n.Moderate) : n.neg.Moderate := by
  cases n with
  | double x => trivial
  | int k =>
    change |-k| < 10 ^ 300
    rwa [abs_neg]

/-- With moderate settings a turn in range and a distance can be gone. -/
lemma PlanStep.computed_of_isTurn {settings : Settings} (hsettings : settings.Moderate)
    {step : PlanStep Number} (hturn : IsTurn step.displacement.turn) {y : Float}
    (hdistance : step.displacement.distance = .double y) : step.Computed settings := by
  obtain ⟨angle, count, hside, hcount⟩ := quarterTurns_of_isTurn hturn
  obtain ⟨power, hpower, hmoderate⟩ := hsettings.turnPower
  obtain ⟨way, hway, -⟩ := hsettings.forwardPower
  obtain ⟨time, htime, htimely⟩ := hsettings.forwardTimePerUnit
  refine ⟨⟨_, count, hside, hcount, ?_⟩, fun factor hfactor => ?_, ⟨way.neg, ?_⟩, ?_⟩
  · simp only [turnPlan, hside, hcount]
  · have hnumber : settings.turnPower.number? = some power := by rw [hpower]; rfl
    obtain ⟨m, hm, -⟩ := Script.scale_of_moderate hnumber hmoderate hfactor
    exact ⟨m, hm⟩
  · rw [hway]
    rfl
  · rw [hdistance, htime]
    exact times_double_of_moderate htimely y

/-- The path of a plan is where its poses stand. -/
lemma Plan.path_eq_map_poses (pose : Pose Number) (plan : Plan Number) :
    plan.path pose.position = (plan.poses pose).map Pose.position := by
  simp [Plan.path, Plan.poses]

/-- The preview of a drawing whose plan does not fail shows the places of the poses of the plan. -/
lemma Drawing.preview_of_walk {commands : List Command}
    (h : (Plan.walk (Pose.start : Pose Number) commands).failure = none) :
    ∃ chart, Drawing.preview commands = .ok chart ∧ chart.lines.head? = some
      ⟨((Plan.walk Pose.start commands).poses Pose.start).map Pose.position, "black"⟩ := by
  simp only [Drawing.preview, h]
  exact ⟨_, rfl, by rw [List.head?_cons, Plan.path_eq_map_poses]⟩

namespace Script

variable {α β : Type} {settings : Settings}

/-! ### Legs that succeed -/

/-- Two scripts succeed one after the other. -/
lemma Succeeds.bind {script : Script α} {next : α → Script β} (h : script.Succeeds settings)
    (hnext : ∀ a, (next a).Succeeds settings) : (script >>= next).Succeeds settings := by
  obtain ⟨a, first, hscript⟩ := h
  obtain ⟨b, second, hrest⟩ := hnext a
  exact ⟨b, first ++ second, course_bind_eq_ok.mpr ⟨a, first, second, hscript, hrest, rfl⟩⟩

/-- The wheels are driven at no more than twice the power. -/
lemma abs_wheelFactors_le (clockwise : Bool) :
    |(wheelFactors clockwise).1| ≤ 2 ∧ |(wheelFactors clockwise).2| ≤ 2 := by
  cases clockwise <;> decide

/-- Quarter turns succeed with a moderate power and a wait that is held. -/
lemma succeeds_quarters_of_held {arc : Arc} {power : Number}
    (hpower : arc.power.number? = some power)
    (hmoderate : power.Moderate) (hpause : (pause arc.time).Succeeds settings)
    (hnear : |arc.near| ≤ 2) (hfar : |arc.far| ≤ 2) (n : Nat) :
    (quarters arc n).Succeeds settings := by
  induction n with
  | zero => exact ⟨(), [], rfl⟩
  | succ n ih =>
    have hback := succeeds_goTimes_of_moderate settings hpower hmoderate hfar hnear
    rw [← abs_neg] at hnear hfar
    have hout := succeeds_goTimes_of_moderate settings hpower hmoderate hnear hfar
    refine Succeeds.bind ?_ fun _ => ih
    exact hout.bind fun _ => hpause.bind fun _ => hback.bind fun _ => hpause

/-- Under moderate settings quarter turns come to a good end. -/
lemma succeeds_quarters (hsettings : settings.Moderate) (clockwise : Bool) (n : Nat) :
    (quarters ⟨settings.turnPower, settings.turnPhaseTime, (wheelFactors clockwise).1,
      (wheelFactors clockwise).2⟩ n).Succeeds settings := by
  obtain ⟨power, hpower, hmoderate⟩ := hsettings.turnPower
  obtain ⟨time, htime, htimely⟩ := hsettings.turnPhaseTime
  have hpause : (pause settings.turnPhaseTime).Succeeds settings :=
    succeeds_pause_of_tame settings (by rw [htime]; rfl) htimely.tame
  obtain ⟨hnear, hfar⟩ := abs_wheelFactors_le clockwise
  exact succeeds_quarters_of_held (by rw [hpower]; rfl) hmoderate hpause hnear hfar n

/-- A turn in range can be driven. -/
lemma succeeds_turnBy (hsettings : settings.Moderate) {turn : Number} (h : IsTurn turn) :
    (turnBy turn).Succeeds settings := by
  obtain ⟨angle, count, hside, hcount⟩ := quarterTurns_of_isTurn h
  have hshown : (Number.double angle).toDouble = .ok angle := rfl
  obtain ⟨_, turning, hturning⟩ :=
    succeeds_quarters hsettings (Number.lt halfTurn turn) count.toNat
  have hscript := (turnBy_eq hside hcount).2
  refine ⟨(), turning ++ [.frame .stop], ?_⟩
  rw [hscript, hshown, course_ofExcept_bind_ok, course_say_bind, course_settings_bind,
    course_bind_of_ok hturning, course_halt]

/-- Under moderate settings a way forward comes to a good end. -/
lemma succeeds_goForward (hsettings : settings.Moderate) (y : Float) :
    (goForward (.double y)).Succeeds settings := by
  obtain ⟨power, hpower, hmoderate⟩ := hsettings.forwardPower
  obtain ⟨time, htime, htimely⟩ := hsettings.forwardTimePerUnit
  obtain ⟨x, hx⟩ := times_double_of_moderate htimely y
  have hnegate : settings.forwardPower.negate = .ok (.number power.neg) := by rw [hpower]; rfl
  have hshown : (Number.double y).toDouble = .ok y := rfl
  obtain ⟨_, driving, hgo⟩ :=
    succeeds_go_of_tame settings hmoderate.neg.tame hmoderate.neg.tame
  have hdouble : (Value.number (.double x)).number? = some (.double x) := rfl
  obtain ⟨_, waiting, hpause⟩ := succeeds_pause_of_tame settings hdouble trivial
  refine ⟨(), driving ++ (waiting ++ [.frame .stop]), ?_⟩
  rw [goForward, course_settings_bind, htime, hx, course_ofExcept_bind_ok, hshown,
    course_ofExcept_bind_ok, course_say_bind, hnegate, course_ofExcept_bind_ok,
    course_bind_of_ok hgo, course_bind_of_ok hpause, course_halt]

/-- From a heading in range a command whose displacement can be computed is performed, and the delay
after it is held. -/
lemma course_leg_of_advance (hsettings : settings.Moderate) {command : Command}
    {pose next : Pose Number} {displacement : Displacement Number} (hpose : pose.HeadingInRange)
    (hdisplacement : command.displacement pose = .ok displacement)
    (hadvance : pose.advance displacement.vector displacement.heading = (next, none)) :
    (leg command pose).course settings =
      (.ok next, PlanStep.events settings ⟨command, displacement, next⟩) := by
  obtain ⟨⟨x, hx⟩, y, hy⟩ := displacement_doubles hdisplacement
  obtain ⟨hturn, -⟩ := isTurn_displacement hpose hdisplacement hadvance
  have hshown : displacement.turn.toDouble = .ok x := by rw [hx]; rfl
  have hlong : displacement.distance.toDouble = .ok y := by rw [hy]; rfl
  obtain ⟨_, turning, hturning⟩ := succeeds_turnBy hsettings hturn
  obtain ⟨_, going, hgoing⟩ := succeeds_goForward hsettings y
  rw [← hy] at hgoing
  obtain ⟨delay, hdelay, hmoderate⟩ := hsettings.settleDelay
  have hnumber : settings.settleDelay.number? = some delay := by rw [hdelay]; rfl
  obtain ⟨_, waiting, hwaiting⟩ := succeeds_pause_of_tame settings hnumber hmoderate.tame
  have hperform : (perform command pose).course settings =
      (.ok (displacement, next), turning ++ (going ++ [])) := by
    rw [perform, hdisplacement, course_ofExcept_bind_ok, hshown, course_ofExcept_bind_ok, hlong,
      course_ofExcept_bind_ok, course_say_bind, course_bind_of_ok hturning,
      course_bind_of_ok hgoing]
    simp only [hadvance, course_pure]
  have hleg : (leg command pose).course settings =
      (.ok next, turning ++ (going ++ []) ++ (waiting ++ [])) := by
    rw [leg, course_bind_of_ok hperform, course_settings_bind, course_bind_of_ok hwaiting,
      course_pure]
  rw [hleg, course_turnBy_eq_ok hturning, course_goForward_eq_ok hgoing,
    course_pause_eq_ok hwaiting]
  simp [PlanStep.events]

/-! ### Plans that do not fail -/

/-- A plan that does not fail has a step for its first command. -/
lemma exists_advance_of_walk {pose : Pose Number} {command : Command} {rest : List Command}
    (h : (Plan.walk pose (command :: rest)).failure = none) :
    ∃ displacement next, command.displacement pose = .ok displacement ∧
      pose.advance displacement.vector displacement.heading = (next, none) ∧
      (Plan.walk next rest).failure = none := by
  cases hdisplacement : command.displacement pose with
  | error fault => simp [Plan.walk, hdisplacement] at h
  | ok displacement =>
    cases hadvance : pose.advance displacement.vector displacement.heading with
    | mk next failure =>
      cases failure with
      | some fault => simp [Plan.walk, hdisplacement, hadvance] at h
      | none =>
        rw [Plan.walk_cons_of_ok hdisplacement hadvance] at h
        exact ⟨displacement, next, rfl, hadvance, h⟩

/-- A plan that does not fail has a pose for each number of commands. -/
lemma length_poses_walk {pose : Pose Number} {commands : List Command}
    (h : (Plan.walk pose commands).failure = none) :
    ((Plan.walk pose commands).poses pose).length = commands.length + 1 := by
  induction commands generalizing pose with
  | nil => rfl
  | cons command rest ih =>
    obtain ⟨displacement, next, hdisplacement, hadvance, hrest⟩ := exists_advance_of_walk h
    rw [Plan.poses_walk_cons_of_ok hdisplacement hadvance, List.length_cons, ih hrest,
      List.length_cons]

/-- Under moderate settings everything about the steps of a plan that does not fail can be
computed. -/
lemma computed_of_mem_walk (hsettings : settings.Moderate) {pose : Pose Number}
    (hpose : pose.HeadingInRange) {commands : List Command}
    (h : (Plan.walk pose commands).failure = none) :
    ∀ step ∈ (Plan.walk pose commands).steps, step.Computed settings := by
  induction commands generalizing pose with
  | nil => simp [Plan.walk]
  | cons command rest ih =>
    obtain ⟨displacement, next, hdisplacement, hadvance, hrest⟩ := exists_advance_of_walk h
    obtain ⟨hturn, hnext⟩ := isTurn_displacement hpose hdisplacement hadvance
    obtain ⟨-, y, hy⟩ := displacement_doubles hdisplacement
    rw [Plan.walk_cons_of_ok hdisplacement hadvance]
    intro step hstep
    obtain rfl | hlater := List.mem_cons.mp hstep
    · exact PlanStep.computed_of_isTurn hsettings hturn hy
    · exact ih hnext hrest step hlater

/-! ### Playing a drawing command by command -/

/-- One script after another is played one after the other. -/
lemma play_bind {σ : Type} (stage : Stage σ) (script : Script α) (next : α → Script β) :
    (script >>= next).play stage = script.play stage >>= fun a => (next a).play stage := by
  change (script.bind next).play stage = _
  induction script with
  | finish a => rfl
  | fail fault => rfl
  | note n script ih => rw [Script.bind, play, ih, play, Act.bind_assoc]
  | consult script ih => exact funext fun s => congrFun (ih (stage.settings s)) s
  | poll script ih => exact funext fun s => congrFun (ih (stage.aborted s)) s
  | drive left right script ih => rw [Script.bind, play, ih, play, Act.bind_assoc]
  | wait time script ih => rw [Script.bind, play, ih, play, Act.bind_assoc]

/-- A rehearsal finds the flag of its session. -/
lemma play_aborted (stops : Nat → Bool) (s : Session) :
    aborted.play (Session.rehearsal stops) s = (.ok s.aborted, s, []) := rfl

/-- A rehearsal writes down what a script says. -/
lemma play_say (stops : Nat → Bool) (n : Note) :
    (say n).play (Session.rehearsal stops) = Act.write [.note n] := rfl

/-- A drawing with no command left is completed. -/
lemma play_drawFrom_nil (stops : Nat → Bool) (index total : Nat) (pose : Pose Number) {s : Session}
    (h : s.aborted = false) :
    (drawFrom index total pose []).play (Session.rehearsal stops) s =
      (.ok .completed, s, [.note (.completedAt pose)]) := by
  rw [drawFrom, play_bind, Act.bind_ok (play_aborted stops s), h, if_neg Bool.false_ne_true]
  rfl

/-- A drawing does the leg of its first command and then draws the rest. -/
lemma play_drawFrom_cons (stops : Nat → Bool) (index total : Nat) (pose : Pose Number)
    (command : Command) (rest : List Command) {s : Session} (h : s.aborted = false) :
    (drawFrom index total pose (command :: rest)).play (Session.rehearsal stops) s =
      (Act.write [.note (.began index total command)] >>= fun _ =>
        (leg command pose).play (Session.rehearsal stops) >>= fun next =>
          (drawFrom (index + 1) total next rest).play (Session.rehearsal stops)) s := by
  rw [drawFrom_cons, play_bind, Act.bind_ok (play_aborted stops s), h, if_neg Bool.false_ne_true,
    play_bind, play_say]
  simp only [play_bind, List.nil_append]

/-- A drawing whose plan does not fail comes to each pose of its plan, and then draws the rest. -/
lemma play_drawFrom_of_walk (hsettings : settings.Moderate) (index total : Nat) (pose : Pose Number)
    (commands : List Command) (hpose : pose.HeadingInRange)
    (hplan : (Plan.walk pose commands).failure = none) (s : Session) (p : Progress)
    (hs : s.Rehearses settings p) (hp : p.aborted = false) (k : Nat) (arrival : Pose Number)
    (hk : ((Plan.walk pose commands).poses pose)[k]? = some arrival) :
    ∃ t q before, t.Rehearses settings q ∧ q.aborted = false ∧
      Journal.events before = ((legsOf settings (Plan.walk pose commands)).take k).flatten ∧
      (drawFrom index total pose commands).play (Session.rehearsal quiet) s =
        ((.write before >>= fun _ =>
          (drawFrom (index + k) total arrival (commands.drop k)).play (Session.rehearsal quiet)) :
            Act Session Outcome) t := by
  induction commands generalizing index pose s p k with
  | nil =>
    cases k with
    | zero =>
      obtain rfl : pose = arrival := Option.some.inj hk
      exact ⟨s, p, [], hs, hp, rfl, rfl⟩
    | succ k => simp [Plan.walk, Plan.poses] at hk
  | cons command rest ih =>
    cases k with
    | zero =>
      obtain rfl : pose = arrival := Option.some.inj hk
      exact ⟨s, p, [], hs, hp, rfl, rfl⟩
    | succ k =>
      obtain ⟨displacement, next, hdisplacement, hadvance, hrest⟩ := exists_advance_of_walk hplan
      have hnext := (isTurn_displacement hpose hdisplacement hadvance).2
      have hcourse := course_leg_of_advance hsettings hpose hdisplacement hadvance
      obtain ⟨u, journal, hleg, hu, hevents⟩ := play_quiet (leg command pose) s settings p hs hp
      rw [hcourse] at hleg hu hevents
      rw [Plan.poses_walk_cons_of_ok hdisplacement hadvance, List.getElem?_cons_succ] at hk
      obtain ⟨t, q, before, ht, hq, hbefore, hplay⟩ :=
        ih (index + 1) next hnext hrest u _ hu rfl k hk
      refine ⟨t, q, .note (.began index total command) :: (journal ++ before), ht, hq, ?_, ?_⟩
      · rw [Plan.walk_cons_of_ok hdisplacement hadvance]
        simp [legsOf, hevents, hbefore]
      · have hdown : s.aborted = false := (congrArg Progress.aborted hs.progress_eq).trans hp
        rw [play_drawFrom_cons quiet index total pose command rest hdown, Act.write_bind,
          Act.bind_ok hleg, hplay, Act.write_bind, Act.write_bind, List.drop_succ_cons,
          Nat.add_assoc, Nat.add_comm 1 k]
        simp

end Script

open Script in
/-- A drawing whose plan does not fail, on a session with moderate settings that nobody stops, is
completed.  Its events are those of the steps of the plan, one leg after another, and each of them
can be computed.  After any number of commands it stands where the plan has it: it goes on from the
pose that the plan goes through there, and this is where the preview plots its point. -/
theorem Session.play_draw_of_plan (commands : List Command) (s : Session) (hlink : s.IsRehearsal)
    (hdown : s.aborted = false) (hsettings : s.settings.Moderate)
    (hplan : (Plan.walk (Pose.start : Pose Number) commands).failure = none) :
    ∃ t journal chart path,
      (draw commands).play (Session.rehearsal fun _ => false) s = (.ok .completed, t, journal) ∧
      journal.events = (legsOf s.settings (Plan.walk Pose.start commands)).flatten ∧
      (∀ step ∈ (Plan.walk (Pose.start : Pose Number) commands).steps,
        step.Computed s.settings) ∧
      Drawing.preview commands = .ok chart ∧ chart.lines.head? = some ⟨path, "black"⟩ ∧
      path.length = commands.length + 1 ∧
      ∀ k ≤ commands.length, ∃ pose t' before,
        ((Plan.walk Pose.start commands).poses Pose.start)[k]? = some pose ∧
        path[k]? = some pose.position ∧
        Journal.events before =
          ((legsOf s.settings (Plan.walk Pose.start commands)).take k).flatten ∧
        (draw commands).play (Session.rehearsal fun _ => false) s =
          ((Act.write before >>= fun _ =>
            (drawFrom (1 + k) commands.length pose (commands.drop k)).play
              (Session.rehearsal fun _ => false) : Act Session Outcome) t') := by
  have hs : s.Rehearses s.settings ⟨s.clock.begun, false⟩ := ⟨hlink, rfl, by rw [← hdown]; rfl⟩
  have hlength := length_poses_walk hplan
  have hreach : ∀ k ≤ commands.length, ∃ pose t q before,
      ((Plan.walk Pose.start commands).poses Pose.start)[k]? = some pose ∧
      t.Rehearses s.settings q ∧ q.aborted = false ∧
      Journal.events before =
        ((legsOf s.settings (Plan.walk Pose.start commands)).take k).flatten ∧
      (draw commands).play (Session.rehearsal quiet) s =
        ((Act.write before >>= fun _ =>
          (drawFrom (1 + k) commands.length pose (commands.drop k)).play
            (Session.rehearsal quiet) : Act Session Outcome) t) := by
    intro k hk
    have hlt : k < ((Plan.walk Pose.start commands).poses Pose.start).length := by omega
    have hpose := List.getElem?_eq_getElem hlt
    obtain ⟨t, q, before, ht, hq, hbefore, hplay⟩ :=
      play_drawFrom_of_walk hsettings 1 commands.length Pose.start commands headingInRange_start
        hplan s _ hs rfl k _ hpose
    exact ⟨_, t, q, before, hpose, ht, hq, hbefore, hplay⟩
  -- behind the last command only the end of the drawing is left
  obtain ⟨pose, t, q, before, -, ht, hq, hbefore, hplay⟩ := hreach commands.length le_rfl
  have hend := play_drawFrom_nil quiet (1 + commands.length) commands.length pose
    ((congrArg Progress.aborted ht.progress_eq).trans hq)
  rw [List.drop_length, Act.write_bind, hend] at hplay
  obtain ⟨chart, hpreview, hline⟩ := Drawing.preview_of_walk hplan
  refine ⟨t, _, chart, _, hplay, ?_, computed_of_mem_walk hsettings headingInRange_start hplan,
    hpreview, hline, ?_, ?_⟩
  · have hall : (legsOf s.settings (Plan.walk Pose.start commands)).length ≤ commands.length := by
      simp only [Plan.poses, List.length_cons, List.length_map] at hlength
      rw [legsOf, List.length_map]
      omega
    rw [Journal.events_append, hbefore, List.take_of_length_le hall]
    simp
  · rw [List.length_map, hlength]
  · intro k hk
    obtain ⟨pose, t', q, before, hpose, -, -, hbefore, hplay⟩ := hreach k hk
    refine ⟨pose, t', before, hpose, ?_, hbefore, hplay⟩
    rw [List.getElem?_map, hpose]
    rfl

/-- The settings are moderate when nothing was changed. -/
lemma Settings.moderate_standard : Settings.standard.Moderate := by
  have hpower : (Number.int 15).Moderate :=
    lt_of_lt_of_le (show |(15 : Int)| < 10 ^ 2 by decide)
      (pow_le_pow_right₀ (by decide) (by decide))
  exact ⟨⟨_, rfl, hpower⟩, ⟨_, rfl, trivial⟩, ⟨_, rfl, hpower⟩,
    ⟨_, rfl, trivial⟩, ⟨_, rfl, trivial⟩⟩

open Script in
/-- Three lines, the second and the third after a turn to either side. -/
theorem Session.play_draw_of_plan_zigzag :
    let s : Session := ⟨.standard, .rehearsal [], false, ⟨[], []⟩, .start⟩
    let commands : List Command := [.lineAt 0 2, .lineBy 0 3, .lineTo 4 3]
    (s.IsRehearsal ∧ s.aborted = false ∧ s.settings.Moderate ∧
        (Plan.walk (Pose.start : Pose Number) commands).failure = none) ∧
      ∃ t journal,
        (draw commands).play (Session.rehearsal fun _ => false) s = (.ok .completed, t, journal) ∧
        journal.events = (legsOf s.settings (Plan.walk Pose.start commands)).flatten := by
  intro s commands
  have hlink : s.IsRehearsal := ⟨[], rfl⟩
  have hplan : (Plan.walk (Pose.start : Pose Number) commands).failure = none := by
    rw [← Option.isNone_iff_eq_none]
    decide +kernel
  obtain ⟨t, journal, -, -, hrun, hevents, -⟩ :=
    Session.play_draw_of_plan commands s hlink rfl Settings.moderate_standard hplan
  exact ⟨⟨hlink, rfl, Settings.moderate_standard, hplan⟩, t, journal, hrun, hevents⟩

end PenRover
