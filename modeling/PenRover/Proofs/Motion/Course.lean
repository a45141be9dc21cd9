import PenRover.Proofs.Motion.Rehearsal

/-!
# The course of a script

The course of a script is what it comes to when nothing disturbs it: its end, and its events.  It is
read off the quiet rehearsal from the very beginning, and `rehearse_quiet` says that a quiet
rehearsal goes the same way wherever it begins, as long as the flag is down.

Courses compose: the course of two scripts one after the other is the two courses one after the
other (`course_bind`).  A course comes to a good end when both parts do, and then its events are
those of the parts (`course_bind_eq_ok`).  The later modules take the movements of the robot apart
in this way and do not open a rehearsal again.
-/

namespace PenRover

namespace Script

variable {α β : Type}

/-- The end and the events of a script when nothing disturbs it. -/
def course (settings : Settings) (script : Script α) : Except Fault α × List Event :=
  let rehearsed := script.rehearse settings quiet ⟨0, false⟩
  (rehearsed.1, rehearsed.2.2)

/-- Two quiet rehearsals of one script with the flag down go the same way. -/
lemma rehearse_quiet_congr (settings : Settings) (script : Script α) (p q : Progress)
    (hp : p.aborted = false) (hq : q.aborted = false) :
    (script.rehearse settings quiet p).1 = (script.rehearse settings quiet q).1 ∧
      (script.rehearse settings quiet p).2.2 = (script.rehearse settings quiet q).2.2 ∧
      (script.rehearse settings quiet p).2.1 =
        ⟨p.begun + waitsOf (script.rehearse settings quiet p).2.2, false⟩ := by
  induction script generalizing p q with
  | finish a => exact ⟨rfl, rfl, by cases p; simp_all [rehearse]⟩
  | fail fault => exact ⟨rfl, rfl, by cases p; simp_all [rehearse]⟩
  | note n script ih => exact ih p q hp hq
  | consult script ih => exact ih settings p q hp hq
  | poll script ih =>
    have hpq : p.aborted = q.aborted := hp.trans hq.symm
    simp only [rehearse, hpq]
    exact ih q.aborted p q hp hq
  | drive left right script ih =>
    cases hrequest : Frame.request left right with
    | error fault =>
      rw [rehearse_drive_of_error hrequest, rehearse_drive_of_error hrequest]
      exact ⟨rfl, rfl, by cases p; simp_all⟩
    | ok frame =>
      rw [rehearse_drive_of_ok hrequest, rehearse_drive_of_ok hrequest]
      obtain ⟨hend, hevents, hprogress⟩ := ih p q hp hq
      refine ⟨hend, ?_, ?_⟩
      · simp [Rehearsed.after, Progress.sending, hp, hq, hevents]
      · simp only [Rehearsed.after, Progress.sending, hp]
        rw [hprogress]
        cases frame <;> simp
  | wait time script ih =>
    have hp' : (p.enter quiet).aborted = false := by simp [hp]
    have hq' : (q.enter quiet).aborted = false := by simp [hq]
    obtain ⟨fault, hc⟩ | ⟨length, fault, hc, hlate⟩ | ⟨length, seconds, hc, hlength⟩ :=
      wait_cases time
    · rw [rehearse_wait_of_refused hc, rehearse_wait_of_refused hc]
      exact ⟨rfl, rfl, by cases p; simp_all⟩
    · rw [rehearse_wait_of_late hc hlate, rehearse_wait_of_late hc hlate]
      refine ⟨rfl, by simp, ?_⟩
      simp [Progress.enter, hp]
    · rw [rehearse_wait_of_ok hc hlength, rehearse_wait_of_ok hc hlength]
      obtain ⟨hend, hevents, hprogress⟩ := ih _ _ hp' hq'
      refine ⟨hend, ?_, ?_⟩
      · simp [Rehearsed.after, hevents]
      · simp only [Rehearsed.after, Progress.entrance, hprogress]
        simp [quiet, Nat.add_assoc, Nat.add_comm 1]

/-- A quiet rehearsal follows the course. -/
lemma rehearse_quiet (settings : Settings) (script : Script α) (p : Progress)
    (hp : p.aborted = false) :
    script.rehearse settings quiet p =
      ((script.course settings).1, ⟨p.begun + waitsOf (script.course settings).2, false⟩,
        (script.course settings).2) := by
  obtain ⟨hend, hevents, hprogress⟩ := rehearse_quiet_congr settings script p ⟨0, false⟩ hp rfl
  rw [hevents] at hprogress
  exact Prod.ext hend (Prod.ext hprogress hevents)

/-! ### The courses of the parts -/

section Parts

variable {settings : Settings}

/-- A script that is at its end has no more events. -/
@[simp] lemma course_finish (a : α) : (Script.finish a).course settings = (.ok a, []) := rfl

/-- A script that only returns has no events. -/
@[simp] lemma course_pure (a : α) : (pure a : Script α).course settings = (.ok a, []) := rfl

/-- A script that fails at once has no events. -/
@[simp] lemma course_fail (fault : Fault) :
    (Script.fail fault : Script α).course settings = (.error fault, []) := rfl

/-- A note is no event. -/
@[simp] lemma course_say (n : Note) : (Script.say n).course settings = (.ok (), []) := rfl

/-- Looking at the settings is no event. -/
@[simp] lemma course_settings : Script.settings.course settings = (.ok settings, []) := rfl

/-- An undisturbed script finds the abort flag down. -/
@[simp] lemma course_aborted : Script.aborted.course settings = (.ok false, []) := rfl

/-- A computation has no events. -/
@[simp] lemma course_ofExcept (result : Except Fault α) :
    (Script.ofExcept result).course settings = (result, []) := by
  cases result <;> rfl

/-- A request that fails has no events. -/
lemma course_go_of_error {left right : Value} {fault : Fault}
    (h : Frame.request left right = .error fault) :
    (Script.go left right).course settings = (.error fault, []) := by
  simp only [course, Script.go, rehearse_drive_of_error h]

/-- A request that fits a frame sends it, and one that does not sends nothing. -/
lemma course_go_of_ok {left right : Value} {frame : Option Frame}
    (h : Frame.request left right = .ok frame) :
    (Script.go left right).course settings = (.ok (), (frame.map Event.frame).toList) := by
  simp [course, Script.go, rehearse_drive_of_ok h, Rehearsed.after, Progress.sending, rehearse]

/-- A halt sends the stop frame. -/
@[simp] lemma course_halt : Script.halt.course settings = (.ok (), [.frame .stop]) :=
  course_go_of_ok Frame.request_stop

/-- A wait of a length that is refused does not begin. -/
lemma course_pause_of_refused {time : Value} {fault : Fault}
    (h : Clock.checkTime time = .error fault) :
    (Script.pause time).course settings = (.error fault, []) := by
  simp only [course, Script.pause, rehearse_wait_of_refused h]

/-- A wait whose alarm cannot be set fails when it has begun. -/
lemma course_pause_of_late {time : Value} {length : Number} {fault : Fault}
    (h : Clock.checkTime time = .ok length) (hlate : Clock.seconds length = .error fault) :
    (Script.pause time).course settings = (.error fault, [.wait time]) := by
  simp [course, Script.pause, rehearse_wait_of_late h hlate]

/-- A wait of a proper length begins and ends. -/
lemma course_pause_of_ok {time : Value} {length : Number} {seconds : Float}
    (h : Clock.checkTime time = .ok length) (hlength : Clock.seconds length = .ok seconds) :
    (Script.pause time).course settings = (.ok (), [.wait time]) := by
  simp [course, Script.pause, rehearse_wait_of_ok h hlength, Rehearsed.after, Progress.entrance,
    quiet, rehearse]

end Parts

/-! ### One course after another -/

/-- The course of two scripts, one after the other. -/
lemma course_bind (settings : Settings) (script : Script α) (next : α → Script β) :
    (script >>= next).course settings =
      match script.course settings with
      | (.error fault, events) => (.error fault, events)
      | (.ok a, events) =>
        (((next a).course settings).1, events ++ ((next a).course settings).2) := by
  rw [course, rehearse_bind, rehearse_quiet settings script ⟨0, false⟩ rfl]
  rcases script.course settings with ⟨fault | a, events⟩
  · rfl
  · simp only [rehearse_quiet settings (next a) ⟨0 + waitsOf events, false⟩ rfl,
      Rehearsed.after]

/-- What follows a script that comes to a good end has its events afterwards. -/
lemma course_bind_of_ok {settings : Settings} {script : Script α} {next : α → Script β} {a : α}
    {events : List Event} (h : script.course settings = (.ok a, events)) :
    (script >>= next).course settings =
      (((next a).course settings).1, events ++ ((next a).course settings).2) := by
  simp only [course_bind, h]

/-- Nothing follows a script that fails. -/
lemma course_bind_of_error {settings : Settings} {script : Script α} {next : α → Script β}
    {fault : Fault} {events : List Event} (h : script.course settings = (.error fault, events)) :
    (script >>= next).course settings = (.error fault, events) := by
  simp only [course_bind, h]

/-- Two scripts come to a good end when both do. -/
lemma course_bind_eq_ok {settings : Settings} {script : Script α} {next : α → Script β} {b : β}
    {events : List Event} :
    (script >>= next).course settings = (.ok b, events) ↔
      ∃ a first second, script.course settings = (.ok a, first) ∧
        (next a).course settings = (.ok b, second) ∧ events = first ++ second := by
  constructor
  · intro h
    cases hscript : script.course settings with
    | mk result first =>
      cases result with
      | error fault =>
        rw [course_bind_of_error hscript] at h
        simp at h
      | ok a =>
        rw [course_bind_of_ok hscript, Prod.mk.injEq] at h
        exact ⟨a, first, ((next a).course settings).2, rfl, Prod.ext h.1 rfl, h.2.symm⟩
  · rintro ⟨a, first, second, hscript, hnext, rfl⟩
    rw [course_bind_of_ok hscript, hnext]

/-- A course that begins without a failure and without events goes on as what follows. -/
lemma course_bind_of_silent {settings : Settings} {script : Script α} {next : α → Script β} {a : α}
    (h : script.course settings = (.ok a, [])) :
    (script >>= next).course settings = (next a).course settings := by
  rw [course_bind_of_ok h, List.nil_append]

/-- What is computed on the way leaves no events. -/
@[simp] lemma course_ofExcept_bind_ok {settings : Settings} (a : α) (next : α → Script β) :
    (Script.ofExcept (.ok a) >>= next).course settings = (next a).course settings :=
  course_bind_of_silent rfl

/-- Nothing follows a computation that fails. -/
@[simp] lemma course_ofExcept_bind_error {settings : Settings} (fault : Fault)
    (next : α → Script β) :
    (Script.ofExcept (.error fault) >>= next).course settings = (.error fault, []) :=
  course_bind_of_error rfl

/-- A note before a script changes nothing. -/
@[simp] lemma course_say_bind {settings : Settings} (n : Note) (next : Unit → Script β) :
    (Script.say n >>= next).course settings = (next ()).course settings :=
  course_bind_of_silent rfl

/-- What follows the question for the settings is told them. -/
@[simp] lemma course_settings_bind {settings : Settings} (next : Settings → Script β) :
    (Script.settings >>= next).course settings = (next settings).course settings :=
  course_bind_of_silent rfl

/-- What follows the question for the abort flag is told that it is down. -/
@[simp] lemma course_aborted_bind {settings : Settings} (next : Bool → Script β) :
    (Script.aborted >>= next).course settings = (next false).course settings :=
  course_bind_of_silent rfl

/-! ### Courses and sessions -/

/-- A quiet session with its flag down ends a script as its course ends, and shows its events. -/
lemma play_quiet (script : Script α) (s : Session) (settings : Settings) (p : Progress)
    (h : s.Rehearses settings p) (hp : p.aborted = false) :
    ∃ t journal,
      script.play (Session.rehearsal quiet) s = ((script.course settings).1, t, journal) ∧
      t.Rehearses settings ⟨p.begun + waitsOf (script.course settings).2, false⟩ ∧
      Journal.events journal = (script.course settings).2 := by
  obtain ⟨t, journal, hplay, ht, hevents⟩ := play_rehearsal quiet script s settings p h
  rw [rehearse_quiet settings script p hp] at hplay ht hevents
  exact ⟨t, journal, hplay, ht, hevents⟩

end Script

end PenRover
