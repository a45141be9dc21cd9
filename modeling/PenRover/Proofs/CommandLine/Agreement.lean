import PenRover.Proofs.CommandLine.Foreground
import PenRover.Proofs.CommandLine.FrontEnds
import PenRover.Proofs.Dashboard.Attendance
import PenRover.Proofs.Motion.Interruption

/-!
# One rehearsal, three ways

A drawing can be rehearsed on a session of its own, from the dashboard, and from the command line.
A stop takes another way in each of them: it is called when a wait begins, or it is a request that
is answered while the wait is pending, or it is asked for by an interrupt and has its turn when the
drawing waits.

`Script.rehearse` knows none of this, and each way agrees with it: the session
(`Script.play_rehearsal`), the dashboard (`Dashboard.perform_of_rehearse`), and the console
(`Console.draw_of_rehearses`).  The session and the dashboard therefore agree with one another.  The
command line agrees with them as far as its stops have their turns in time and its file reads as the
drawing does: a wait that takes no time is over before the stop that was asked for when it began,
and a carriage return that is a blank of the drawing may end a line of the file.
-/

namespace PenRover

open Script

namespace Script

/-- Of the waits up to `n`, counted from one, there is a first that is stopped, or none is. -/
lemma stoppedAt_or_quiet (stops : Nat → Bool) (n : Nat) :
    (∃ k, StoppedAt stops ⟨0, false⟩ k ∧ k ≤ n) ∨ ∀ k, 0 < k → k ≤ n → stops k = false := by
  by_cases hstopped : ∃ k, 0 < k ∧ stops k = true
  · obtain ⟨hlater, hstop⟩ := Nat.find_spec hstopped
    have hfirst {j : Nat} (hj : 0 < j) (hlow : j < Nat.find hstopped) : stops j = false := by
      have hnot := Nat.find_min hstopped hlow
      rw [not_and, Bool.not_eq_true] at hnot
      exact hnot hj
    by_cases hn : Nat.find hstopped ≤ n
    · exact .inl ⟨_, ⟨hlater, hstop, fun j => hfirst⟩, hn⟩
    · exact .inr fun j hj hjn => hfirst hj (by omega)
  · right
    intro k hk _
    by_contra hstop
    exact hstopped ⟨k, hk, by simpa using hstop⟩

/-- A rehearsal does not depend on what is said of waits that began before it. -/
lemma rehearse_congr {α : Type} (settings : Settings) {stops others : Nat → Bool}
    (script : Script α) (p : Progress) (h : ∀ k, p.begun < k → stops k = others k) :
    script.rehearse settings stops p = script.rehearse settings others p := by
  induction script generalizing p with
  | finish a => rfl
  | fail fault => rfl
  | note n script ih => exact ih p h
  | consult script ih => exact ih settings p h
  | poll script ih => exact ih p.aborted p h
  | drive left right script ih =>
    cases hrequest : Frame.request left right with
    | error fault => rw [rehearse_drive_of_error hrequest, rehearse_drive_of_error hrequest]
    | ok frame => rw [rehearse_drive_of_ok hrequest, rehearse_drive_of_ok hrequest, ih p h]
  | wait time script ih =>
    have hfirst : stops p.begin.begun = others p.begin.begun := h _ (Nat.lt_succ_self p.begun)
    have henter : p.enter stops = p.enter others := by rw [Progress.enter, Progress.enter, hfirst]
    have hentrance : p.entrance stops time = p.entrance others time := by
      rw [Progress.entrance, Progress.entrance, hfirst]
    obtain ⟨fault, hc⟩ | ⟨length, fault, hc, hlate⟩ | ⟨length, seconds, hc, hlength⟩ :=
      wait_cases time
    · rw [rehearse_wait_of_refused hc, rehearse_wait_of_refused hc]
    · rw [rehearse_wait_of_late hc hlate, rehearse_wait_of_late hc hlate, henter, hentrance]
    · rw [rehearse_wait_of_ok hc hlength, rehearse_wait_of_ok hc hlength, henter, hentrance,
        ih _ fun k hk => h k (Nat.lt_of_succ_lt hk)]

/-- A drawing whose undisturbed rehearsal comes to a good end does so as well when it is stopped. -/
lemma rehearse_draw_of_course {settings : Settings} {commands : List Command} {outcome : Outcome}
    {events : List Event} (h : (draw commands).course settings = (.ok outcome, events))
    (stops : Nat → Bool) :
    ∃ ending, ((draw commands).rehearse settings stops ⟨0, false⟩).1 = .ok ending := by
  obtain ⟨k, hk, hreached⟩ | hquiet := stoppedAt_or_quiet stops (waitsOf events)
  · obtain ⟨_, _, _, _, _, _, _, -, -, -, hstopped⟩ :=
      rehearse_drawFrom_of_stopped _ _ _ _ _ _ ⟨0, false⟩ rfl h k hk (by simpa using hreached)
    exact ⟨.cancelled, congrArg Prod.fst hstopped⟩
  · have hcourse := rehearse_quiet settings (draw commands) ⟨0, false⟩ rfl
    rw [h] at hcourse
    have hsame := rehearse_of_unstopped settings stops (draw commands) ⟨0, false⟩ rfl
      (fun j hlow hhigh => hquiet j hlow (by simpa [hcourse] using hhigh))
    exact ⟨outcome, by rw [hsame, hcourse]⟩

end Script

namespace Session

/-- A new session for a rehearsal. -/
lemma rehearses_new {settings : Settings} (hdry : settings.dryRun.isTrue = true) (air : Air) :
    (Session.new settings air Clock.start).Rehearses settings ⟨0, false⟩ := by
  refine ⟨⟨[], ?_⟩, rfl, rfl⟩
  rw [Session.new, Link.ofSettings, if_pos hdry]

end Session

namespace Program

section Draw

variable {around : Surroundings} {line : List Text} {settingsFile file : Text}
  {verbose dryRun : Bool}
  {url : Option Text}
  (hline : Arguments.read line = .ok ⟨settingsFile, verbose, .draw file url dryRun⟩)

include hline

/-- A drawing file that is rejected is not drawn. -/
lemma run_of_rejected {note : Note}
    (hload : load around.disk file = .ok (none, [.note note])) :
    (run around line).ending = .ok 1 ∧ Journal.events (run around line).journal = [] := by
  simp only [run, hline, perform, hload, Journal.events_cons_note, Journal.events_nil, and_self]

/-- A drawing job that rehearses ends as the script is followed if it is stopped at the waits in
which a stop has its turn, and shows the same events, and perhaps one more stop frame. -/
lemma run_of_rehearse {commands : List Command} {saved : Settings}
    (hload : load around.disk file = .ok (some commands, []))
    (hsaved : Settings.load around.disk settingsFile = .ok saved)
    (hdry : (jobSettings saved url dryRun).dryRun.isTrue = true) {outcome : Outcome} {p : Progress}
    {events : List Event}
    (hend : (Script.draw commands).rehearse (jobSettings saved url dryRun)
      (Console.heard around.interrupts around.pauses) ⟨0, false⟩ = (.ok outcome, p, events)) :
    (run around line).ending = .ok outcome.exitCode ∧
      Journal.events (run around line).journal =
        events ++ p.halting (Console.late around.interrupts around.pauses p.begun) := by
  have hnew := Session.rehearses_new hdry around.air
  obtain ⟨d, journal, hdraw, hevents⟩ :=
    Console.draw_of_rehearses (Console.rehearses_new hnew) commands hend
  have hjob : draw around settingsFile url dryRun commands =
      (.ok outcome.exitCode, journal ++ [.note (.fileDrawn outcome)]) := by
    simp only [draw, hsaved, hdraw]
  simp only [run, hline, perform, hload, hjob, List.nil_append, true_and]
  rw [Journal.events_append, hevents, Journal.events_cons_note, Journal.events_nil, List.append_nil]

end Draw

end Program

/-- For every text that denotes a drawing, settings that ask for a rehearsal, and waits at which the
drawing is stopped.  If a session on which the drawing is rehearsed undisturbed comes to a good end,
so does one that is stopped; and when that one does, the dashboard shows the same frames and waits,
and the command line does so up to two differences.

The dashboard may have come about by anything that can happen to it, as long as the drawing is
loaded, it has these settings, and no session is in use.  It is then stopped by requests while the
waits are pending, and is over after some time, with the status of the outcome.

The command line may come by these settings in any way, and its file holds the text.  A file with a
carriage return that does not stand before a line feed is rejected.  For any other file the program
ends with the exit code of the outcome, if the waits at which the drawing is stopped are those in
which a stop has its turn; and a stop that has its turn only after the run is one more frame.  If no
wait is over before the stops that are asked for have had their turns, the former are the waits at
which the user interrupts, and the latter does not happen. -/
theorem Script.draw_agrees (text : Text) (commands : List Command)
    (hread : Drawing.read text = .ok commands) (settings : Settings)
    (hdry : settings.dryRun.isTrue = true) (air : Air) (stopped : Finset Nat) :
    (∀ outcome t journal,
      (draw commands).play (Session.rehearsal fun _ => false)
        (Session.new settings air Clock.start) = (.ok outcome, t, journal) →
      ∃ outcome t journal,
        (draw commands).play (Session.rehearsal fun n => decide (n ∈ stopped))
          (Session.new settings air Clock.start) = (.ok outcome, t, journal)) ∧
    ∀ outcome t journal,
      (draw commands).play (Session.rehearsal fun n => decide (n ∈ stopped))
        (Session.new settings air Clock.start) = (.ok outcome, t, journal) →
      (∀ m deeds, Moment.Reached m deeds → m.dashboard.drawing = some commands →
        m.dashboard.settings = settings → m.dashboard.current = none →
        ∀ start stop, Dashboard.Asks start .start → Dashboard.Asks stop .stop →
          ∃ enough e performed, (∀ rounds, enough ≤ rounds →
              Dashboard.perform start stop stopped rounds m.dashboard = (e, performed)) ∧
            e.runs = [] ∧ e.current = none ∧ e.status = outcome.status ∧
            Journal.events performed = Journal.events journal) ∧
      ∀ around line settingsFile verbose file url dryRun saved body,
        Arguments.read line = .ok ⟨settingsFile, verbose, .draw file url dryRun⟩ →
        around.disk.readBytes file = .ok body → Utf8.decode false body = .ok text →
        Settings.load around.disk settingsFile = .ok saved →
        Program.jobSettings saved url dryRun = settings →
        (¬ text.Paired → (Program.run around line).ending = .ok 1 ∧
          Journal.events (Program.run around line).journal = []) ∧
        (text.Paired →
          (∀ k, 0 < k →
            (Console.heard around.interrupts around.pauses k = true ↔ k ∈ stopped)) →
          (Program.run around line).ending = .ok outcome.exitCode ∧
          Journal.events (Program.run around line).journal = Journal.events journal ++
            t.progress.halting
              (Console.late around.interrupts around.pauses t.clock.begun)) ∧
        (text.Paired → (∀ pause ∈ around.pauses, pause.hasty = false) →
          (∀ k, 0 < k → (k ∈ around.interrupts ↔ k ∈ stopped)) →
          (Program.run around line).ending = .ok outcome.exitCode ∧
          Journal.events (Program.run around line).journal = Journal.events journal) := by
  have hnew := Session.rehearses_new hdry air
  obtain ⟨after, written, hplay, hafter, hevents⟩ :=
    play_rehearsal (fun n => decide (n ∈ stopped)) (draw commands) _ settings _ hnew
  constructor
  · -- a stopped rehearsal comes to a good end because the undisturbed one does
    intro outcome t journal hrun
    have hcourse : (draw commands).course settings = _ :=
      Session.course_of_play_draw hnew.isRehearsal rfl hrun
    obtain ⟨ending, hending⟩ := rehearse_draw_of_course hcourse fun n => decide (n ∈ stopped)
    exact ⟨ending, after, written, by rw [hplay, hending]⟩
  · intro outcome t journal hrun
    obtain ⟨hend, rfl, rfl⟩ : _ ∧ after = t ∧ written = journal := by
      simpa only [Prod.mk.injEq] using hplay.symm.trans hrun
    have hrehearse : (draw commands).rehearse settings (fun n => decide (n ∈ stopped)) ⟨0, false⟩ =
        (.ok outcome, after.progress, Journal.events written) :=
      Prod.ext hend (Prod.ext hafter.progress_eq.symm hevents.symm)
    constructor
    · -- the dashboard
      intro m deeds hreached hdrawing hsettings hcurrent start stop hstart hstop
      subst hsettings
      obtain ⟨enough, e, performed, hperform, hover, hshown⟩ :=
        Dashboard.perform_of_rehearse (Moment.tidy_of_reached hreached) hcurrent hdrawing hdry
          hstart hstop stopped hrehearse
      exact ⟨enough, e, performed, hperform, hover.runs, hover.current, hover.status, hshown⟩
    · -- the command line
      intro around line settingsFile verbose file url dryRun saved body hline hfile hdecode hsaved
        hsettings
      subst hsettings
      have hload := FrontEnds.load_of_text hfile hdecode
      have hheard (hpaired : text.Paired) (hkeys : ∀ k, 0 < k →
          (Console.heard around.interrupts around.pauses k = true ↔ k ∈ stopped)) :
          (Program.run around line).ending = .ok outcome.exitCode ∧
            Journal.events (Program.run around line).journal = Journal.events written ++
              after.progress.halting
                (Console.late around.interrupts around.pauses after.clock.begun) := by
        rw [Drawing.read_unifyLines hpaired, hread] at hload
        apply Program.run_of_rehearse hline hload hsaved hdry
        rw [← hrehearse]
        apply rehearse_congr _ _ _
        intro k hk
        rw [Bool.eq_iff_iff, hkeys k hk, decide_eq_true_iff]
      refine ⟨?_, hheard, ?_⟩
      · intro hstray
        obtain ⟨fault, number, hbad⟩ := Drawing.badLine_of_stray hstray hread
        rw [hbad] at hload
        exact Program.run_of_rejected hline hload
      · intro hpaired hpatient hkeys
        have hsame : ∀ k, 0 < k →
            (Console.heard around.interrupts around.pauses k = true ↔ k ∈ stopped) := by
          intro k hk
          rw [Console.heard_of_patient hpatient _ hk, List.contains_iff_mem, hkeys k hk]
        obtain ⟨hexit, hshown⟩ := hheard hpaired hsame
        rw [Console.late_of_patient hpatient, Progress.halting_false, List.append_nil] at hshown
        exact ⟨hexit, hshown⟩

open Script in
/-- One line, rehearsed with the standard settings and stopped at its second wait. -/
theorem Script.draw_agrees_stopped :
    let settings := Settings.standard.set .dryRun (.flag true)
    let text := Text.ofString "0 1 rlinerot"
    let ask (path : String) (body : Bytes) : Request :=
      ⟨Text.ofString "POST", Text.ofString "robot", Text.ofString path, [], body⟩
    let loaded := (Dashboard.new settings (Text.ofString "config.json") [] ⟨[], []⟩).answer
      (ask "/file" (Utf8.encode text))
    let around : Surroundings := ⟨[(["d"].map Text.ofString, .file (.bytes (Utf8.encode text)))],
      ⟨[], []⟩, [2], []⟩
    let report := Program.run around (["draw", "--dry-run", "d"].map Text.ofString)
    Drawing.read text = .ok [.lineAt 0 1] ∧ settings.dryRun.isTrue = true ∧
      report.ending = .ok 130 ∧
      ∃ enough e performed, (∀ rounds, enough ≤ rounds →
          Dashboard.perform (ask "/start" []) (ask "/stop" []) {2} rounds loaded.2.1 =
            (e, performed)) ∧
        e.status = .aborted ∧ Journal.events performed = Journal.events report.journal := by
  intro settings text ask loaded around report
  have hread : Drawing.read text = .ok [.lineAt 0 1] := by decide +kernel
  have hdry : settings.dryRun.isTrue = true := rfl
  have hreached : Moment.Reached ⟨loaded.2.1, []⟩ _ :=
    ⟨_, _, _, _, .single (.answer_of_unloaded (ask "/file" (Utf8.encode text)) rfl)⟩
  have hdrawing : loaded.2.1.drawing = some [.lineAt 0 1] := by decide +kernel
  have hsettings : loaded.2.1.settings = settings := rfl
  have hcurrent : loaded.2.1.current = none := by decide +kernel
  have hstart : Dashboard.Asks (ask "/start" []) .start := by
    unfold Dashboard.Asks
    decide +kernel
  have hstop : Dashboard.Asks (ask "/stop" []) .stop := by
    unfold Dashboard.Asks
    decide +kernel
  have hline : Arguments.read (["draw", "--dry-run", "d"].map Text.ofString) =
      .ok ⟨Text.ofString "config.json", false, .draw (Text.ofString "d") none true⟩ := by
    decide +kernel
  have hfile : around.disk.readBytes (Text.ofString "d") = .ok (Utf8.encode text) := rfl
  have hdecode : Utf8.decode false (Utf8.encode text) = .ok text := by decide +kernel
  have hpaired : text.Paired := by decide
  have hsaved : Settings.load around.disk (Text.ofString "config.json") = .ok .standard := rfl
  have hend : ((draw [.lineAt 0 1]).play
      (Session.rehearsal fun n => decide (n ∈ ({2} : Finset Nat)))
      (Session.new settings ⟨[], []⟩ Clock.start)).1 = .ok .cancelled := by
    decide +kernel
  rcases hrun : (draw [.lineAt 0 1]).play
    (Session.rehearsal fun n => decide (n ∈ ({2} : Finset Nat)))
    (Session.new settings ⟨[], []⟩ Clock.start) with ⟨ending, t, journal⟩
  rw [hrun] at hend
  obtain rfl : ending = .ok .cancelled := hend
  obtain ⟨-, hagree⟩ := Script.draw_agrees text _ hread settings hdry ⟨[], []⟩ {2}
  obtain ⟨hdashboard, hprogram⟩ := hagree _ _ _ hrun
  obtain ⟨enough, e, performed, hperform, -, -, hstatus, hshown⟩ :=
    hdashboard _ _ hreached hdrawing hsettings hcurrent _ _ hstart hstop
  obtain ⟨-, -, hpatient⟩ := hprogram around _ _ _ _ _ _ _ _ hline hfile hdecode hsaved rfl
  obtain ⟨hexit, hevents⟩ := hpatient hpaired (List.forall_mem_nil _) (by simp [around])
  exact ⟨hread, hdry, hexit, enough, e, performed, hperform, hstatus, hshown.trans hevents.symm⟩

/-- An ending can be compared by its exit code. -/
lemma Report.ending_eq_ok {report : Report} {code : Nat}
    (h : report.ending.toOption = some code) : report.ending = .ok code := by
  cases hending : report.ending with
  | error breakdown =>
    rw [hending] at h
    exact nomatch h
  | ok other =>
    rw [hending] at h
    exact congrArg _ (Option.some.inj h)

open Script in
/-- With a settling time of nothing.  A carriage return is a blank of the first drawing, but ends a
line of its file, which is rejected.  The second drawing is stopped at its last wait, and cancelled;
but from the command line this wait is over before the stop that the user has asked for, and the
drawing is completed. -/
theorem Script.draw_disagrees :
    let settings := (Settings.standard.set .dryRun (.flag true)).set .settleDelay (.int 0)
    let alone (commands : List Command) (stopped : Finset Nat) :=
      ((draw commands).play (Session.rehearsal fun n => decide (n ∈ stopped))
        (Session.new settings ⟨[], []⟩ Clock.start)).1
    let file (name content : String) : Path × Node :=
      ([Text.ofString name], .file (.bytes (Utf8.encode (Text.ofString content))))
    let fromFile (text : String) (interrupts : List Nat) (pauses : List Pause) : Report :=
      Program.run ⟨[file "d" text, file "config.json" "\x7b\"settle_delay\": 0\x7d"], ⟨[], []⟩,
        interrupts, pauses⟩ (["draw", "--dry-run", "d"].map Text.ofString)
    (Drawing.read "0 1\rrlinerot" = .ok [.lineAt 0 1] ∧
      alone [.lineAt 0 1] ∅ = .ok .completed ∧
      (fromFile "0 1\rrlinerot" [] []).ending = .ok 1 ∧
      Journal.events (fromFile "0 1\rrlinerot" [] []).journal = []) ∧
    Drawing.read "0 1 rlineto" = .ok [.lineBy 0 1] ∧
      alone [.lineBy 0 1] {2} = .ok .cancelled ∧
      (fromFile "0 1 rlineto" [2] [⟨[], false⟩, ⟨[], true⟩]).ending = .ok 0 := by
  intro settings alone file fromFile
  refine ⟨⟨?_, ?_, Report.ending_eq_ok ?_, ?_⟩, ?_, ?_, Report.ending_eq_ok ?_⟩
  · decide +kernel
  · decide +kernel
  · decide +kernel
  · decide +kernel
  · decide +kernel
  · decide +kernel
  · decide +kernel

end PenRover
