import PenRover.Proofs.Dashboard.Attendance
import PenRover.Proofs.Dashboard.Updates

/-!
# The dashboard at rest

A request is handled, and this is followed until everything waits; then alarms ring, each of them
followed in the same way.  What holds of all instants holds of the dashboards that come about like
this (`Dashboard.Reachable`), and is simpler there: nothing is in suspense, no request waits for its
bytes, and a drawing is unfinished exactly when its run is in progress.

This is how requests see the dashboard: what they are refused for, when nothing is connected or sent
any more, and which settings a run goes by that was started by one of them.
-/

namespace PenRover

open Script

namespace Dashboard

variable {d : Dashboard}

/-- Where everything waits, the unfinished drawings are those of the runs in progress. -/
lemma unfinished_instant (d : Dashboard) :
    (Moment.instant ⟨d, []⟩).unfinished = d.runs.map Run.grant := by
  simp [Instant.unfinished, Moment.instant]

/-- A session is in use exactly while a run of its own is in progress, and there is only one. -/
lemma Reachable.current_iff (h : d.Reachable) {n : Nat} :
    d.current = some n ↔ ∃ run, d.runs = [run] ∧ run.session = n := by
  obtain ⟨deeds, hmoment⟩ := h.reached
  obtain ⟨incidents, hreached, -⟩ := Instant.exists_reached_of_moment hmoment
  have hsingle := (Instant.single_of_reached hreached).current_iff (n := n)
  rw [unfinished_instant] at hsingle
  refine hsingle.trans ⟨?_, ?_⟩
  · rintro ⟨drawing, honly⟩
    obtain ⟨run, hrun, hgrant⟩ := List.map_eq_singleton_iff.mp honly
    exact ⟨run, hrun, congrArg Grant.session hgrant⟩
  · rintro ⟨run, hrun, rfl⟩
    exact ⟨run.drawing, by rw [hrun]; rfl⟩

/-- Nothing is drawn exactly when no session is in use. -/
lemma Reachable.runs_eq_nil_iff (h : d.Reachable) : d.runs = [] ↔ d.current = none := by
  constructor
  · intro hruns
    cases hcurrent : d.current with
    | none => rfl
    | some n =>
      obtain ⟨run, hrun, -⟩ := h.current_iff.mp hcurrent
      exact absurd (hruns.symm.trans hrun) (List.cons_ne_nil run []).symm
  · intro hcurrent
    obtain ⟨deeds, hmoment⟩ := h.reached
    exact ((Moment.tidy_of_reached hmoment).unused hcurrent).2

/-- Uploads and starts are refused exactly while a run is in progress. -/
lemma Reachable.conflicts_iff (h : d.Reachable) {request : Request}
    (hasks : Asks request .upload ∨ Asks request .start) : d.Conflicts request ↔ d.runs ≠ [] := by
  have hcurrent : d.Conflicts request ↔ d.current.isSome = true :=
    hasks.elim conflicts_upload_iff conflicts_start_iff
  rw [hcurrent, Ne, h.runs_eq_nil_iff, Option.isSome_iff_ne_none]

/-- What is shown is so. -/
lemma Reachable.truthful (h : d.Reachable) : Instant.Truthful (Moment.instant ⟨d, []⟩) := by
  obtain ⟨deeds, hmoment⟩ := h.reached
  obtain ⟨incidents, hreached, hcalm, -⟩ := Instant.exists_reached_of_moment hmoment
  exact Instant.truthful_of_reached hreached (Incident.sequential_of_isCalm hcalm)

/-- Only the link of the session in use can have a connection or a background task. -/
lemma Reachable.isClosed (h : d.Reachable) {n : Nat} (hn : d.current ≠ some n) :
    (d.controls n).link.IsClosed := by
  obtain ⟨deeds, hmoment⟩ := h.reached
  exact (Moment.tidy_of_reached hmoment).others n hn

/-- While no session is in use nobody sleeps. -/
lemma Reachable.sleepers_eq_nil (h : d.Reachable) (hcurrent : d.current = none) :
    d.sleepers = [] := by
  have halarm (n : Nat) : (d.controls n).link.alarm? = none := by
    refine Link.IsClosed.alarm? (h.isClosed ?_)
    rw [hcurrent]
    exact (Option.some_ne_none n).symm
  rw [sleepers, h.runs_eq_nil_iff.mpr hcurrent]
  simp [halarm]

/-- While no session is in use, requests that are not granted a start show nothing, and leave it
so. -/
lemma Reachable.handle_of_idle (h : d.Reachable) (hcurrent : d.current = none) {request : Request}
    (hgrants : ¬ d.Grants request) :
    (d.handle request).2.1.current = none ∧ Journal.events (d.handle request).2.2 = [] := by
  obtain ⟨n, hsome, -⟩ | ⟨hsessions, -, hsame, hevents, -⟩ := answer_cases hgrants
  · exact absurd (hsome.symm.trans hcurrent) (Option.some_ne_none n)
  · have hclosed (k : Nat) : ((d.answer request).2.1.controls k).link.IsClosed := by
      rw [controls_congr hsessions]
      apply h.isClosed
      rw [hcurrent]
      exact (Option.some_ne_none k).symm
    rw [handle_of_isClosed hclosed]
    exact ⟨hsame.trans hcurrent, hevents⟩

/-- After a request and some alarms.  A session is in use exactly while a run of its own is in
progress, which is the only one and stands in the script of its drawing; until it is stopped this is
the drawing that is loaded, and the status says that it is being drawn, and from then on none is
loaded and the status says so.  While no session is in use, the status says that a drawing is ready
or finished, or that none is there, only when this is so.  The next upload or start is refused
exactly while a run is in progress. -/
theorem runs_of_handle (h : d.Reachable) (request : Request) (k : Nat) :
    let e := (ticks k (d.handle request).2.1).2.1
    (∀ n, e.current = some n ↔ ∃ run, e.runs = [run] ∧ run.session = n) ∧
    (∀ run, e.runs = [run] → (draw run.drawing).After run.next ∧
      ((e.controls run.session).aborted = false →
        e.drawing = some run.drawing ∧ e.status = .running) ∧
      ((e.controls run.session).aborted = true → e.drawing = none ∧ e.status = .aborted)) ∧
    (e.current = none → e.status ≠ .running ∧
      (e.status = .ready ∨ e.status = .finished → e.drawing.isSome = true) ∧
      (e.status = .aborted ∨ e.status = .idle → e.drawing = none)) ∧
    (∀ next, Asks next .upload ∨ Asks next .start → (e.Conflicts next ↔ e.runs ≠ [])) ∧
    ((∃ body, e.start.1 = .ok (.json 409 body)) ↔ e.runs ≠ []) := by
  intro e
  have he : e.Reachable := h.next request k
  clear_value e
  refine ⟨fun n => he.current_iff, ?_, ?_, fun next hasks => he.conflicts_iff hasks, ?_⟩
  · intro run honly
    obtain ⟨deeds, hmoment⟩ := he.reached
    obtain ⟨incidents, hreached, -⟩ := Instant.exists_reached_of_moment hmoment
    have hdraws := Instant.draws_of_reached hreached run (by simp [Moment.instant, honly])
    have hunfinished : (Moment.instant ⟨e, []⟩).unfinished = [⟨run.session, run.drawing⟩] := by
      rw [unfinished_instant, honly]
      rfl
    have hunderway := he.truthful.underway _ _ hunfinished rfl
    exact ⟨hdraws.after, hunderway.running, hunderway.stopped⟩
  · intro hcurrent
    have hunfinished : (Moment.instant ⟨e, []⟩).unfinished = [] := by
      rw [unfinished_instant, he.runs_eq_nil_iff.mpr hcurrent]
      rfl
    have hfits := he.truthful.fits (.inl hunfinished)
    exact ⟨hfits.idle, hfits.loaded, hfits.unloaded⟩
  · rw [Ne, he.runs_eq_nil_iff, start]
    cases hcurrent : e.current with
    | some n => exact iff_of_true ⟨_, rfl⟩ (Option.some_ne_none n)
    | none => cases e.drawing <;> simp [Answer.refusal]

/-- After a request and some alarms.  Only the link of the session in use can have a connection or a
background task, and it has at most one connection.  While no session is in use nobody sleeps, and
until a start is granted no request shows anything, let alone a connection or a frame. -/
theorem connections_of_handle (h : d.Reachable) (request : Request) (k : Nat) :
    let e := (ticks k (d.handle request).2.1).2.1
    (∀ n, (e.controls n).link.connections ≤ 1 ∧
      (e.current ≠ some n → (e.controls n).link.IsClosed)) ∧
    (e.current = none → e.sleepers = [] ∧ ∀ next, ¬ e.Grants next →
      (e.handle next).2.1.current = none ∧ Journal.events (e.handle next).2.2 = []) := by
  intro e
  have he : e.Reachable := h.next request k
  refine ⟨fun n => ⟨Link.connections_le_one _, he.isClosed⟩, ?_⟩
  intro hcurrent
  exact ⟨he.sleepers_eq_nil hcurrent, fun next hgrants => he.handle_of_idle hcurrent hgrants⟩

open Moment in
/-- After a start that is granted, and whatever requests and alarms follow it.  The link of the
session that was made for it stays what the settings at the start asked for, and the stretches of
its run are seen as those of a run that is given, movement by movement, the settings in force when
the movement begins. -/
theorem supplied_of_start (h : d.Reachable) (request : Request) (hasks : Asks request .start)
    (drawing : List Command) (hcurrent : d.current = none) (hdrawing : d.drawing = some drawing) :
    let n := d.sessions.length
    let started : Moment := ⟨d.engage, [⟨n, drawing⟩]⟩
    (∃ body, d.start.1 = .ok (.json 200 body)) ∧
      ∀ e, Later (d.handle request).2.1 e →
        (e.controls n).link.make = (Link.ofSettings d.settings).make ∧
        ∃ deeds stretches, Follows n started deeds stretches ⟨e, []⟩ ∧
          ∀ during : Nat → Settings,
            (∀ k stretch, stretches[k]? = some stretch → during k = stretch.before.settings) →
            ∀ settings, stretches.map Stretch.seen =
              (Dashboard.stretches n drawing (some (suppliedPiece during drawing))
                (stretches.map fun stretch => stretch.before.withSettings settings)).map
                  Stretch.seen := by
  intro n started
  refine ⟨⟨Answer.record [("status", Answer.ofStatus .running)], ?_⟩, ?_⟩
  · simp only [start, hcurrent, hdrawing]
  · intro e hlater
    obtain ⟨before, hreached⟩ := h.reached
    obtain ⟨first, hfirst⟩ := leads_handle_of_grants hasks hcurrent hdrawing
    obtain ⟨rest, hrest⟩ := hlater.leads
    obtain ⟨hmake, stretches, hfollows⟩ :=
      supplied_of_leads (tidy_of_reached hreached) hcurrent drawing (hfirst.trans hrest)
    exact ⟨hmake, first ++ rest, stretches, hfollows⟩

end Dashboard

end PenRover
