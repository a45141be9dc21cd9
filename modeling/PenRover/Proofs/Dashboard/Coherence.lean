import PenRover.Proofs.Dashboard.Answers
import PenRover.Proofs.Dashboard.Instants

/-!
# The dashboard and its runs

A drawing is unfinished from the moment its start is granted until its link is closed, and then the
session in use is its own (`Instant.Single`).  Whether the drawing and the status that the dashboard
shows are those of this run is another question, and `Instant.Truthful` says when they are: every
answer keeps it so, and so do a start, the beginning and the end of every attempt to open or close a
link, and every wake-up of a run or of a background task, in any order and with any connections and
transmissions (`Truthful.step`).

One thing does not keep it so.  An upload is let in while no session is in use, and when its bytes
arrive nobody looks again.  So requests have to come one after another: no start is granted while an
upload waits for its bytes (`Incident.Sequential`).  Without this a drawing is replaced while it is
being drawn (`Instant.replaced_of_overlap`).

The invariant is stronger than what it is there for.  It says of a run that is underway what is left
of its script, so that it is known to end as the abort flag has it: a run that was stopped is
cancelled, and leaves the status of the stop.  A run that has yet to begin reads its flag when it
begins, so a stop that comes before needs no case of its own.
-/

namespace PenRover

open Script

/-! ### Runs -/

/-- The run is drawing its drawing: it stands after one of its waits, and ends as its flag has
it. -/
structure Run.Draws (run : Run) : Prop where
  after : (draw run.drawing).After run.next
  obeys : ∀ up, run.next.Obeys up

/-- A piece of the script of a drawing, acted out from the beginning or from a wait. -/
structure IsPiece (drawing : List Command)
    (piece : Act Session (Session.Standing Outcome)) : Prop where
  steady : Session.Steady piece
  draws : ∀ {s t : Session} {alarm : Alarm} {next : Script Outcome} {journal : Journal} (n : Nat),
    piece s = (.ok (.waiting alarm next), t, journal) → Run.Draws ⟨n, drawing, alarm, next⟩
  ends : ∀ {s t : Session} {outcome : Outcome} {journal : Journal},
    piece s = (.ok (.ended outcome), t, journal) → outcome = Outcome.ofFlag s.aborted

/-- A script whose waits are among those of the drawing, and which ends as the flag has it. -/
lemma isPiece_resume {drawing : List Command} {script : Script Outcome}
    (hafter : ∀ next, script.After next → (draw drawing).After next)
    (hobeys : ∀ up, script.Obeys up) : IsPiece drawing (Session.resume script) := by
  refine ⟨Session.steady_resume _, ?_, ?_⟩
  · intro s t alarm next journal n hresume
    obtain ⟨hnext, hrest⟩ := Session.resume_eq_waiting hresume
    exact ⟨hafter next hnext, hrest (hobeys _)⟩
  · intro s t outcome journal hresume
    exact Session.resume_eq_ended hresume (hobeys _)

/-- The first piece of a drawing is one. -/
lemma isPiece_draw (drawing : List Command) :
    IsPiece drawing (Session.resume (draw drawing)) :=
  isPiece_resume (fun _ hnext => hnext) (obeys_drawFrom _ _ _ drawing)

/-- What a run does up to its next wait is a piece of its drawing. -/
lemma Run.Draws.isPiece {run : Run} (h : run.Draws) :
    IsPiece run.drawing (Session.resume run.next) :=
  isPiece_resume (fun _ hnext => h.after.trans hnext) h.obeys

/-- A piece is one after an action that leaves the flag as it is. -/
lemma IsPiece.bind {drawing : List Command} {act : Act Session Unit}
    {piece : Act Session (Session.Standing Outcome)} (h : IsPiece drawing piece)
    (hact : Session.Steady act) : IsPiece drawing (act >>= fun _ => piece) := by
  refine ⟨hact.bind fun _ => h.steady, ?_, ?_⟩
  · intro s t alarm next journal n hboth
    obtain ⟨_, u, first, second, -, hpiece, -⟩ := Act.bind_eq_ok hboth
    exact h.draws n hpiece
  · intro s t outcome journal hboth
    obtain ⟨_, u, first, second, hfirst, hpiece, -⟩ := Act.bind_eq_ok hboth
    rw [← hact.aborted_eq hfirst]
    exact h.ends hpiece

/-- The first piece of a drawing, however the attempt to open its link ends. -/
lemma isPiece_opening (reply : Reply) (drawing : List Command) :
    IsPiece drawing (Session.opening reply drawing) :=
  (isPiece_draw drawing).bind (Session.steady_opened reply)

namespace Dashboard

/-! ### Underway -/

/-- Session `n` is in use for a drawing.  Until it is stopped the drawing is loaded and the status
says that it is being drawn; from then on none is loaded and the status says that it was stopped. -/
structure Underway (d : Dashboard) (n : Nat) (drawing : List Command) : Prop where
  current : d.current = some n
  started : n < d.sessions.length
  running : (d.controls n).aborted = false → d.drawing = some drawing ∧ d.status = .running
  stopped : (d.controls n).aborted = true → d.drawing = none ∧ d.status = .aborted

variable {d : Dashboard} {n m : Nat} {drawing : List Command}

/-- An action that leaves the flag as it is leaves all flags as they are. -/
lemma aborted_inSession_of_steady {α : Type} (d : Dashboard) (n : Nat) (act : Act Session α)
    (hact : Session.Steady act) (m : Nat) :
    ((d.inSession n act).2.1.controls m).aborted = (d.controls m).aborted := by
  by_cases hnm : n = m
  · subst hnm
    by_cases hn : n < d.sessions.length
    · rw [controls_inSession_self d n act hn, hact]
    · simp [inSession, controls, List.getD, hn]
  · rw [controls_inSession_of_ne d n act hnm]

/-- An action that leaves the flag as it is does not touch what is shown. -/
lemma Underway.inSession {α : Type} {act : Act Session α} (h : d.Underway n drawing)
    (hact : Session.Steady act) : (d.inSession m act).2.1.Underway n drawing := by
  have haborted := aborted_inSession_of_steady d m act hact n
  refine ⟨h.current, ?_, ?_, ?_⟩
  · rw [length_sessions_inSession]
    exact h.started
  · rw [haborted]
    exact h.running
  · rw [haborted]
    exact h.stopped

/-- The session of a start that is granted is that of the loaded drawing. -/
lemma underway_engage (hdrawing : d.drawing = some drawing) :
    d.engage.Underway d.sessions.length drawing := by
  refine ⟨rfl, by simp [engage], fun _ => ⟨hdrawing, rfl⟩, fun hup => ?_⟩
  rw [controls_engage_self] at hup
  exact absurd hup Bool.false_ne_true

/-! ### Answers -/

/-- A stop discards the drawing when it could be sent, and changes nothing otherwise. -/
lemma Underway.stop (h : d.Underway n drawing) : d.stop.2.1.Underway n drawing := by
  have hself := controls_inSession_self d n Session.stop h.started
  simp only [Dashboard.stop, h.current]
  rcases hresult : d.inSession n Session.stop with ⟨fault | _, after, journal⟩ <;>
    have hstop := act_of_inSession _ _ _ hresult <;>
    obtain ⟨hcurrent, -, hdrawing, hstatus, hlength⟩ := frame_inSession _ _ _ hresult
  · -- the flag is as it was
    rw [Session.aborted_of_stop_error hstop, hresult] at hself
    have hflag : (after.controls n).aborted = (d.controls n).aborted := hself
    refine ⟨hcurrent.trans h.current, lt_of_lt_of_eq h.started hlength.symm, ?_, ?_⟩
    · rw [hflag, hdrawing, hstatus]
      exact h.running
    · rw [hflag, hdrawing, hstatus]
      exact h.stopped
  · rw [Session.aborted_of_stop hstop, hresult] at hself
    have hflag : (after.controls n).aborted = true := hself
    refine ⟨hcurrent.trans h.current, lt_of_lt_of_eq h.started hlength.symm, ?_,
      fun _ => ⟨rfl, rfl⟩⟩
    intro hdown
    exact absurd (hflag.symm.trans hdown) (by decide)

/-- While a session is in use nothing is loaded or started. -/
lemma Underway.answer (h : d.Underway n drawing) (request : Request) :
    (d.answer request).2.1.Underway n drawing := by
  refine answer_induction (P := fun reply => reply.1.Underway n drawing) h ?_ ?_
    (fun _ => h.stop) ?_
  · intro _
    rw [upload, if_pos (by simp [h.current])]
    exact h
  · intro _
    have hsame : d.start.2.1 = d := by simp only [start, h.current]
    rw [hsame]
    exact h
  · intro _ entries
    obtain ⟨settings, disk, hafter⟩ := exists_changeSettings_eq (d := d) entries
    rw [hafter]
    exact ⟨h.current, h.started, h.running, h.stopped⟩

/-- A status that fits goes on to fit while nothing is loaded or started: a stop leaves no drawing,
and says so. -/
lemma fits_answer (h : d.status.Fits d.drawing) {request : Request} (hgrants : ¬ d.Grants request)
    (hadmits : ¬ d.Admits request) :
    (d.answer request).2.1.status.Fits (d.answer request).2.1.drawing := by
  refine answer_induction (P := fun reply => reply.1.status.Fits reply.1.drawing) h
    ?_ ?_ ?_ ?_
  · intro hasks
    have hcurrent : d.current.isSome = true := by
      rw [Option.isSome_iff_ne_none]
      exact fun hnone => hadmits ⟨hasks, hnone⟩
    rw [upload, if_pos hcurrent]
    exact h
  · intro hasks
    unfold start
    split
    · exact h
    · exact h
    next drawing hcurrent hdrawing => exact absurd ⟨hasks, hcurrent, drawing, hdrawing⟩ hgrants
  · intro _
    have hdiscarded : Status.Fits .aborted none := ⟨by simp, by simp, fun _ => rfl⟩
    unfold Dashboard.stop
    split
    · exact hdiscarded
    next n hcurrent =>
      rcases hresult : d.inSession n Session.stop with ⟨fault | _, after, journal⟩
      · obtain ⟨-, -, hdrawing, hstatus, -⟩ := frame_inSession _ _ _ hresult
        dsimp only
        rw [hdrawing, hstatus]
        exact h
      · exact hdiscarded
  · intro _ entries
    obtain ⟨settings, disk, hafter⟩ := exists_changeSettings_eq (d := d) entries
    rw [hafter]
    exact h

/-- The status that a run shows at its end fits: a run that was stopped is cancelled, and leaves the
status of the stop. -/
lemma Underway.fits (h : d.Underway n drawing) {piece : Act Session (Session.Standing Outcome)}
    (hpiece : IsPiece drawing piece) {status : Status}
    (hshows : d.Shows (d.inSession n piece).1 status) : status.Fits d.drawing := by
  have hends : ∀ {outcome : Outcome}, (d.inSession n piece).1 = .ok (.ended outcome) →
      outcome = Outcome.ofFlag (d.controls n).aborted := by
    intro outcome hended
    exact hpiece.ends (Prod.ext hended rfl)
  obtain ⟨hended, rfl⟩ | ⟨hended, rfl⟩ | ⟨message, rfl⟩ := hshows
  · have hflag := hends hended
    cases hup : (d.controls n).aborted with
    | false =>
      obtain ⟨hloaded, -⟩ := h.running hup
      exact ⟨by simp, fun _ => by rw [hloaded, Option.isSome_some], by simp⟩
    | true =>
      rw [hup] at hflag
      nomatch hflag
  · have hflag := hends hended
    cases hup : (d.controls n).aborted with
    | false =>
      rw [hup] at hflag
      nomatch hflag
    | true =>
      obtain ⟨hnone, hstatus⟩ := h.stopped hup
      rw [hstatus, hnone]
      exact ⟨by simp, by simp, fun _ => rfl⟩
  · exact ⟨by simp, by simp, by simp⟩

end Dashboard

/-! ### Requests in sequence -/

/-- No start is granted while an upload waits for its bytes. -/
def Incident.Sequential (incidents : List Incident) : Prop :=
  ∀ waiting, .grant waiting ∈ incidents → waiting = 0

namespace Instant

open Dashboard

/-! ### The invariant -/

/-- What is shown is so.  While a link is closing its session is in use, but its run is over and the
status is that of its end. -/
structure Truthful (i : Instant) : Prop where
  uploads : i.uploads ≠ 0 → i.dashboard.current = none
  underway : ∀ n drawing, i.unfinished = [⟨n, drawing⟩] → i.closing = [] →
    i.dashboard.Underway n drawing
  fits : i.unfinished = [] ∨ i.closing ≠ [] → i.dashboard.status.Fits i.dashboard.drawing

variable {i rest : Instant} {grant : Grant} {reply : Option Reply}
  {piece : Act Session (Session.Standing Outcome)}

/-- Whatever piece it is with which a run goes on, it is one of its drawing. -/
lemma Turn.isPiece (h : Turn i grant reply piece rest)
    (hdraws : ∀ run ∈ i.dashboard.runs, run.Draws) : IsPiece grant.drawing piece := by
  cases h with
  | begin grant hrehearsal => exact isPiece_draw grant.drawing
  | opened grant reply => exact isPiece_opening reply grant.drawing
  | wake run hrun => exact (hdraws run hrun).isPiece

/-- What is left of a run that draws is left of its drawing. -/
lemma draws_proceed (hdraws : ∀ run ∈ i.dashboard.runs, run.Draws)
    (hpiece : IsPiece grant.drawing piece) :
    ∀ run ∈ (i.proceed grant piece).1.dashboard.runs, run.Draws := by
  rcases hafter : i.dashboard.inSession grant.session piece with ⟨result, after, journal⟩
  obtain ⟨-, hruns, -⟩ := frame_inSession _ _ _ hafter
  have hafterwards : ∀ run ∈ after.runs, run.Draws := by
    rw [hruns]
    exact hdraws
  obtain ⟨alarm, next, rfl, hproceed⟩ | ⟨status, note, -, -, ⟨-, hproceed⟩ | ⟨-, hproceed⟩⟩ :=
    i.proceed_cases grant piece hafter <;> rw [hproceed]
  · intro run hrun
    obtain hbefore | rfl := List.mem_append.mp hrun |>.imp_right List.mem_singleton.mp
    · exact hdraws run hbefore
    · exact hpiece.draws _ (act_of_inSession _ _ _ hafter)
  · exact hafterwards
  · exact hafterwards

/-- Every run in progress draws its drawing, at every step. -/
lemma draws_step {a b : Instant} {incident : Incident}
    (hdraws : ∀ run ∈ a.dashboard.runs, run.Draws) (hstep : Step a incident b) :
    ∀ run ∈ b.dashboard.runs, run.Draws := by
  cases hstep with
  | answer request hgrants hadmits hkeeps =>
    rw [(frame_answer hgrants).2.1]
    exact hdraws
  | late closing request hgrants hadmits hcurrent hloses =>
    rw [(frame_answer hgrants).2.1]
    exact hdraws
  | @receive d uploads granted opening closing body =>
    obtain hsame | ⟨drawing, status, note, hloaded, -⟩ := receive_cases d body
    · rw [hsame]
      exact hdraws
    · rw [hloaded]
      exact hdraws
  | @advance i rest grant reply piece hturn =>
    refine draws_proceed (fun run hrun => hdraws run ?_) (hturn.isPiece hdraws)
    exact hturn.mem_runs hrun
  | @closed d uploads granted opening before after closing =>
    obtain ⟨-, hruns, -, -⟩ := frame_finish d closing
    rw [hruns]
    exact hdraws
  | enter => exact hdraws
  | grant => exact hdraws
  | dial => exact hdraws
  | settle => exact hdraws
  | redial => exact hdraws
  | redialed => exact hdraws

/-- A step of the session in use, or of none, that leaves what is shown alone. -/
lemma Truthful.inSession {α : Type} {act : Act Session α} {n : Nat} (h : i.Truthful)
    (hact : Session.Steady act) :
    Truthful { i with dashboard := (i.dashboard.inSession n act).2.1 } where
  uploads := h.uploads
  underway k drawing honly hclosing := (h.underway k drawing honly hclosing).inSession hact
  fits := h.fits

/-- The run that goes on shows at its end what is so. -/
lemma Truthful.advance (h : i.Truthful) (hi : i.Single)
    (hdraws : ∀ run ∈ i.dashboard.runs, run.Draws) (hturn : Turn i grant reply piece rest) :
    (rest.proceed grant piece).1.Truthful := by
  obtain ⟨honly, hnone, hclosing, -, -, huploads, hrest⟩ := hturn.alone hi
  have hpiece := hturn.isPiece hdraws
  have hunderway : rest.dashboard.Underway grant.session grant.drawing := by
    rw [hrest]
    obtain ⟨hcurrent, hstarted, hrunning, hstopped⟩ :=
      h.underway grant.session grant.drawing honly hclosing
    exact ⟨hcurrent, hstarted, hrunning, hstopped⟩
  have huploads' : rest.uploads = 0 := by
    by_contra hsome
    rw [huploads] at hsome
    have hnobody := h.uploads hsome
    rw [hrest] at hunderway
    exact absurd (hunderway.current.symm.trans hnobody) (Option.some_ne_none _)
  obtain ⟨hgranted, hopening, hruns, hclosing'⟩ := unfinished_eq_nil.mp hnone
  rcases hafter : rest.dashboard.inSession grant.session piece with ⟨result, after, journal⟩
  obtain ⟨-, hruns', hdrawing, -, -⟩ := frame_inSession _ _ _ hafter
  have hafterwards := hunderway.inSession (m := grant.session) hpiece.steady
  have hfits : ∀ {status : Status}, rest.dashboard.Shows result status →
      status.Fits after.drawing := by
    intro status hshows
    rw [hdrawing]
    apply hunderway.fits hpiece
    rw [hafter]
    exact hshows
  obtain ⟨alarm, next, -, hproceed⟩ | ⟨status, note, hshows, -, ⟨-, hproceed⟩ | ⟨-, hproceed⟩⟩ :=
    rest.proceed_cases grant piece hafter <;> rw [hproceed]
  · -- the run waits: it is the only one, and still underway
    rw [hafter] at hafterwards
    refine ⟨fun hsome => absurd huploads' hsome, ?_, ?_⟩
    · intro n drawing hunfinished _
      obtain ⟨rfl, rfl⟩ : grant.session = n ∧ grant.drawing = drawing := by
        simpa [unfinished, hgranted, hopening, hruns, hclosing', Run.grant] using hunfinished
      exact ⟨hafterwards.current, hafterwards.started, hafterwards.running, hafterwards.stopped⟩
    · rintro (hunfinished | hclosing)
      · simp [unfinished] at hunfinished
      · exact absurd hclosing' hclosing
  · -- the run is over and its link with it: nothing is unfinished, and the status fits
    refine ⟨fun hsome => absurd huploads' hsome, ?_, fun _ => hfits hshows⟩
    intro n drawing hunfinished _
    have hover : ((after.conclude grant.session status).release grant.session).1.runs = [] :=
      hruns'.trans hruns
    simp [unfinished, hgranted, hopening, hclosing', hover] at hunfinished
  · -- the run is over and its link closes: the status fits already
    refine ⟨fun hsome => absurd huploads' hsome, ?_, fun _ => hfits hshows⟩
    intro n drawing _ hclosing
    simp at hclosing

/-- What is shown stays so with everything that is done, as long as no start is granted during an
upload. -/
lemma Truthful.step {a b : Instant} {incident : Incident} (h : a.Truthful) (ha : a.Single)
    (hdraws : ∀ run ∈ a.dashboard.runs, run.Draws)
    (hsequential : ∀ waiting, incident = .grant waiting → waiting = 0)
    (hstep : Step a incident b) : b.Truthful := by
  cases hstep with
  | answer request hgrants hadmits hkeeps =>
    obtain ⟨hcurrent, hruns, -⟩ := frame_answer hgrants
    refine ⟨fun hsome => hcurrent.trans (h.uploads hsome), ?_, ?_⟩
    · intro n drawing hunfinished hclosing
      simp only [unfinished, hruns] at hunfinished
      exact (h.underway n drawing hunfinished hclosing).answer request
    · intro hover
      simp only [unfinished, hruns] at hover
      exact fits_answer (h.fits hover) hgrants hadmits
  | @late d uploads granted opening before after closing request hgrants hadmits hcurrent hloses =>
    obtain ⟨hsame, -, -⟩ := frame_answer hgrants
    refine ⟨fun hsome => hsame.trans (h.uploads hsome), ?_, ?_⟩
    · intro n drawing _ hclosing
      simp at hclosing
    · intro _
      exact fits_answer (h.fits (.inr (by simp))) hgrants hadmits
  | enter request hadmits => exact ⟨fun _ => hadmits.2, h.underway, h.fits⟩
  | @receive d uploads granted opening closing body =>
    -- an upload that waits for its bytes has no run beside it
    have hcurrent : d.current = none := h.uploads (Nat.succ_ne_zero uploads)
    have hnone := ha.of_current_eq_none hcurrent
    obtain hsame | ⟨drawing, status, note, hloaded, -, hfits⟩ := receive_cases d body
    · rw [hsame]
      exact ⟨fun _ => hcurrent, h.underway, h.fits⟩
    · rw [hloaded]
      refine ⟨fun _ => hcurrent, ?_, fun _ => hfits⟩
      intro n other hunfinished _
      exact absurd (hunfinished.symm.trans hnone) (List.cons_ne_nil _ _)
  | @grant d uploads granted opening closing drawing hcurrent hdrawing =>
    -- this is where it matters that requests come one after another
    obtain rfl : uploads = 0 := hsequential uploads rfl
    obtain ⟨rfl, rfl, hruns, rfl⟩ := unfinished_eq_nil.mp (ha.of_current_eq_none hcurrent)
    have hruns' : d.engage.runs = [] := hruns
    refine ⟨fun hsome => absurd rfl hsome, ?_, ?_⟩
    · intro n other hunfinished _
      obtain ⟨rfl, rfl⟩ : d.sessions.length = n ∧ drawing = other := by
        simpa [unfinished, hruns'] using hunfinished
      exact underway_engage hdrawing
    · rintro (hunfinished | hclosing)
      · simp [unfinished] at hunfinished
      · exact absurd rfl hclosing
  | @dial d uploads granted opening closing grant reply hreply =>
    have hkept := h.inSession (n := grant.session) Session.steady_dial
    obtain ⟨⟨rfl, rfl, hruns, rfl⟩, -, -⟩ := ha.of_granted
    exact ⟨hkept.uploads, hkept.underway, hkept.fits⟩
  | advance hturn => exact h.advance ha hdraws hturn
  | settle n hn hturn => exact h.inSession Session.steady_settle
  | redial n alarm hsleeper => exact h.inSession (Session.steady_redial alarm)
  | redialed n hn => exact h.inSession Session.steady_redialed
  | @closed d uploads granted opening before after closing =>
    have hfits : d.status.Fits d.drawing := h.fits (.inr (by simp))
    obtain ⟨hcurrent, -, hstatus, hdrawing⟩ := frame_finish d closing
    have hnone := (ha.step (.closed closing)).of_current_eq_none hcurrent
    refine ⟨fun _ => hcurrent, ?_, ?_⟩
    · intro n drawing hunfinished _
      exact absurd (hunfinished.symm.trans hnone) (List.cons_ne_nil _ _)
    · intro _
      rw [hstatus, hdrawing]
      exact hfits

/-! ### Many steps -/

/-- Every run in progress is drawing its drawing. -/
lemma draws_of_reached {incidents : List Incident} (h : i.Reached incidents) :
    ∀ run ∈ i.dashboard.runs, run.Draws := by
  obtain ⟨settings, settingsFile, disk, air, hleads⟩ := h
  induction hleads with
  | refl => exact List.forall_mem_nil _
  | snoc hleads hstep ih => exact draws_step ih hstep

/-- What is shown is so at every instant, as long as no start is granted during an upload. -/
lemma truthful_of_reached {incidents : List Incident} (h : i.Reached incidents)
    (hsequential : Incident.Sequential incidents) : i.Truthful := by
  obtain ⟨settings, settingsFile, disk, air, hleads⟩ := h
  induction hleads with
  | refl =>
    refine ⟨fun _ => rfl, ?_, fun _ => ⟨?_, ?_, fun _ => rfl⟩⟩
    · intro n drawing hunfinished _
      exact absurd hunfinished.symm (List.cons_ne_nil _ _)
    · exact Status.noConfusion
    · rintro (hready | hfinished)
      · exact Status.noConfusion hready
      · exact Status.noConfusion hfinished
  | @snoc b c incidents incident hleads hstep ih =>
    have hreached : b.Reached incidents := ⟨settings, settingsFile, disk, air, hleads⟩
    refine (ih ?_).step (single_of_reached hreached) (draws_of_reached hreached) ?_ hstep
    · intro waiting hgrant
      exact hsequential waiting (List.mem_append_left _ hgrant)
    · intro waiting hgrant
      exact hsequential waiting (List.mem_append_right _ (List.mem_singleton.mpr hgrant.symm))

end Instant

/-! ### Refusals -/

namespace Dashboard

variable {d : Dashboard}

/-- The request is refused because of what the dashboard is doing. -/
def Conflicts (d : Dashboard) (request : Request) : Prop :=
  ∃ body, (d.handle request).1 = .ok (.json 409 body)

/-- A request for a service is refused for a conflict when the service answers so. -/
lemma conflicts_iff {request : Request} {service : Service} (h : Asks request service) :
    d.Conflicts request ↔
      ∃ answer body, (d.serve request service).1 = .ok answer ∧
        answer.check = .ok (.json 409 body) := by
  have hanswer : d.answer request = d.serve request service := by
    unfold answer
    rw [h]
  rw [Conflicts, handle_result, hanswer]
  cases (d.serve request service).1 with
  | error mishap => simp [Except.bind]
  | ok answer => simp [Except.bind]

/-- An upload is refused for a conflict exactly while a session is in use. -/
lemma conflicts_upload_iff {request : Request} (h : Asks request .upload) :
    d.Conflicts request ↔ d.current.isSome = true := by
  rw [conflicts_iff h, serve, upload]
  constructor
  · rintro ⟨answer, body, hserve, hcheck⟩
    by_contra hcurrent
    rw [if_neg hcurrent, receive] at hserve
    have hanswer := Answer.check_eq_ok hcheck
    subst hanswer
    split at hserve
    · simp [Answer.refusal] at hserve
    · split at hserve <;> simp [Answer.refusal] at hserve
  · intro hcurrent
    exact ⟨_, _, by rw [if_pos hcurrent], Answer.check_refusal _ _⟩

/-- A start is refused for a conflict exactly while a session is in use. -/
lemma conflicts_start_iff {request : Request} (h : Asks request .start) :
    d.Conflicts request ↔ d.current.isSome = true := by
  rw [conflicts_iff h, serve, start]
  cases hcurrent : d.current with
  | some n => exact iff_of_true ⟨_, _, rfl, Answer.check_refusal _ _⟩ rfl
  | none =>
    simp only [Option.isSome_none, Bool.false_eq_true, iff_false]
    rintro ⟨answer, body, hserve, hcheck⟩
    have hanswer := Answer.check_eq_ok hcheck
    subst hanswer
    cases hdrawing : d.drawing with
    | none => simp [hdrawing, Answer.refusal] at hserve
    | some commands => simp [hdrawing] at hserve

end Dashboard

open Dashboard Instant in
/-- An upload is let in, and before its bytes arrive the drawing that was loaded earlier is started.
The run goes on drawing, but it is not its drawing that is loaded from then on, and the status says
that this other one is ready. -/
theorem Instant.replaced_of_overlap :
    let first := [Command.lineAt 0 1]
    let second := [Command.lineAt 0 2]
    let idle := Dashboard.new .standard (Text.ofString "config.json") [] ⟨[], []⟩
    let loaded := idle.receive (Utf8.encode (Text.ofString "0 1 rlinerot"))
    let replaced := loaded.2.1.engage.receive (Utf8.encode (Text.ofString "0 2 rlinerot"))
    let i : Instant := ⟨replaced.2.1, 0, [⟨0, first⟩], [], []⟩
    i.Reached [.enter, .receive loaded.2.2, .enter, .grant 1, .receive replaced.2.2] ∧
      i.dashboard.current = some 0 ∧ (i.dashboard.controls 0).aborted = false ∧
      i.unfinished = [⟨0, first⟩] ∧ i.dashboard.drawing = some second ∧
      i.dashboard.status = .ready := by
  intro first second idle loaded replaced i
  have hasks : Asks ⟨Text.ofString "POST", Text.ofString "robot", Text.ofString "/file", [], []⟩
      .upload := by
    unfold Asks
    decide +kernel
  have hadmit : Step ⟨idle, 0, [], [], []⟩ .enter ⟨idle, 1, [], [], []⟩ :=
    .enter _ ⟨hasks, rfl⟩
  have hload : Step ⟨idle, 1, [], [], []⟩ (.receive loaded.2.2) ⟨loaded.2.1, 0, [], [], []⟩ :=
    .receive (Utf8.encode (Text.ofString "0 1 rlinerot"))
  have hagain : Step ⟨loaded.2.1, 0, [], [], []⟩ .enter ⟨loaded.2.1, 1, [], [], []⟩ :=
    .enter _ ⟨hasks, by decide +kernel⟩
  have hgrant : Step ⟨loaded.2.1, 1, [], [], []⟩ (.grant 1)
      ⟨loaded.2.1.engage, 1, [⟨0, first⟩], [], []⟩ := by
    have hlength : loaded.2.1.sessions.length = 0 := by decide +kernel
    have hstep : Step ⟨loaded.2.1, 1, [], [], []⟩ (.grant 1) _ :=
      .grant first (by decide +kernel) (by decide +kernel)
    rwa [hlength] at hstep
  have hreplace : Step ⟨loaded.2.1.engage, 1, [⟨0, first⟩], [], []⟩ (.receive replaced.2.2) i :=
    .receive (Utf8.encode (Text.ofString "0 2 rlinerot"))
  have hreached : i.Reached [.enter, .receive loaded.2.2, .enter, .grant 1,
      .receive replaced.2.2] :=
    ⟨_, _, _, _, ((((Leads.single hadmit).snoc hload).snoc hagain).snoc hgrant).snoc hreplace⟩
  have hruns : i.dashboard.runs.length = 0 := by decide +kernel
  have hshown : i.dashboard.current = some 0 ∧ (i.dashboard.controls 0).aborted = false ∧
      i.dashboard.drawing = some second ∧ i.dashboard.status = .ready := by
    decide +kernel
  obtain ⟨hcurrent, hdown, hdrawing, hstatus⟩ := hshown
  refine ⟨hreached, hcurrent, hdown, ?_, hdrawing, hstatus⟩
  rw [unfinished, List.eq_nil_of_length_eq_zero hruns]
  rfl

end PenRover
