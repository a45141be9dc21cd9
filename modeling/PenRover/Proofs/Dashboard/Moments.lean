import PenRover.Dashboard.Reply
import PenRover.Proofs.Motion.Pieces

/-!
# Moments of the dashboard

A request is handled, or somebody wakes, and this is followed until everything waits again:
`Dashboard.Reachable` is what comes about in this way.

A dashboard can also be looked at after every single thing that happens, when not everything waits.
A start that is granted makes a session, and its run begins later; before that, other requests can
be answered, so a stop can reach a link that was not opened yet.  A background task that is called
begins later as well, but not before the run of its session, which was there first
(`Moment.Step`).  One piece of a run, one answer and one wake-up are each done in one go: a
connection attempt and a transmission are over at once.

Requests and wake-ups that are followed until everything waits are sequences of such steps, so every
reachable dashboard is among the moments (`Dashboard.Reachable.reached`).
-/

namespace PenRover

namespace Dashboard

/-! ### Acting in a session -/

section InSession

variable {α : Type} (d : Dashboard) (n : Nat) (act : Act Session α)

/-- What a session does makes no new session. -/
@[simp] lemma length_sessions_inSession :
    (d.inSession n act).2.1.sessions.length = d.sessions.length := by
  simp [inSession]

/-- An action in a session is the action on the session. -/
lemma act_of_inSession {result : Except Fault α} {d' : Dashboard} {journal : Journal}
    (h : d.inSession n act = (result, d', journal)) :
    act ⟨d.settings, (d.controls n).link, (d.controls n).aborted, d.air, d.clock⟩ =
      (result, (act ⟨d.settings, (d.controls n).link, (d.controls n).aborted, d.air,
        d.clock⟩).2.1, journal) := by
  rw [inSession, Prod.mk.injEq, Prod.mk.injEq] at h
  exact Prod.ext h.1 (Prod.ext rfl h.2.2)

/-- What an action in a session leaves alone. -/
lemma frame_inSession {result : Except Fault α} {d' : Dashboard} {journal : Journal}
    (h : d.inSession n act = (result, d', journal)) :
    d'.current = d.current ∧ d'.runs = d.runs ∧ d'.drawing = d.drawing ∧ d'.status = d.status ∧
      d'.sessions.length = d.sessions.length := by
  rw [inSession, Prod.mk.injEq, Prod.mk.injEq] at h
  obtain ⟨-, rfl, -⟩ := h
  exact ⟨rfl, rfl, rfl, rfl, List.length_set⟩

/-- What an action in a session leaves to the session. -/
lemma controls_inSession_self (h : n < d.sessions.length) :
    ((d.inSession n act).2.1.controls n).aborted =
      (act ⟨d.settings, (d.controls n).link, (d.controls n).aborted, d.air,
        d.clock⟩).2.1.aborted := by
  simp [inSession, controls, List.getD, h]

/-- What a session does leaves the link and the flag of another one as they are. -/
lemma controls_inSession_of_ne {m : Nat} (h : n ≠ m) :
    (d.inSession n act).2.1.controls m = d.controls m := by
  simp [inSession, controls, List.getD, h]

end InSession

variable {d : Dashboard}

/-! ### Requests -/

/-- The request asks for this service. -/
def Asks (request : Request) (service : Service) : Prop :=
  (Address.path? request.address).map (Destination.ofPath request.method) =
    some (.service service)

/-- A request for a service is answered by it. -/
lemma answer_of_asks {request : Request} {service : Service} (h : Asks request service) :
    d.answer request = d.serve request service := by
  unfold answer
  rw [h]

/-- An answer does nothing but load a drawing, start, stop, or change the settings. -/
lemma answer_induction {P : Dashboard × Journal → Prop} {request : Request} (hsame : P (d, []))
    (hupload : Asks request .upload → P (d.upload request.body).2)
    (hstart : Asks request .start → P d.start.2) (hstop : Asks request .stop → P d.stop.2)
    (hchange : Asks request .changeSettings → ∀ entries, P (d.changeSettings entries).2) :
    P (d.answer request).2 := by
  unfold answer
  split
  next service hasks =>
    cases service with
    | welcome => exact hsame
    | page => exact hsame
    | status => exact hsame
    | readSettings => exact hsame
    | upload => exact hupload hasks
    | start => exact hstart hasks
    | stop => exact hstop hasks
    | preview =>
      simp only [serve, preview]
      split
      · exact hsame
      · split <;> exact hsame
    | changeSettings =>
      simp only [serve]
      split
      · exact hchange hasks _
      · exact hsame
  · exact hsame
  · exact hsame
  · exact hsame
  · exact hsame

/-- A request is replied to with its answer, once that is checked. -/
lemma handle_result (d : Dashboard) (request : Request) :
    (d.handle request).1 = (d.answer request).1.bind Answer.check := by
  simp only [handle]

/-- A request leaves what its answer leaves, once everything has settled. -/
lemma handle_dashboard (d : Dashboard) (request : Request) :
    (d.handle request).2.1 = (d.answer request).2.1.settle.1 := by
  simp only [handle]

/-! ### Who waits -/

/-- A run that waits is in progress. -/
lemma mem_sleepers_drawing {run : Run} (h : .drawing run ∈ d.sleepers) : run ∈ d.runs := by
  simpa [sleepers] using h

/-- The first of some sleepers is one of them. -/
lemma mem_of_first? {sleepers : List Sleeper} {sleeper : Sleeper}
    (h : Sleeper.first? sleepers = some sleeper) : sleeper ∈ sleepers := by
  induction sleepers generalizing sleeper with
  | nil => simp [Sleeper.first?] at h
  | cons first rest ih =>
    rw [Sleeper.first?] at h
    cases hrest : Sleeper.first? rest with
    | none =>
      rw [hrest] at h
      exact List.mem_cons.mpr (.inl (Option.some.inj h).symm)
    | some other =>
      rw [hrest] at h
      obtain rfl := Option.some.inj h
      split
      · exact List.mem_cons_of_mem _ (ih hrest)
      · exact List.mem_cons_self

/-! ### Reachable dashboards -/

/-- Requests and wake-ups in any order lead from the first dashboard to the second. -/
inductive Later (d : Dashboard) : Dashboard → Prop
  | refl : Later d d
  | request {e : Dashboard} (h : Later d e) (request : Request) : Later d (e.handle request).2.1
  | wake {e : Dashboard} (h : Later d e) {sleeper : Sleeper} (hsleeper : sleeper ∈ e.sleepers) :
    Later d (e.wakeAndSettle sleeper).1

/-- The dashboard has come about from a new one by requests and wake-ups in any order. -/
def Reachable (d : Dashboard) : Prop :=
  ∃ settings settingsFile disk air, Later (Dashboard.new settings settingsFile disk air) d

/-- The dashboard after requests, one after another. -/
def afterAll (d : Dashboard) (requests : List Request) : Dashboard :=
  requests.foldl (fun d request => (d.handle request).2.1) d

variable {e : Dashboard}

/-- Requests, one after another, lead to a later dashboard. -/
lemma Later.afterAll (h : Later d e) (requests : List Request) :
    Later d (e.afterAll requests) := by
  induction requests generalizing e with
  | nil => exact h
  | cons request rest ih =>
    rw [Dashboard.afterAll, List.foldl_cons]
    exact ih (h.request request)

/-- The alarms that ring in their order are wake-ups. -/
lemma Later.ticks (h : Later d e) (n : Nat) : Later d (ticks n e).2.1 := by
  induction n generalizing e with
  | zero => exact h
  | succ n ih =>
    rw [Dashboard.ticks, tick]
    cases hfirst : Sleeper.first? e.sleepers with
    | none => exact h
    | some sleeper => exact ih (h.wake (mem_of_first? hfirst))

/-- A request is handled, and then alarms ring. -/
lemma Reachable.next (h : d.Reachable) (request : Request) (k : Nat) :
    (ticks k (d.handle request).2.1).2.1.Reachable := by
  obtain ⟨settings, settingsFile, disk, air, hlater⟩ := h
  exact ⟨settings, settingsFile, disk, air, (hlater.request request).ticks k⟩

end Dashboard

/-! ### Moments -/

/-- A start that was granted: the number of its session, and its drawing. -/
structure Grant where
  session : Nat
  drawing : List Command

/-- The dashboard between two things that happen, and the runs that have yet to begin. -/
structure Moment where
  dashboard : Dashboard
  granted : List Grant

/-- What is done in one go. -/
inductive Deed where
  /-- A start is granted. -/
  | grant
  /-- Something is done in a session, if one is in use, and this is written. -/
  | act (session : Option Nat) (journal : Journal)

namespace Deed

/-- What is written. -/
def journal : Deed → Journal
  | grant => []
  | act _ journal => journal

/-- What is written in the session with this number. -/
def journalOf (n : Nat) : Deed → Journal
  | grant => []
  | act session journal => if session = some n then journal else []

/-- A granted start writes nothing in any session. -/
@[simp] lemma journalOf_grant (n : Nat) : grant.journalOf n = [] := rfl

/-- What is done in a session is written there. -/
@[simp] lemma journalOf_act_self (n : Nat) (journal : Journal) :
    (act (some n) journal).journalOf n = journal := if_pos rfl

/-- What is done in a session is not written in another one. -/
lemma journalOf_act_of_ne {n k : Nat} (h : n ≠ k) (journal : Journal) :
    (act (some n) journal).journalOf k = [] := if_neg (by simpa using h)

/-- Where nothing is shown, no session shows anything. -/
lemma events_journalOf {journal : Journal} (h : journal.events = []) (session : Option Nat)
    (k : Nat) : ((act session journal).journalOf k).events = [] := by
  rw [journalOf]
  split
  · exact h
  · rfl

/-- What a number of deeds write in the session with this number. -/
def journalsOf (n : Nat) (deeds : List Deed) : Journal := deeds.flatMap (journalOf n)

end Deed

/-- The number of the session that somebody belongs to. -/
def Sleeper.session : Sleeper → Nat
  | .drawing run => run.session
  | .link n _ => n

/-- Somebody is the background task of a link. -/
def Sleeper.isLink : Sleeper → Bool
  | .drawing _ => false
  | .link _ _ => true

namespace Dashboard

/-- The dashboard that has granted a start: a new session is in use. -/
def engage (d : Dashboard) : Dashboard :=
  { d with
    sessions := d.sessions ++ [⟨Link.ofSettings d.settings, false⟩]
    current := some d.sessions.length
    status := .running }

/-- The new session has a link of its own, and its flag is down. -/
lemma controls_engage_self (d : Dashboard) :
    d.engage.controls d.sessions.length = ⟨Link.ofSettings d.settings, false⟩ := by
  simp [engage, controls, List.getD]

/-- The request is a start that is granted. -/
def Grants (d : Dashboard) (request : Request) : Prop :=
  Asks request .start ∧ d.current = none ∧ ∃ drawing, d.drawing = some drawing

/-- The session with this number, as it acts now. -/
def session (d : Dashboard) (n : Nat) : Session :=
  ⟨d.settings, (d.controls n).link, (d.controls n).aborted, d.air, d.clock⟩

end Dashboard

namespace Moment

open Dashboard

/-! ### Steps -/

/-- What can happen at a moment. -/
inductive Step : Moment → Deed → Moment → Prop
  /-- A request is answered that is no start, or a start that is refused. -/
  | answer {d : Dashboard} {granted : List Grant} (request : Request) (h : ¬ d.Grants request) :
    Step ⟨d, granted⟩ (.act d.current (d.answer request).2.2) ⟨(d.answer request).2.1, granted⟩
  /-- A start is granted. -/
  | grant {d : Dashboard} {granted : List Grant} (drawing : List Command)
      (hcurrent : d.current = none) (hdrawing : d.drawing = some drawing) :
    Step ⟨d, granted⟩ .grant ⟨d.engage, granted ++ [⟨d.sessions.length, drawing⟩]⟩
  /-- The run that was granted first begins. -/
  | begin {d : Dashboard} (grant : Grant) (granted : List Grant) :
    Step ⟨d, grant :: granted⟩
      (.act (some grant.session) (d.begin grant.session grant.drawing).2)
      ⟨(d.begin grant.session grant.drawing).1, granted⟩
  /-- The background task of a link begins, if it was called. -/
  | settle {d : Dashboard} {granted : List Grant} (n : Nat) (hn : n < d.sessions.length)
      (hturn : ∀ grant ∈ granted, grant.session ≠ n) :
    Step ⟨d, granted⟩ (.act (some n) (d.inSession n Session.settle).2.2)
      ⟨(d.inSession n Session.settle).2.1, granted⟩
  /-- Somebody wakes. -/
  | wake {d : Dashboard} {granted : List Grant} (sleeper : Sleeper)
      (hsleeper : sleeper ∈ d.sleepers) :
    Step ⟨d, granted⟩ (.act (some sleeper.session) (d.wake sleeper).2)
      ⟨(d.wake sleeper).1, granted⟩

/-- A number of deeds, one after another, lead from one moment to another. -/
inductive Leads : Moment → List Deed → Moment → Prop
  | refl (m : Moment) : Leads m [] m
  | snoc {a b c : Moment} {deeds : List Deed} {deed : Deed} (h : Leads a deeds b)
    (hstep : Step b deed c) : Leads a (deeds ++ [deed]) c

/-- The moment has come about by these deeds from a dashboard to which nothing had happened. -/
def Reached (m : Moment) (deeds : List Deed) : Prop :=
  ∃ settings settingsFile disk air,
    Leads ⟨Dashboard.new settings settingsFile disk air, []⟩ deeds m

/-- While no drawing is loaded no start is granted. -/
lemma Step.answer_of_unloaded {d : Dashboard} {granted : List Grant} (request : Request)
    (h : d.drawing = none) :
    Step ⟨d, granted⟩ (.act d.current (d.answer request).2.2)
      ⟨(d.answer request).2.1, granted⟩ := by
  refine .answer request ?_
  intro hgrants
  obtain ⟨-, -, drawing, hloaded⟩ := hgrants
  exact absurd (h.symm.trans hloaded) (Option.some_ne_none drawing).symm

/-- While a session is in use no start is granted. -/
lemma Step.answer_of_current {d : Dashboard} {granted : List Grant} {n : Nat} (request : Request)
    (h : d.current = some n) :
    Step ⟨d, granted⟩ (.act (some n) (d.answer request).2.2)
      ⟨(d.answer request).2.1, granted⟩ := by
  rw [← h]
  exact .answer request fun hgrants => absurd (h.symm.trans hgrants.2.1) (Option.some_ne_none n)

/-- One deed leads from a moment to the next. -/
lemma Leads.single {a b : Moment} {deed : Deed} (h : Step a deed b) : Leads a [deed] b :=
  .snoc (.refl a) h

/-- Deeds lead on from where others have led. -/
lemma Leads.trans {a b c : Moment} {first second : List Deed} (h : Leads a first b)
    (hrest : Leads b second c) : Leads a (first ++ second) c := by
  induction hrest with
  | refl => rwa [List.append_nil]
  | snoc hrest hstep ih =>
    rw [← List.append_assoc]
    exact .snoc ih hstep

end Moment

/-! ### Requests and wake-ups as steps -/

namespace Dashboard

open Moment

variable {d : Dashboard}

/-- A start that is granted engages a session and begins its run. -/
lemma start_of_grants {drawing : List Command} (hcurrent : d.current = none)
    (hdrawing : d.drawing = some drawing) :
    d.start.2 = d.engage.begin d.sessions.length drawing := by
  simp only [start, hcurrent, hdrawing, engage]

/-- Background tasks begin one after another. -/
lemma leads_settleSessions (numbers : List Nat) (hnumbers : ∀ n ∈ numbers, n < d.sessions.length) :
    ∃ deeds, Leads ⟨d, []⟩ deeds ⟨(d.settleSessions numbers).1, []⟩ ∧
      deeds.flatMap Deed.journal = (d.settleSessions numbers).2 := by
  induction numbers generalizing d with
  | nil => exact ⟨[], .refl _, rfl⟩
  | cons n rest ih =>
    have hn := hnumbers n List.mem_cons_self
    have hfirst : Step ⟨d, []⟩ _ _ := .settle n hn nofun
    obtain ⟨deeds, hdeeds, hjournal⟩ := ih (d := (d.inSession n Session.settle).2.1)
      (fun m hm => by
        rw [length_sessions_inSession]
        exact hnumbers m (List.mem_cons_of_mem _ hm))
    refine ⟨_, (Leads.single hfirst).trans hdeeds, ?_⟩
    rw [List.flatMap_append, hjournal]
    simp [settleSessions, Deed.journal]

/-- Settling is a number of deeds. -/
lemma leads_settle (d : Dashboard) :
    ∃ deeds, Leads ⟨d, []⟩ deeds ⟨d.settle.1, []⟩ ∧
      deeds.flatMap Deed.journal = d.settle.2 :=
  leads_settleSessions _ fun _ hn => List.mem_range.mp hn

/-- To handle a request is to answer it, to begin the run if it is a start that is granted, and to
let the background tasks begin. -/
lemma leads_handle (d : Dashboard) (request : Request) :
    ∃ deeds, Leads ⟨d, []⟩ deeds ⟨(d.handle request).2.1, []⟩ ∧
      deeds.flatMap Deed.journal = (d.handle request).2.2 := by
  have hanswer : ∃ deeds, Leads ⟨d, []⟩ deeds ⟨(d.answer request).2.1, []⟩ ∧
      deeds.flatMap Deed.journal = (d.answer request).2.2 := by
    by_cases hgrants : d.Grants request
    · obtain ⟨hasks, hcurrent, drawing, hdrawing⟩ := hgrants
      have hengage : Step ⟨d, []⟩ _ _ := .grant drawing hcurrent hdrawing
      have hbegin := Step.begin (d := d.engage) ⟨d.sessions.length, drawing⟩ []
      rw [answer_of_asks hasks, serve, start_of_grants hcurrent hdrawing]
      refine ⟨_, (Leads.single hengage).snoc hbegin, ?_⟩
      simp [Deed.journal]
    · exact ⟨_, .single (.answer request hgrants), by simp [Deed.journal]⟩
  obtain ⟨first, hfirst, hjournal⟩ := hanswer
  obtain ⟨second, hsecond, hmore⟩ := leads_settle (d.answer request).2.1
  refine ⟨first ++ second, ?_, ?_⟩
  · rw [handle_dashboard]
    exact hfirst.trans hsecond
  · rw [List.flatMap_append, hjournal, hmore]
    simp only [handle]

/-- When a start is granted, its run begins, and then background tasks do. -/
lemma leads_handle_of_grants {request : Request} (hasks : Asks request .start)
    (hcurrent : d.current = none) {drawing : List Command} (hdrawing : d.drawing = some drawing) :
    ∃ deeds, Leads ⟨d.engage, [⟨d.sessions.length, drawing⟩]⟩ deeds
      ⟨(d.handle request).2.1, []⟩ := by
  have hbegin := Step.begin (d := d.engage) ⟨d.sessions.length, drawing⟩ []
  obtain ⟨deeds, hdeeds, -⟩ := leads_settle (d.engage.begin d.sessions.length drawing).1
  rw [handle_dashboard, answer_of_asks hasks, serve, start_of_grants hcurrent hdrawing]
  exact ⟨_, (Leads.single hbegin).trans hdeeds⟩

/-- Waking somebody, and settling, is a number of deeds. -/
lemma leads_wakeAndSettle {sleeper : Sleeper} (h : sleeper ∈ d.sleepers) :
    ∃ deeds, Leads ⟨d, []⟩ deeds ⟨(d.wakeAndSettle sleeper).1, []⟩ ∧
      deeds.flatMap Deed.journal = (d.wakeAndSettle sleeper).2 := by
  have hfirst : Step ⟨d, []⟩ _ _ := .wake sleeper h
  obtain ⟨second, hsecond, hmore⟩ := leads_settle (d.wake sleeper).1
  refine ⟨.act (some sleeper.session) (d.wake sleeper).2 :: second, ?_, ?_⟩
  · simp only [wakeAndSettle]
    exact (Leads.single hfirst).trans hsecond
  · simp [Deed.journal, wakeAndSettle, hmore]

/-- Requests and wake-ups, each of them followed until everything waits, are steps of moments. -/
lemma Later.leads {e : Dashboard} (h : Later d e) : ∃ deeds, Leads ⟨d, []⟩ deeds ⟨e, []⟩ := by
  induction h with
  | refl => exact ⟨[], .refl _⟩
  | request h request ih =>
    obtain ⟨first, hfirst⟩ := ih
    obtain ⟨second, hsecond, -⟩ := leads_handle _ request
    exact ⟨_, hfirst.trans hsecond⟩
  | wake h hsleeper ih =>
    obtain ⟨first, hfirst⟩ := ih
    obtain ⟨second, hsecond, -⟩ := leads_wakeAndSettle hsleeper
    exact ⟨_, hfirst.trans hsecond⟩

/-- The dashboards that come about by requests and wake-ups, each of them followed until everything
waits, are among the moments. -/
lemma Reachable.reached (h : d.Reachable) : ∃ deeds, Reached ⟨d, []⟩ deeds := by
  obtain ⟨settings, settingsFile, disk, air, hlater⟩ := h
  obtain ⟨deeds, hleads⟩ := hlater.leads
  exact ⟨deeds, settings, settingsFile, disk, air, hleads⟩

end Dashboard

end PenRover
