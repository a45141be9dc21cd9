import PenRover.Proofs.Dashboard.Coherence
import PenRover.Proofs.Dashboard.Custody

/-!
# Moments among the instants

A moment is an instant at which nothing is in suspense, and what is done at a moment in one go is
done at the instants in a few steps: an upload is let in and has its bytes, an attempt to open a
link begins and ends, a link begins to close and is closed (`Moment.exists_leads`).  Nothing happens
in between, so no start is granted while an upload waits for its bytes, no connection gives way to
another one and no stop is late (`Incident.IsCalm`).

So what holds of all instants that have come about calmly holds of all moments, and of all
dashboards that requests and wake-ups lead to.  In particular nothing is lost of what a session
opens: every connection comes to an end, or is that of its link (`Moment.opened_of_reached`).
-/

namespace PenRover

open Script

/-- What is done while nothing else is in suspense. -/
def Incident.IsCalm : Incident → Prop
  | grant waiting => waiting = 0
  | replace _ _ => False
  | late _ _ => False
  | _ => True

namespace Incident

variable {incidents : List Incident}

/-- Calm incidents grant no start during an upload. -/
lemma sequential_of_isCalm (h : ∀ incident ∈ incidents, incident.IsCalm) : Sequential incidents :=
  fun waiting hgrant => h (.grant waiting) hgrant

/-- Calm incidents stop no session whose link is closing. -/
lemma punctual_of_isCalm (h : ∀ incident ∈ incidents, incident.IsCalm) (n : Nat) :
    Punctual n incidents := by
  intro incident hincident
  have hcalm := h incident hincident
  cases incident with
  | late session journal => exact absurd hcalm not_false
  | _ => rfl

/-- In calm incidents no connection gives way to another one. -/
lemma replacedIn_of_isCalm (h : ∀ incident ∈ incidents, incident.IsCalm) (n : Nat) :
    replacedIn n incidents = 0 := by
  rw [replacedIn, List.countP_eq_zero]
  intro incident hincident
  have hcalm := h incident hincident
  cases incident with
  | replace session journal => exact absurd hcalm not_false
  | _ => exact Bool.false_ne_true

end Incident

namespace Session

/-- A link over the radio is opened by an attempt that begins and ends. -/
lemma open_bind_of_radio {α : Type} {s : Session} {radio : Radio} (h : s.link = .radio radio)
    (next : Act Session α) :
    dial s = (.ok (some s.air.nextConnect.1), { s with air := s.air.nextConnect.2 }, []) ∧
      (Session.open >>= fun _ => next) s =
        (opened s.air.nextConnect.1 >>= fun _ => next) { s with air := s.air.nextConnect.2 } := by
  have hdial : dial s =
      (.ok (some s.air.nextConnect.1), { s with air := s.air.nextConnect.2 }, []) := by
    simp only [dial, Link.dial, h]
  have hopen : Session.open s =
      opened s.air.nextConnect.1 { s with air := s.air.nextConnect.2 } := by
    rw [Session.open, Act.bind_ok hdial]
    rfl
  refine ⟨hdial, ?_⟩
  rcases hopened : opened s.air.nextConnect.1 { s with air := s.air.nextConnect.2 } with
    ⟨fault | _, t, journal⟩ <;> rw [hopened] at hopen
  · rw [Act.bind_error hopen, Act.bind_error hopened]
  · rw [Act.bind_ok hopen, Act.bind_ok hopened]

end Session

namespace Instant

open Dashboard Incident

/-! ### One step -/

/-- What is done at a moment in one go is done here in a few calm steps, and writes the same. -/
def Unfolds (i : Instant) (deed : Deed) (j : Instant) : Prop :=
  ∃ incidents, Leads i incidents j ∧ (∀ incident ∈ incidents, incident.IsCalm) ∧
    ∀ n, journalsOf n incidents = deed.journalOf n

section Unfolds

variable {i j k : Instant} {d : Dashboard} {granted : List Grant}

/-- What is one step of an instant already unfolds into that step. -/
lemma unfolds_act {session : Option Nat} {journal : Journal}
    (h : Step i (.act session journal) j) : i.Unfolds (.act session journal) j := by
  refine ⟨_, .single h, by simp [IsCalm], fun n => ?_⟩
  rw [journalsOf, List.flatMap_singleton]
  by_cases hn : session = some n
  · exact (if_pos hn).trans (if_pos hn).symm
  · exact (if_neg hn).trans (if_neg hn).symm

/-- Two things that are done in one session, one after the other. -/
lemma Unfolds.trans {n : Nat} {first second : Journal} (h : i.Unfolds (.act (some n) first) j)
    (hrest : j.Unfolds (.act (some n) second) k) :
    i.Unfolds (.act (some n) (first ++ second)) k := by
  obtain ⟨before, hbefore, hcalm, hfirst⟩ := h
  obtain ⟨after, hafter, hcalms, hsecond⟩ := hrest
  refine ⟨before ++ after, hbefore.trans hafter, ?_, ?_⟩
  · intro incident hincident
    exact (List.mem_append.mp hincident).elim (hcalm incident) (hcalms incident)
  · intro m
    rw [journalsOf, List.flatMap_append, ← journalsOf, ← journalsOf, hfirst, hsecond]
    by_cases hm : some n = some m
    · simp only [Deed.journalOf, if_pos hm]
    · simp only [Deed.journalOf, if_neg hm, List.append_nil]

/-- A run that has its turn goes on until its next wait, or to its end, and then its link is closed
in one go. -/
lemma unfolds_proceed {grant : Grant} {reply : Option Reply}
    {piece : Act Session (Session.Standing Outcome)}
    (hturn : Turn i grant reply piece ⟨d, 0, granted, [], []⟩)
    (hopen : reply = some .accepted →
      (i.dashboard.controls grant.session).link.connections = 0) :
    i.Unfolds (.act (some grant.session) (d.proceed grant.session grant.drawing piece).2)
      (Moment.instant ⟨(d.proceed grant.session grant.drawing piece).1, granted⟩) := by
  have hadvance := Step.advance hturn
  have hcalm : ¬ (reply = some .accepted ∧
      (i.dashboard.controls grant.session).link.connections ≠ 0) :=
    fun h => h.2 (hopen h.1)
  rw [ofTurn, if_neg hcalm] at hadvance
  rcases hpiece : d.advance grant.session grant.drawing piece with ⟨_ | status, after, journal⟩
  · have hproceed : d.proceed grant.session grant.drawing piece = (after, journal) := by
      simp only [Dashboard.proceed, hpiece]
    have hinstant : Instant.proceed ⟨d, 0, granted, [], []⟩ grant piece =
        (⟨after, 0, granted, [], []⟩, journal) := by
      simp only [Instant.proceed, hpiece]
    rw [hinstant] at hadvance
    rw [hproceed]
    exact unfolds_act hadvance
  · have hproceed : d.proceed grant.session grant.drawing piece =
        (((after.conclude grant.session status).release grant.session).1,
          journal ++ ((after.conclude grant.session status).release grant.session).2) := by
      simp only [Dashboard.proceed, hpiece, endRun]
    rw [hproceed]
    by_cases hconnections :
        ((after.conclude grant.session status).controls grant.session).link.connections = 0
    · rw [proceed_of_released hpiece hconnections] at hadvance
      exact unfolds_act hadvance
    · rw [proceed_of_closing hpiece hconnections] at hadvance
      exact (unfolds_act hadvance).trans (unfolds_act (.hungUp _ 0 granted [] grant))

/-- A rehearsal begins at once; any other run dials first, and goes on when that has ended. -/
lemma unfolds_begin {grant : Grant} (hn : grant.session < d.sessions.length)
    (hunopened : Session.Unopened (d.controls grant.session).aborted
      (d.controls grant.session).link) :
    (Moment.instant ⟨d, grant :: granted⟩).Unfolds
      (.act (some grant.session) (d.begin grant.session grant.drawing).2)
      (Moment.instant ⟨(d.begin grant.session grant.drawing).1, granted⟩) := by
  cases hlink : (d.controls grant.session).link with
  | rehearsal frames =>
    have hrehearsal : (d.session grant.session).IsRehearsal := ⟨frames, hlink⟩
    have hpiece : (do Session.open; Session.resume (draw grant.drawing) :
          Act Session (Session.Standing Outcome)) (d.session grant.session) =
        Session.resume (draw grant.drawing) (d.session grant.session) :=
      Act.bind_ok (Session.open_of_isRehearsal hrehearsal)
    have hbegin : d.begin grant.session grant.drawing =
        d.proceed grant.session grant.drawing (Session.resume (draw grant.drawing)) := by
      apply proceed_congr grant.drawing
      rw [session] at hpiece
      simp only [inSession, hpiece]
    rw [hbegin]
    exact unfolds_proceed (.begin grant hrehearsal)
      fun hsome => absurd hsome.symm (Option.some_ne_none _)
  | radio radio =>
    obtain ⟨hdial, hpiece⟩ := Session.open_bind_of_radio (s := d.session grant.session) hlink
      (Session.resume (draw grant.drawing))
    obtain ⟨hreply, -, hcontrols⟩ := inSession_eq hn hdial
    have hafter := inSession_after hn hdial rfl (hpiece.trans (by rw [List.nil_append]))
    rw [List.nil_append] at hafter
    have hbegin : d.begin grant.session grant.drawing =
        (d.inSession grant.session Session.dial).2.1.proceed grant.session grant.drawing
          (Session.opening d.air.nextConnect.1 grant.drawing) :=
      proceed_congr grant.drawing hafter
    have hdialed : Step (Moment.instant ⟨d, grant :: granted⟩) _ _ := .dial grant _ hreply
    have hturn : Turn
        ⟨(d.inSession grant.session Session.dial).2.1, 0, granted,
          [⟨grant, d.air.nextConnect.1⟩], []⟩
        grant (some d.air.nextConnect.1) (Session.opening d.air.nextConnect.1 grant.drawing)
        ⟨(d.inSession grant.session Session.dial).2.1, 0, granted, [], []⟩ :=
      @Turn.opened _ 0 granted [] [] [] grant d.air.nextConnect.1
    rw [hbegin]
    refine (unfolds_act hdialed).trans (unfolds_proceed hturn ?_)
    intro _
    rw [hcontrols]
    exact hunopened.connections

/-- Every step of a moment is made of steps of instants, as long as no run has been granted its
start whose link was opened already. -/
lemma unfolds_step {a b : Moment} {deed : Deed} (hstep : Moment.Step a deed b)
    (hgranted : ∀ grant ∈ a.granted, grant.session < a.dashboard.sessions.length ∧
      Session.Unopened (a.dashboard.controls grant.session).aborted
        (a.dashboard.controls grant.session).link) :
    a.instant.Unfolds deed b.instant := by
  cases hstep with
  | @answer d granted request hgrants =>
    by_cases hadmits : d.Admits request
    · obtain ⟨hasks, hcurrent⟩ := hadmits
      have hreceive : d.answer request = d.receive request.body := by
        rw [answer_of_asks hasks, serve, upload_of_current hcurrent]
      have hadmit : Step (Moment.instant ⟨d, granted⟩) .enter _ := .enter request ⟨hasks, hcurrent⟩
      have hreceived := @Step.receive d 0 granted [] [] request.body
      rw [hreceive, hcurrent]
      exact ⟨_, (Leads.single hadmit).snoc hreceived, by simp [IsCalm], fun n => rfl⟩
    · exact unfolds_act (@Step.answer ⟨d, 0, granted, [], []⟩ request hgrants hadmits
        (List.forall_mem_nil _))
  | @grant d granted drawing hcurrent hdrawing =>
    have hgrant : Step (Moment.instant ⟨d, granted⟩) _ _ := .grant drawing hcurrent hdrawing
    exact ⟨_, .single hgrant, by simp [IsCalm], fun n => rfl⟩
  | @begin d grant granted =>
    obtain ⟨hn, hunopened⟩ := hgranted grant List.mem_cons_self
    exact unfolds_begin hn hunopened
  | @settle d granted n hn hturn =>
    exact unfolds_act (@Step.settle ⟨d, 0, granted, [], []⟩ n hn hturn)
  | @wake d granted sleeper hsleeper =>
    cases sleeper with
    | drawing run =>
      exact unfolds_proceed (@Turn.wake d 0 granted [] [] run (mem_sleepers_drawing hsleeper))
        fun hsome => absurd hsome.symm (Option.some_ne_none _)
    | link n alarm =>
      obtain ⟨hn, -⟩ := mem_sleepers_link.mp hsleeper
      have hredial := @Step.redial ⟨d, 0, granted, [], []⟩ n alarm hsleeper
      have hjournal : (d.inSession n (Session.redial alarm)).2.2 = [] := rfl
      have hlength := length_sessions_inSession d n (Session.redial alarm)
      have hredialed := @Step.redialed
        ⟨(d.inSession n (Session.redial alarm)).2.1, 0, granted, [], []⟩ n
        (hn.trans_eq hlength.symm)
      have hwake : d.inSession n (Session.wake alarm) = _ :=
        @inSession_after d n _ _ _ _ (Session.redial alarm) _ Session.redialed _ hn rfl rfl
          (Act.bind_ok rfl)
      rw [hjournal] at hredial
      have hboth := (unfolds_act hredial).trans (unfolds_act hredialed)
      simp only [Dashboard.wake, hwake]
      exact hboth

end Unfolds

/-- Every moment is an instant, which comes about calmly and at which every session has written the
same. -/
lemma exists_reached_of_moment {m : Moment} {deeds : List Deed} (h : m.Reached deeds) :
    ∃ incidents, m.instant.Reached incidents ∧ (∀ incident ∈ incidents, incident.IsCalm) ∧
      ∀ n, journalsOf n incidents = Deed.journalsOf n deeds := by
  obtain ⟨settings, settingsFile, disk, air, hleads⟩ := h
  induction hleads with
  | refl =>
    exact ⟨[], ⟨settings, settingsFile, disk, air, .refl _⟩, List.forall_mem_nil _, fun _ => rfl⟩
  | @snoc m next deeds deed hleads hstep ih =>
    obtain ⟨incidents, hreached, hcalm, hjournals⟩ := ih
    have hgranted (grant : Grant) (hgrant : grant ∈ m.granted) :
        grant.session < m.dashboard.sessions.length ∧
          Session.Unopened (m.dashboard.controls grant.session).aborted
            (m.dashboard.controls grant.session).link := by
      have hpunctual := punctual_of_isCalm hcalm grant.session
      have hunopened := (tidy_of_reached hreached).allows _ hpunctual .granted ⟨grant, hgrant, rfl⟩
      obtain ⟨before, after, hsplit⟩ := List.append_of_mem hgrant
      have hunfinished : m.instant.unfinished =
          before ++ grant :: (after ++ m.dashboard.runs.map Run.grant) := by
        simp [unfinished, Moment.instant, hsplit]
      exact ⟨((single_of_reached hreached).of_split hunfinished).2.2.2, hunopened⟩
    obtain ⟨more, hmore, hcalms, hjournal⟩ := unfolds_step hstep hgranted
    obtain ⟨settings', settingsFile', disk', air', hstart⟩ := hreached
    refine ⟨incidents ++ more, ⟨settings', settingsFile', disk', air', hstart.trans hmore⟩, ?_, ?_⟩
    · intro incident hincident
      exact (List.mem_append.mp hincident).elim (hcalm incident) (hcalms incident)
    · intro n
      rw [journalsOf, List.flatMap_append, ← journalsOf, ← journalsOf, hjournals, hjournal,
        Deed.journalsOf, Deed.journalsOf, List.flatMap_append, List.flatMap_singleton]

end Instant

/-! ### What holds of all moments -/

namespace Moment

/-- Only the session in use can have a connection or a background task, and without one no run is
granted or in progress. -/
structure Tidy (m : Moment) : Prop where
  inUse : ∀ n, m.dashboard.current = some n → n < m.dashboard.sessions.length
  others : ∀ n, m.dashboard.current ≠ some n → (m.dashboard.controls n).link.IsClosed
  unused : m.dashboard.current = none → m.granted = [] ∧ m.dashboard.runs = []

/-- Every moment is tidy. -/
lemma tidy_of_reached {m : Moment} {deeds : List Deed} (h : m.Reached deeds) : m.Tidy := by
  obtain ⟨incidents, hreached, hcalm, -⟩ := Instant.exists_reached_of_moment h
  have hsingle := Instant.single_of_reached hreached
  refine ⟨?_, ?_, ?_⟩
  · intro n hcurrent
    exact (hsingle.of_current_eq_some hcurrent).choose_spec.2
  · intro n hcurrent
    exact (Instant.tidy_of_reached hreached).allows n (Incident.punctual_of_isCalm hcalm n) .idle
      hcurrent
  · intro hcurrent
    have hnone := Instant.unfinished_eq_nil.mp (hsingle.of_current_eq_none hcurrent)
    exact ⟨hnone.1, hnone.2.2.1⟩

/-- No connection is lost at moments: each that a session opened has come to an end, or is that of
its link. -/
theorem opened_of_reached {m : Moment} {deeds : List Deed} (h : m.Reached deeds) (n : Nat) :
    (Deed.journalsOf n deeds).opened =
      (Deed.journalsOf n deeds).ended + (m.dashboard.controls n).link.connections := by
  obtain ⟨incidents, hreached, hcalm, hjournals⟩ := Instant.exists_reached_of_moment h
  have hbalance := (Instant.tidy_of_reached hreached).balance n
    (Incident.punctual_of_isCalm hcalm n)
  rw [Incident.replacedIn_of_isCalm hcalm, hjournals, Nat.add_zero] at hbalance
  exact hbalance

end Moment

end PenRover
