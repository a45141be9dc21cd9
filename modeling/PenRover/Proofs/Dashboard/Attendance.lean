import PenRover.Proofs.Dashboard.Embedding

/-!
# Rehearsals from the dashboard

A rehearsal that is started while nothing else goes on has the dashboard to itself: no link has a
background task, so the run is the only one who sleeps, and every alarm that rings is its own
(`sleepers_of_rehearses`).  `attend` is the time from then on: while a wait is pending a stop may be
asked for, and then the alarm rings.

Each round of it is one piece of the run, and what is left of the script is rehearsed from the wait
at which the run stands (`tick_of_rehearses`).  The number of waits that are left carries the
induction to the end of the run (`attend_of_rehearses`).
-/

namespace PenRover

open Script

/-- The status after a run with this outcome. -/
def Outcome.status : Outcome → Status
  | .completed => .finished
  | .cancelled => .aborted

namespace Dashboard

/-- While a run waits, from its wait number `k` on: a stop is asked for if the wait is one of those,
and the first alarm rings.  This goes on for so many waits, or until there is no run. -/
def attend (stop : Request) (stopped : Finset Nat) (rounds k : Nat) (d : Dashboard) :
    Dashboard × Journal :=
  match rounds with
  | 0 => (d, [])
  | rounds + 1 =>
    if d.runs.isEmpty then (d, [])
    else
      let (d, halting) := if k ∈ stopped then (d.handle stop).2 else (d, [])
      let (_, d, piece) := d.tick
      let (d, rest) := attend stop stopped rounds (k + 1) d
      (d, halting ++ piece ++ rest)

/-- Nothing is drawn, and the status is that after a run with this outcome. -/
structure Over (d : Dashboard) (outcome : Outcome) : Prop where
  runs : d.runs = []
  current : d.current = none
  status : d.status = outcome.status

/-- The dashboard rehearses the run, which is the only one, with these settings, and its flag is
like this.  All other sessions are over. -/
structure Rehearses (d : Dashboard) (settings : Settings) (run : Run) (up : Bool) : Prop where
  runs : d.runs = [run]
  draws : run.Draws
  underway : d.Underway run.session run.drawing
  isRehearsal : (d.session run.session).IsRehearsal
  settings_eq : d.settings = settings
  aborted : (d.controls run.session).aborted = up
  others : ∀ k, run.session ≠ k → (d.controls k).link.IsClosed

variable {d : Dashboard} {settings : Settings} {run : Run} {up : Bool}

/-! ### Nobody else -/

/-- A rehearsal has no link to close. -/
lemma isClosed_of_isRehearsal {s : Session} (h : s.IsRehearsal) : s.link.IsClosed := by
  obtain ⟨frames, hlink⟩ := h
  rw [hlink]
  trivial

/-- All links are closed when one session rehearses and the links of the others are closed. -/
lemma isClosed_of_others {n : Nat} (hself : (d.session n).IsRehearsal)
    (hothers : ∀ k, n ≠ k → (d.controls k).link.IsClosed) (k : Nat) :
    (d.controls k).link.IsClosed := by
  by_cases hk : n = k
  · subst hk
    exact isClosed_of_isRehearsal hself
  · exact hothers k hk

/-- While a run is rehearsed all links are closed. -/
lemma Rehearses.isClosed (h : d.Rehearses settings run up) (k : Nat) :
    (d.controls k).link.IsClosed := isClosed_of_others h.isRehearsal h.others k

/-- While a run is rehearsed nobody else waits. -/
lemma sleepers_of_rehearses (h : d.Rehearses settings run up) : d.sleepers = [.drawing run] := by
  have hlinks : (List.range d.sessions.length).filterMap
      (fun n => (d.controls n).link.alarm?.map (Sleeper.link n)) = [] := by
    simp [(h.isClosed _).alarm?]
  rw [sleepers, hlinks, h.runs]
  rfl

/-- Nothing settles where all links are closed. -/
lemma settleSessions_of_isClosed (h : ∀ k, (d.controls k).link.IsClosed) (numbers : List Nat)
    (hnumbers : ∀ n ∈ numbers, n < d.sessions.length) : d.settleSessions numbers = (d, []) := by
  induction numbers with
  | nil => rfl
  | cons n rest ih =>
    have hsettle := inSession_eq_self (hnumbers n List.mem_cons_self)
      (Session.settle_of_isStill (h n).isStill)
    rw [settleSessions, hsettle]
    simp [ih fun m hm => hnumbers m (List.mem_cons_of_mem _ hm)]

/-- While all links are closed no background task begins. -/
lemma settle_of_isClosed (h : ∀ k, (d.controls k).link.IsClosed) : d.settle = (d, []) :=
  settleSessions_of_isClosed h _ fun _ hn => List.mem_range.mp hn

/-! ### One piece -/

/-- What a session does leaves the settings as they are. -/
lemma settings_of_inSession {α : Type} {n : Nat} {act : Act Session α} {result : Except Fault α}
    {after : Dashboard} {journal : Journal} (h : d.inSession n act = (result, after, journal)) :
    after.settings = d.settings := by
  rw [inSession, Prod.mk.injEq, Prod.mk.injEq] at h
  rw [← h.2.1]

/-- A session whose link is a rehearsal rehearses. -/
lemma isRehearsal_session {n : Nat} {t : Session} (hself : d.controls n = ⟨t.link, t.aborted⟩)
    (ht : t.IsRehearsal) : (d.session n).IsRehearsal := by
  obtain ⟨frames, hframes⟩ := ht
  exact ⟨frames, (congrArg Controls.link hself).trans hframes⟩

/-- There is nothing to hang up after a rehearsal. -/
lemma release_of_isRehearsal {n : Nat} (hn : n < d.sessions.length)
    (hlink : (d.session n).IsRehearsal) : d.release n = ({ d with current := none }, []) := by
  rw [release, inSession_eq_self hn (Session.hangUp_of_isRehearsal hlink)]

/-- The end of a rehearsal shows nothing. -/
lemma endRun_of_isRehearsal {n : Nat} (hn : n < d.sessions.length)
    (hlink : (d.session n).IsRehearsal) (status : Status) (journal : Journal) :
    d.endRun n status journal = ({ d with status, current := none }, journal) := by
  have hconclude : d.conclude n status = { d with status } := by
    rw [conclude, inSession_eq_self hn (Session.leave_of_isRehearsal hlink)]
  have hrelease : Dashboard.release { d with status } n =
      ({ d with status, current := none }, []) := release_of_isRehearsal hn hlink
  rw [endRun, hconclude, hrelease]
  simp only [List.append_nil]

/-- A run that ends as its flag has it leaves the status of its outcome, for a stop has set it. -/
lemma proceed_of_ended {n : Nat} {piece : Act Session (Session.Standing Outcome)}
    {after : Dashboard} {journal : Journal}
    (h : d.inSession n piece = (.ok (.ended (Outcome.ofFlag up)), after, journal))
    (hstatus : up = true → after.status = .aborted) (drawing : List Command) :
    d.proceed n drawing piece = after.endRun n (Outcome.ofFlag up).status
      (journal ++ [.note (.drawingEnded (Outcome.ofFlag up))]) := by
  rw [proceed_eq, h]
  cases up with
  | false => rfl
  | true =>
    simp only [Outcome.ofFlag, if_true, hstatus rfl]
    rfl

/-- One piece of a rehearsal that comes to a good end: it ends the run, or it leaves a run that
waits and is rehearsed from the entrance to this wait on.  No link has a background task. -/
lemma proceed_rehearsal {n : Nat} {drawing : List Command}
    {piece : Act Session (Session.Standing Outcome)} (hdraws : IsPiece drawing piece)
    {script : Script Outcome} {stops : Nat → Bool} {p q : Progress} {outcome : Outcome}
    {events : List Event} (hpiece : piece (d.session n) = Session.resume script (d.session n))
    (hunderway : d.Underway n drawing) (hruns : d.runs = [])
    (hothers : ∀ k, n ≠ k → (d.controls k).link.IsClosed) (hlink : (d.session n).IsRehearsal)
    (hup : (d.controls n).aborted = p.aborted)
    (hrehearse : script.rehearse d.settings stops p = (.ok outcome, q, events)) :
    (∀ k, ((d.proceed n drawing piece).1.controls k).link.IsClosed) ∧
      ((d.proceed n drawing piece).1.Over outcome ∧
        Journal.events (d.proceed n drawing piece).2 = events ∨
      ∃ run first time rest, (d.proceed n drawing piece).1.Rehearses d.settings run p.aborted ∧
        Journal.events (d.proceed n drawing piece).2 = first ++ [.wait time] ∧
        run.next.rehearse d.settings stops (p.enter stops) = (.ok outcome, q, rest) ∧
        events = first ++ p.entrance stops time ++ rest) := by
  have hn := hunderway.started
  have hafterwards := hunderway.inSession (m := n) hdraws.steady
  have hother {k : Nat} (hk : n ≠ k) : ((d.inSession n piece).2.1.controls k).link.IsClosed := by
    rw [controls_inSession_of_ne d n piece hk]
    exact hothers k hk
  rcases hafter : d.inSession n piece with ⟨result, after, journal⟩
  obtain ⟨-, hruns', -, hsame, hlength⟩ := frame_inSession d n piece hafter
  have hsettings := settings_of_inSession hafter
  rw [hafter] at hother hafterwards
  rw [hruns] at hruns'
  obtain ⟨t, written, hresume, ht, hevents⟩ |
    ⟨alarm, next, t, written, first, time, rest, hresume, ht, hevents, hrest, hsplit⟩ :=
    Session.resume_rehearsal stops script hlink hup hrehearse <;>
  rw [← hpiece] at hresume <;>
  obtain ⟨hresult, hjournal, hself⟩ := inSession_eq hn hresume <;>
  rw [hafter] at hresult hjournal hself <;>
  dsimp only at hresult hjournal hself <;>
  subst hresult hjournal <;>
  have hrehearsal := isRehearsal_session hself ht
  · -- the piece ends the script, and the outcome is that of the flag
    obtain rfl : outcome = Outcome.ofFlag p.aborted :=
      (hdraws.ends hresume).trans (congrArg Outcome.ofFlag hup)
    rw [proceed_of_ended hafter fun hp => hsame.trans (hunderway.stopped (hup.trans hp)).2,
      endRun_of_isRehearsal (hunderway.started.trans_eq hlength.symm) hrehearsal]
    refine ⟨isClosed_of_others hrehearsal fun _ hk => hother hk, .inl ⟨⟨hruns', rfl, rfl⟩, ?_⟩⟩
    rw [Journal.events_append, hevents]
    exact List.append_nil _
  · -- the piece ends in a wait, and the flag is as it was
    have hkept : (after.controls n).aborted = p.aborted := by
      rw [hself]
      exact (hdraws.steady.aborted_eq hresume).trans hup
    simp only [proceed_eq, hafter]
    refine ⟨isClosed_of_others hrehearsal fun _ hk => hother hk, .inr ⟨⟨n, drawing, alarm, next⟩,
      first, time, rest, ⟨?_, hdraws.draws n hresume, ?_, hrehearsal, hsettings, hkept,
      fun _ hk => hother hk⟩, hevents, hrest, hsplit⟩⟩
    · rw [hruns', List.nil_append]
    · exact ⟨hafterwards.current, hafterwards.started, hafterwards.running, hafterwards.stopped⟩

/-! ### Rounds -/

/-- Nothing settles behind a request when all links are closed. -/
lemma handle_of_isClosed {request : Request}
    (h : ∀ k, ((d.answer request).2.1.controls k).link.IsClosed) :
    (d.handle request).2 = (d.answer request).2 := by
  simp only [handle, settle_of_isClosed h, List.append_nil]

/-- A stop of a rehearsal drives a stop frame, unless the flag is up already, and raises the
flag. -/
lemma handle_stop_of_rehearses (h : d.Rehearses settings run up) {stop : Request}
    (hstop : Asks stop .stop) :
    (d.handle stop).2.1.Rehearses settings run true ∧
      Journal.events (d.handle stop).2.2 = if up then [] else [.frame .stop] := by
  obtain ⟨t, journal, hresult, ht, hevents⟩ := Session.stop_rehearsal (d.session run.session)
    d.settings (d.session run.session).progress ⟨h.isRehearsal, rfl, rfl⟩
  obtain ⟨hok, hjournal, hself⟩ := inSession_eq h.underway.started hresult
  have hother {k : Nat} (hk : run.session ≠ k) :=
    controls_inSession_of_ne d run.session Session.stop hk
  rcases hafter : d.inSession run.session Session.stop with ⟨result, after, written⟩
  obtain ⟨hcurrent, hruns, -, -, hlength⟩ := frame_inSession d _ _ hafter
  have hsettings := settings_of_inSession hafter
  rw [hafter] at hok hjournal hself hother
  dsimp only at hok hjournal hself hother
  subst hok hjournal
  have hanswer : (d.answer stop).2 =
      ({ after with drawing := none, status := .aborted }, written ++ [.note .drawingStopped]) := by
    simp only [answer_of_asks hstop, serve, Dashboard.stop, h.underway.current, hafter, discard]
  have hdown : (d.session run.session).progress.aborted = up := h.aborted
  have hup : (after.controls run.session).aborted = true :=
    (congrArg Controls.aborted hself).trans (congrArg Progress.aborted ht.progress_eq)
  have hunderway : Underway { after with drawing := none, status := .aborted } run.session
      run.drawing := by
    refine ⟨hcurrent.trans h.underway.current, ?_, ?_, fun _ => ⟨rfl, rfl⟩⟩
    · exact lt_of_lt_of_eq h.underway.started hlength.symm
    · intro hlow
      exact absurd (hup.symm.trans hlow) (by decide)
  have hafterwards : Rehearses { after with drawing := none, status := .aborted }
      settings run true :=
    ⟨hruns.trans h.runs, h.draws, hunderway, isRehearsal_session hself ht.isRehearsal,
      hsettings.trans h.settings_eq, hup, fun k hk => (hother hk).symm ▸ h.others k hk⟩
  have hhandle : (d.handle stop).2 = (d.answer stop).2 :=
    handle_of_isClosed (by rw [hanswer]; exact hafterwards.isClosed)
  rw [hhandle, hanswer]
  refine ⟨hafterwards, ?_⟩
  rw [Journal.events_append, hevents, hdown]
  exact List.append_nil _

/-- When the alarm of a rehearsal rings, one piece of the run follows. -/
lemma tick_of_rehearses (h : d.Rehearses settings run up) {stops : Nat → Bool} {p q : Progress}
    {outcome : Outcome} {events : List Event} (hp : p.aborted = up)
    (hrehearse : run.next.rehearse settings stops p = (.ok outcome, q, events)) :
    (d.tick.2.1.Over outcome ∧ Journal.events d.tick.2.2 = events) ∨
      ∃ later first time rest, d.tick.2.1.Rehearses settings later up ∧
        Journal.events d.tick.2.2 = first ++ [.wait time] ∧
        later.next.rehearse settings stops (p.enter stops) = (.ok outcome, q, rest) ∧
        events = first ++ p.entrance stops time ++ rest := by
  subst hp
  have htick : d.tick.2 = d.wakeAndSettle (.drawing run) := by
    simp only [tick, sleepers_of_rehearses h, Sleeper.first?]
  have hothers : d.runs.filter (fun other => other.session != run.session) = [] := by
    simp [h.runs]
  have hwake : d.wake (.drawing run) =
      proceed { d with runs := [], clock := d.clock.ring run.alarm } run.session run.drawing
        (Session.resume run.next) := by
    simp only [wake, hothers]
  have hunderway : Underway { d with runs := [], clock := d.clock.ring run.alarm } run.session
      run.drawing :=
    ⟨h.underway.current, h.underway.started, h.underway.running, h.underway.stopped⟩
  obtain ⟨hclosed, hpiece⟩ := proceed_rehearsal
    (d := { d with runs := [], clock := d.clock.ring run.alarm }) h.draws.isPiece rfl hunderway rfl
    h.others h.isRehearsal h.aborted (h.settings_eq ▸ hrehearse)
  rw [← hwake] at hclosed hpiece
  have hsettle : d.wakeAndSettle (.drawing run) = d.wake (.drawing run) := by
    simp only [wakeAndSettle, settle_of_isClosed hclosed, List.append_nil]
  have hsettings : { d with runs := [], clock := d.clock.ring run.alarm }.settings = settings :=
    h.settings_eq
  rw [hsettings] at hpiece
  rwa [htick, hsettle]

/-- There is nothing to attend when nothing is drawn. -/
lemma attend_of_runs_eq_nil (h : d.runs = []) (stop : Request) (stopped : Finset Nat)
    (rounds k : Nat) : attend stop stopped rounds k d = (d, []) := by
  cases rounds with
  | zero => rfl
  | succ rounds => simp [attend, h]

/-- One round: a stop, if this wait is to be stopped, and then the alarm. -/
lemma attend_succ (hruns : d.runs ≠ []) (stop : Request) (stopped : Finset Nat) (rounds k : Nat)
    {between : Dashboard} {halting : Journal}
    (hhalt : (if k ∈ stopped then (d.handle stop).2 else (d, [])) = (between, halting)) :
    attend stop stopped (rounds + 1) k d =
      ((attend stop stopped rounds (k + 1) between.tick.2.1).1,
        halting ++ between.tick.2.2 ++
          (attend stop stopped rounds (k + 1) between.tick.2.1).2) := by
  have hbusy : d.runs.isEmpty = false := by simpa using hruns
  rw [attend, hbusy, if_neg Bool.false_ne_true]
  simp only [hhalt]

/-- Those who stop a wait have their turn before its alarm rings. -/
lemma halt_of_rehearses {stop : Request} (hstop : Asks stop .stop) {stopped : Finset Nat}
    {p : Progress} (h : d.Rehearses settings run p.aborted) :
    ∃ between halting,
      (if p.begun + 1 ∈ stopped then (d.handle stop).2 else (d, [])) = (between, halting) ∧
      between.Rehearses settings run (p.enter fun n => decide (n ∈ stopped)).aborted ∧
      ∀ time, .wait time :: Journal.events halting =
        p.entrance (fun n => decide (n ∈ stopped)) time := by
  by_cases hmem : p.begun + 1 ∈ stopped
  · obtain ⟨hafter, hevents⟩ := handle_stop_of_rehearses h hstop
    rcases hhandle : (d.handle stop).2 with ⟨between, halting⟩
    rw [hhandle] at hafter hevents
    refine ⟨between, halting, if_pos hmem, ?_, ?_⟩
    · simpa [hmem] using hafter
    · intro time
      rw [hevents]
      cases hup : p.aborted <;> simp [Progress.entrance, hmem, hup]
  · refine ⟨d, [], if_neg hmem, ?_, ?_⟩
    · simpa [hmem] using h
    · intro time
      simp [Progress.entrance, hmem]

/-- The rounds that are left of a rehearsal that stands at its wait number `p.begun + 1`, before it
may be stopped there. -/
lemma attend_of_rehearses {stop : Request} (hstop : Asks stop .stop) (stopped : Finset Nat)
    {p q : Progress} {outcome : Outcome} {rest : List Event}
    (h : d.Rehearses settings run p.aborted)
    (hrehearse : run.next.rehearse settings (fun n => decide (n ∈ stopped))
      (p.enter fun n => decide (n ∈ stopped)) = (.ok outcome, q, rest)) :
    ∃ enough e journal, (∀ rounds, enough ≤ rounds →
        attend stop stopped rounds (p.begun + 1) d = (e, journal)) ∧
      e.Over outcome ∧
      ∀ time, .wait time :: Journal.events journal =
        p.entrance (fun n => decide (n ∈ stopped)) time ++ rest := by
  -- every further round begins at a wait, so the number of waits that are left goes down
  induction hwaits : waitsOf rest using Nat.strong_induction_on generalizing d run p rest with
  | _ waits ih =>
    have hruns : d.runs ≠ [] := by
      rw [h.runs]
      exact List.cons_ne_nil _ _
    obtain ⟨between, halting, hhalt, hbetween, hentrance⟩ := halt_of_rehearses hstop h
    obtain ⟨hover, hevents⟩ | ⟨later, first, time, more, hlater, hevents, hmore, hsplit⟩ :=
      tick_of_rehearses hbetween rfl hrehearse
    · refine ⟨1, between.tick.2.1, halting ++ between.tick.2.2, ?_, hover, ?_⟩
      · intro rounds hrounds
        obtain ⟨rounds, rfl⟩ := Nat.exists_eq_add_of_le' hrounds
        rw [attend_succ hruns stop stopped rounds _ hhalt, attend_of_runs_eq_nil hover.runs,
          List.append_nil]
      · intro time
        rw [Journal.events_append, hevents, ← List.cons_append, hentrance]
    · have hfewer : waitsOf more < waits := by
        rw [← hwaits, hsplit]
        simp only [waitsOf_append, Progress.waitsOf_entrance]
        omega
      obtain ⟨enough, e, journal, hattend, hover, hjournal⟩ :=
        ih _ hfewer hlater hmore rfl
      rw [Progress.begun_enter] at hattend
      refine ⟨enough + 1, e, halting ++ between.tick.2.2 ++ journal, ?_, hover, ?_⟩
      · intro rounds hrounds
        obtain ⟨rounds, rfl⟩ := Nat.exists_eq_add_of_le' (Nat.le_of_add_left_le hrounds)
        rw [attend_succ hruns stop stopped rounds _ hhalt, hattend rounds (by omega)]
      · intro start
        calc Event.wait start :: Journal.events (halting ++ between.tick.2.2 ++ journal)
            = p.entrance (fun n => decide (n ∈ stopped)) start ++
                (first ++ (.wait time :: Journal.events journal)) := by
              rw [Journal.events_append, Journal.events_append, hevents, ← hentrance start]
              simp
          _ = _ := by rw [hjournal time, hsplit, List.append_assoc]

/-! ### From the start on -/

/-- A start, and then the time until its run is over, or until so many waits have passed. -/
def perform (start stop : Request) (stopped : Finset Nat) (rounds : Nat) (d : Dashboard) :
    Dashboard × Journal :=
  let (_, d, journal) := d.handle start
  let (d, rest) := attend stop stopped rounds 1 d
  (d, journal ++ rest)

/-- A rehearsal that is started while no session is in use goes as the script is followed, whatever
has happened before. -/
lemma perform_of_rehearse {granted : List Grant} (h : Moment.Tidy ⟨d, granted⟩)
    (hcurrent : d.current = none) {drawing : List Command} (hdrawing : d.drawing = some drawing)
    (hdry : d.settings.dryRun.isTrue = true) {start stop : Request} (hstart : Asks start .start)
    (hstop : Asks stop .stop) (stopped : Finset Nat) {q : Progress} {outcome : Outcome}
    {events : List Event}
    (hrehearse : (draw drawing).rehearse d.settings (fun n => decide (n ∈ stopped)) ⟨0, false⟩ =
      (.ok outcome, q, events)) :
    ∃ enough e journal, (∀ rounds, enough ≤ rounds →
        perform start stop stopped rounds d = (e, journal)) ∧
      e.Over outcome ∧ Journal.events journal = events := by
  have hothers (k : Nat) (hk : d.sessions.length ≠ k) : (d.engage.controls k).link.IsClosed := by
    rw [controls_engage_of_ne hk.symm]
    apply h.others k
    intro hsome
    exact absurd (hsome.symm.trans hcurrent) (Option.some_ne_none k)
  have hnew := controls_engage_self d
  have hlink : (d.engage.session d.sessions.length).IsRehearsal := by
    refine ⟨[], (congrArg Controls.link hnew).trans ?_⟩
    rw [Link.ofSettings, if_pos hdry]
  obtain ⟨hclosed, hpiece⟩ := proceed_rehearsal (d := d.engage) (p := ⟨0, false⟩)
    ((isPiece_draw drawing).bind Session.steady_open)
    (Act.bind_ok (Session.open_of_isRehearsal hlink)) (underway_engage hdrawing)
    (h.unused hcurrent).2 hothers hlink (congrArg Controls.aborted hnew) hrehearse
  have hanswer : (d.answer start).2 = d.engage.begin d.sessions.length drawing := by
    rw [answer_of_asks hstart, serve, start_of_grants hcurrent hdrawing]
  have hhandle : (d.handle start).2 = (d.answer start).2 :=
    handle_of_isClosed (by rw [hanswer]; exact hclosed)
  rw [← Dashboard.begin] at hpiece
  have hperform (rounds : Nat) : perform start stop stopped rounds d =
      ((attend stop stopped rounds 1 (d.engage.begin d.sessions.length drawing).1).1,
        (d.engage.begin d.sessions.length drawing).2 ++
          (attend stop stopped rounds 1 (d.engage.begin d.sessions.length drawing).1).2) := by
    simp only [perform, hhandle, hanswer]
  obtain ⟨hover, hevents⟩ | ⟨run, first, time, rest, hstands, hevents, hrest, hsplit⟩ := hpiece
  · refine ⟨0, _, _, ?_, hover, hevents⟩
    intro rounds _
    rw [hperform, attend_of_runs_eq_nil hover.runs, List.append_nil]
  · obtain ⟨enough, e, journal, hattend, hover, hjournal⟩ :=
      attend_of_rehearses hstop stopped hstands hrest
    refine ⟨enough, e, (d.engage.begin d.sessions.length drawing).2 ++ journal, ?_, hover, ?_⟩
    · intro rounds hrounds
      rw [hperform, hattend rounds hrounds]
    · rw [Journal.events_append, hevents, hsplit, List.append_assoc, List.append_assoc,
        ← hjournal time]
      rfl

end Dashboard

end PenRover
