import PenRover.CommandLine.Program
import PenRover.Proofs.Motion.Rehearsal

/-!
# Rehearsals from the console

A rehearsal has no background task, so from the console only the stops are left of what happens
during its waits.  A stop that was asked for has its turn in the wait in which it was asked for, or
in a later one if that wait was over before, or after the run, or never.  What comes of it depends
only on the waits in which some stop has its turn (`Console.heard`): the console does what
`Script.rehearse` says of a session that is stopped at these waits (`Console.follows_stage`), and
after the run there may be one more stop frame (`Console.late`).

If no wait is hasty, these are the waits at which the user interrupts, and no stop is late
(`Console.heard_of_patient`).
-/

namespace PenRover

open Script

/-- How many of the stops that are asked for have had no turn when the wait is over. -/
def Pause.leaves (pause : Pause) (asked : Nat) : Nat :=
  if pause.hasty then asked - pause.turns.count .stop else 0

namespace Console

/-- What happens during the wait of a rehearsal before which so many waits have begun. -/
def pauseAt (pauses : List Pause) (n : Nat) : Pause := pauses.getD n ⟨[], false⟩

/-- How many stops are asked for when so many waits of a rehearsal are over. -/
def unheard (interrupts : List Nat) (pauses : List Pause) : Nat → Nat
  | 0 => 0
  | n + 1 =>
    (pauseAt pauses n).leaves (unheard interrupts pauses n + (interrupts.contains (n + 1)).toNat)

/-- The waits of a rehearsal in which a stop has its turn. -/
def heard (interrupts : List Nat) (pauses : List Pause) : Nat → Bool
  | 0 => false
  | n + 1 =>
    unheard interrupts pauses (n + 1) <
      unheard interrupts pauses n + (interrupts.contains (n + 1)).toNat

/-- After so many waits the run is over, and a stop has its turn only then. -/
def late (interrupts : List Nat) (pauses : List Pause) (n : Nat) : Bool :=
  unheard interrupts pauses n - (pauseAt pauses n).turns.count .stop < unheard interrupts pauses n

/-- If no wait is hasty, no stop is left when a wait is over. -/
lemma unheard_of_patient {pauses : List Pause} (h : ∀ pause ∈ pauses, pause.hasty = false)
    (interrupts : List Nat) (n : Nat) : unheard interrupts pauses n = 0 := by
  cases n with
  | zero => rfl
  | succ n =>
    have hpatient : (pauseAt pauses n).hasty = false := by
      rw [pauseAt, List.getD_eq_getElem?_getD]
      cases hget : pauses[n]? with
      | none => rfl
      | some pause => exact h pause (List.mem_of_getElem? hget)
    rw [unheard, Pause.leaves, hpatient, if_neg Bool.false_ne_true]

/-- If no wait is hasty, every stop has its turn in the wait in which it was asked for. -/
lemma heard_of_patient {pauses : List Pause} (h : ∀ pause ∈ pauses, pause.hasty = false)
    (interrupts : List Nat) {n : Nat} (hn : 0 < n) :
    heard interrupts pauses n = interrupts.contains n := by
  obtain ⟨n, rfl⟩ := Nat.exists_eq_add_of_lt hn
  rw [Nat.zero_add, heard, unheard_of_patient h, unheard_of_patient h, Nat.zero_add]
  cases interrupts.contains (n + 1) <;> rfl

/-- Where no wait is over at once, no stop is late. -/
lemma late_of_patient {pauses : List Pause} (h : ∀ pause ∈ pauses, pause.hasty = false)
    (interrupts : List Nat) (n : Nat) : late interrupts pauses n = false := by
  rw [late, unheard_of_patient h]
  simp

end Console

namespace Script.Progress

/-- The progress when a stop has had its turn, or none has. -/
def halted (p : Progress) (stopped : Bool) : Progress := { p with aborted := p.aborted || stopped }

/-- What such a stop shows: a stop frame, if the flag was still down. -/
def halting (p : Progress) (stopped : Bool) : List Event :=
  if stopped && !p.aborted then [.frame .stop] else []

/-- Stops that have their turn one after another halt like one of them. -/
lemma halted_halted (p : Progress) (first second : Bool) :
    (p.halted first).halted second = p.halted (first || second) := by
  simp [halted, Bool.or_assoc]

/-- Stops that have their turn one after another show one stop frame. -/
lemma halting_append (p : Progress) (first second : Bool) :
    p.halting first ++ (p.halted first).halting second = p.halting (first || second) := by
  cases hup : p.aborted <;> cases first <;> cases second <;> simp [halting, halted, hup]

/-- Where no stop has its turn, the progress stays as it is. -/
@[simp] lemma halted_false (p : Progress) : p.halted false = p := by
  simp [halted]

/-- Where no stop has its turn, nothing shows. -/
@[simp] lemma halting_false (p : Progress) : p.halting false = [] := rfl

end Script.Progress

namespace Console

/-- What the session of a console does, given its result. -/
lemma inSession_eq {α : Type} {act : Act Session α} {c : Console} {result : Except Fault α}
    {s : Session} {journal : Journal} (h : act c.session = (result, s, journal)) :
    inSession act c = (result, { c with session := s }, journal) := by
  simp only [inSession, h]

/-! ### Turns -/

section Turns

variable {settings : Settings} {c : Console} {p : Progress}

/-- All stops that have had their turn ended well. -/
def Fine (stops : List (Except Fault Unit)) : Prop := ∀ result ∈ stops, result = .ok ()

/-- A rehearsal has no background task that could have a turn. -/
lemma take_of_ne_stop (h : c.session.IsRehearsal) {turn : Turn} (hturn : turn ≠ .stop) :
    take turn c = (.ok (), c, []) := by
  have hsettle : inSession Session.settle c = (.ok (), c, []) :=
    inSession_eq (Session.settle_of_isRehearsal h)
  obtain ⟨frames, hlink⟩ := h
  cases turn with
  | stop => exact absurd rfl hturn
  | settle => simp [take, background, bind, Act.bind, Act.state, hsettle, pure, Act.pure]
  | wake => simp [take, bind, Act.bind, Act.state, hlink, Link.alarm?, pure, Act.pure]

/-- A stop has its turn while the drawing waits, if one was asked for. -/
lemma take_stop_of_rehearses (h : c.session.Rehearses settings p) (hstops : Fine c.stops) :
    ∃ s stops journal,
      take .stop c = (.ok (), { c with session := s, asked := c.asked - 1, stops }, journal) ∧
      s.Rehearses settings (p.halted (c.asked - 1 < c.asked)) ∧ Fine stops ∧
      Journal.events journal = p.halting (c.asked - 1 < c.asked) := by
  cases hasked : c.asked with
  | zero =>
    refine ⟨c.session, c.stops, [], ?_, by simpa using h, hstops, by simp⟩
    simp only [take, stop, hasked]
    rw [Nat.zero_sub, ← hasked]
  | succ asked =>
    obtain ⟨s, journal, hstop, hs, hevents⟩ := Session.stop_rehearsal c.session settings p h
    have hless : decide (asked + 1 - 1 < asked + 1) = true := decide_eq_true (Nat.lt_succ_self _)
    rw [hless]
    refine ⟨s, c.stops ++ [.ok ()], journal, ?_, ?_, ?_, ?_⟩
    · simp only [take, stop, hasked, hstop, Nat.add_sub_cancel]
    · simpa only [Progress.halted, Bool.or_true] using hs
    · intro result hresult
      rcases List.mem_append.mp hresult with hbefore | hlast
      · exact hstops result hbefore
      · exact List.mem_singleton.mp hlast
    · rw [hevents]
      cases hup : p.aborted <;> simp [Progress.halting, hup]

/-- Somebody has a turn while the drawing waits. -/
lemma take_of_rehearses (turn : Turn) (h : c.session.Rehearses settings p)
    (hstops : Fine c.stops) :
    ∃ s stops journal,
      take turn c = (.ok (),
        { c with session := s, asked := c.asked - [turn].count .stop, stops }, journal) ∧
      s.Rehearses settings (p.halted (c.asked - [turn].count .stop < c.asked)) ∧ Fine stops ∧
      Journal.events journal = p.halting (c.asked - [turn].count .stop < c.asked) := by
  by_cases hturn : turn = .stop
  · subst hturn
    rw [List.count_singleton_self]
    exact take_stop_of_rehearses h hstops
  · rw [List.count_cons_of_ne hturn, List.count_nil, Nat.sub_zero]
    exact ⟨c.session, c.stops, [], take_of_ne_stop h.isRehearsal hturn, by simpa using h, hstops,
      by simp⟩

/-- Some have their turns while the drawing waits: as many stops have theirs as are asked for and
among them. -/
lemma takeAll_of_rehearses (turns : List Turn) (h : c.session.Rehearses settings p)
    (hstops : Fine c.stops) :
    ∃ s stops journal,
      takeAll turns c = (.ok (),
        { c with session := s, asked := c.asked - turns.count .stop, stops }, journal) ∧
      s.Rehearses settings (p.halted (c.asked - turns.count .stop < c.asked)) ∧ Fine stops ∧
      Journal.events journal = p.halting (c.asked - turns.count .stop < c.asked) := by
  induction turns generalizing c p with
  | nil => exact ⟨c.session, c.stops, [], rfl, by simpa using h, hstops, by simp⟩
  | cons turn rest ih =>
    obtain ⟨s, stops, first, htake, hs, hfine, hfirst⟩ := take_of_rehearses turn h hstops
    obtain ⟨t, stops', second, hrest, ht, hfine', hsecond⟩ :=
      ih (c := { c with session := s, asked := c.asked - [turn].count .stop, stops }) hs hfine
    have hcount : c.asked - (turn :: rest).count .stop =
        c.asked - [turn].count .stop - rest.count .stop := by
      rw [← List.singleton_append, List.count_append, Nat.sub_sub]
    -- a stop has had its turn when one did first, or one did later
    have hsome : decide (c.asked - (turn :: rest).count .stop < c.asked) =
        (decide (c.asked - [turn].count .stop < c.asked) ||
          decide (c.asked - [turn].count .stop - rest.count .stop <
            c.asked - [turn].count .stop)) := by
      rw [hcount, Bool.eq_iff_iff, Bool.or_eq_true, decide_eq_true_iff, decide_eq_true_iff,
        decide_eq_true_iff]
      omega
    refine ⟨t, stops', first ++ second, ?_, ?_, hfine', ?_⟩
    · rw [takeAll, Act.bind_ok htake, hrest, hcount]
    · rw [hsome, ← Progress.halted_halted]
      exact ht
    · rw [hsome, ← Progress.halting_append, Journal.events_append, hfirst, hsecond]

/-- What happens next is the first of what is to come. -/
lemma pause_eq (c : Console) {pauses : List Pause} {n : Nat} (h : c.pauses = pauses.drop n) :
    pause c = (.ok (pauseAt pauses n), { c with pauses := pauses.drop (n + 1) }, []) := by
  have hhead : pauseAt pauses n = c.pauses.headD ⟨[], false⟩ := by
    rw [pauseAt, h, List.headD_eq_head?_getD, List.head?_drop, List.getD_eq_getElem?_getD]
  have htail : pauses.drop (n + 1) = c.pauses.tail := by
    rw [h, List.tail_drop]
  rw [hhead, htail]
  obtain ⟨session, interrupts, ahead, asked, stops⟩ := c
  cases ahead <;> rfl

/-- A rehearsal waits. -/
lemma idle_of_rehearses {pauses : List Pause} {n : Nat} (hpauses : c.pauses = pauses.drop n)
    (h : c.session.Rehearses settings p) (hstops : Fine c.stops) :
    ∃ s stops journal,
      idle c = (.ok (), { c with
        session := s
        pauses := pauses.drop (n + 1)
        asked := (pauseAt pauses n).leaves c.asked
        stops }, journal) ∧
      s.Rehearses settings (p.halted ((pauseAt pauses n).leaves c.asked < c.asked)) ∧ Fine stops ∧
      Journal.events journal = p.halting ((pauseAt pauses n).leaves c.asked < c.asked) := by
  obtain ⟨s, stops, journal, htake, hs, hfine, hevents⟩ :=
    takeAll_of_rehearses (c := { c with pauses := pauses.drop (n + 1) })
      (pauseAt pauses n).turns h hstops
  rw [idle, Act.bind_ok (pause_eq c hpauses), Act.bind_ok htake]
  cases hhasty : (pauseAt pauses n).hasty with
  | true =>
    refine ⟨s, stops, journal, ?_, ?_, hfine, ?_⟩
    · simp [Pause.leaves, hhasty, pure, Act.pure]
    · simpa [Pause.leaves, hhasty] using hs
    · simpa [Pause.leaves, hhasty] using hevents
  | false =>
    let left := c.asked - (pauseAt pauses n).turns.count .stop
    obtain ⟨s', stops', journal', htake', hs', hfine', hevents'⟩ :=
      takeAll_of_rehearses (c := { c with
        pauses := pauses.drop (n + 1), session := s, asked := left, stops })
        (List.replicate left .stop) hs hfine
    have hleft : left - (List.replicate left Turn.stop).count .stop = 0 := by simp
    have hsome : (decide (left < c.asked) || decide (0 < left)) = decide (0 < c.asked) := by
      have hle : left ≤ c.asked := Nat.sub_le _ _
      rw [Bool.eq_iff_iff]
      simp only [Bool.or_eq_true, decide_eq_true_eq]
      omega
    rw [hleft] at htake' hs' hevents'
    refine ⟨s', stops', journal ++ journal', ?_, ?_, hfine', ?_⟩
    · simp [Pause.leaves, hhasty, bind, Act.bind, Act.state, htake', left]
    · rw [Progress.halted_halted, hsome] at hs'
      simpa [Pause.leaves, hhasty] using hs'
    · rw [Journal.events_append, hevents, hevents', Progress.halting_append, hsome]
      simp [Pause.leaves, hhasty]

end Turns

/-! ### Waits -/

/-- A console that rehearses with these settings and is this far, with these interrupts and what
happens during the waits. -/
structure Rehearses (settings : Settings) (interrupts : List Nat) (pauses : List Pause)
    (c : Console)
    (p : Progress) : Prop where
  session : c.session.Rehearses settings p
  interrupts_eq : c.interrupts = interrupts
  pauses_eq : c.pauses = pauses.drop p.begun
  asked_eq : c.asked = unheard interrupts pauses p.begun
  fine : Fine c.stops

section Rehearses

variable {settings : Settings} {interrupts : List Nat} {pauses : List Pause} {c : Console}
  {p : Progress}

/-- A console whose session rehearses does so from the beginning. -/
lemma rehearses_new {s : Session} (h : s.Rehearses settings ⟨0, false⟩) :
    (Console.new s interrupts pauses).Rehearses settings interrupts pauses ⟨0, false⟩ :=
  ⟨h, rfl, rfl, rfl, List.forall_mem_nil _⟩

/-- A wait of a rehearsal whose alarm can be set. -/
lemma wait_of_rehearses (h : c.Rehearses settings interrupts pauses p) {time : Value}
    {length : Number} {seconds : Float} (hcheck : Clock.checkTime time = .ok length)
    (hlength : Clock.seconds length = .ok seconds) :
    ∃ d journal, wait time c = (.ok (), d, journal) ∧
      d.Rehearses settings interrupts pauses (p.enter (heard interrupts pauses)) ∧
      Journal.events journal = p.entrance (heard interrupts pauses) time := by
  have hbegin := inSession_eq (Session.beginWait_of_ok c.session hcheck)
  have hcount : c.session.clock.begun = p.begun := congrArg Progress.begun h.session.progress_eq
  let asked := unheard interrupts pauses p.begun + (interrupts.contains (p.begun + 1)).toNat
  let started : Session := { c.session with clock := c.session.clock.begin }
  have hinterrupt : interrupt { c with session := started } =
      (.ok (), { c with session := started, asked }, []) := by
    simp only [interrupt, Act.modify, started, Clock.begin, hcount, h.interrupts_eq, h.asked_eq,
      asked]
    cases interrupts.contains (p.begun + 1) <;> rfl
  let s : Session := { c.session with clock := (c.session.clock.begin.set length).2 }
  let alarm : Alarm := ⟨c.session.clock.now + seconds, c.session.clock.alarms⟩
  have hset : inSession (Session.setAlarm length)
      { c with session := started, asked } = (.ok alarm, { c with session := s, asked }, []) := by
    simp [inSession, Session.setAlarm, Clock.set, hlength, Except.map, s, alarm, started,
      Clock.begin]
  have hs : s.Rehearses settings p.begin := by
    refine ⟨h.session.isRehearsal, h.session.settings_eq, ?_⟩
    rw [← h.session.progress_eq]
    rfl
  obtain ⟨t, stops, journal, hidle, ht, hfine, hevents⟩ :=
    idle_of_rehearses (c := { c with session := s, asked }) h.pauses_eq hs h.fine
  have hheard : decide ((pauseAt pauses p.begun).leaves asked < asked) =
      heard interrupts pauses (p.begun + 1) := rfl
  rw [hheard] at ht hevents
  refine ⟨{ c with
      session := { t with clock := t.clock.ring alarm }
      pauses := pauses.drop (p.begun + 1)
      asked := (pauseAt pauses p.begun).leaves asked
      stops }, .event (.wait time) :: journal, ?_, ⟨?_, h.interrupts_eq, rfl, rfl, hfine⟩, ?_⟩
  · rw [wait, Act.bind_ok hbegin, Act.bind_ok hinterrupt, Act.bind_ok hset, Act.bind_ok hidle]
    simp [inSession, Session.endWait, Act.modify]
  · have hring : Session.progress { t with clock := t.clock.ring alarm } = t.progress := by
      simp [Session.progress]
    exact ⟨ht.isRehearsal, ht.settings_eq, hring.trans ht.progress_eq⟩
  · change .wait time :: Journal.events journal = _
    rw [hevents]
    rfl

/-! ### Drawings -/

/-- The console does what `rehearse` says, if the session is stopped at the waits in which a stop
has its turn. -/
lemma follows_stage (settings : Settings) (interrupts : List Nat) (pauses : List Pause) :
    stage.Follows settings (heard interrupts pauses) (Rehearses settings interrupts pauses) where
  settings_eq h := h.session.settings_eq
  aborted_eq h := congrArg Progress.aborted h.session.progress_eq
  drive h left right := by
    obtain ⟨fault, journal, hrequest, hdrive, hevents⟩ |
      ⟨frame, t, journal, hrequest, hdrive, ht, hevents⟩ :=
      Session.drive_rehearsal _ settings _ h.session left right
    · exact .inl ⟨fault, journal, hrequest, inSession_eq hdrive, hevents⟩
    · exact .inr ⟨frame, _, journal, hrequest, inSession_eq hdrive,
        ⟨ht, h.interrupts_eq, h.pauses_eq, h.asked_eq, h.fine⟩, hevents⟩
  refuse _ _ _ hcheck := Act.bind_error (inSession_eq (Session.beginWait_of_error _ hcheck))
  wait h _ _ _ hcheck hlength := wait_of_rehearses h hcheck hlength

/-- To look at stops that ended well does nothing. -/
lemma review_of_fine {stops : List (Except Fault Unit)} (h : Fine stops) (c : Console) :
    review stops c = (.ok (), c, []) := by
  induction stops with
  | nil => rfl
  | cons result rest ih =>
    have hfirst : Act.ofExcept result c = (.ok (), c, []) := by
      rw [h result List.mem_cons_self]
      rfl
    rw [review, Act.bind_ok hfirst, ih fun other hother => h other (List.mem_cons_of_mem _ hother)]
    rfl

/-- The stops of a rehearsal have nothing to tell, but one of them may have its turn only now. -/
lemma collectStops_of_rehearses (h : c.Rehearses settings interrupts pauses p) :
    ∃ d journal, collectStops c = (.ok (), d, journal) ∧ d.session.IsRehearsal ∧
      Journal.events journal = p.halting (late interrupts pauses p.begun) := by
  have hclear : Act.modify (fun c => { c with interrupts := [] }) c =
      (.ok (), { c with interrupts := [] }, []) := rfl
  rw [collectStops, Act.bind_ok hclear]
  by_cases hstops : c.asked = 0 ∧ c.stops = []
  · obtain ⟨hasked, hnone⟩ := hstops
    have hnever : late interrupts pauses p.begun = false := by
      rw [late, ← h.asked_eq, hasked]
      rfl
    refine ⟨{ c with interrupts := [] }, [], ?_, h.session.isRehearsal, ?_⟩
    · simp [bind, Act.bind, Act.state, hasked, hnone, pure, Act.pure, review]
    · rw [hnever, Progress.halting_false, Journal.events_nil]
  · obtain ⟨s, stops, journal, htake, hs, hfine, hevents⟩ :=
      takeAll_of_rehearses (c := { c with interrupts := [], pauses := pauses.drop (p.begun + 1) })
        (pauseAt pauses p.begun).turns h.session h.fine
    have hlate : decide (c.asked - (pauseAt pauses p.begun).turns.count .stop < c.asked) =
        late interrupts pauses p.begun := by
      rw [late, h.asked_eq]
    rw [hlate] at hevents
    have hpause := pause_eq { c with interrupts := [] } h.pauses_eq
    let left := c.asked - (pauseAt pauses p.begun).turns.count .stop
    let d : Console := ⟨s, [], pauses.drop (p.begun + 1), left, stops⟩
    refine ⟨d, journal, ?_, hs.isRehearsal, hevents⟩
    simp [bind, Act.bind, Act.state, ← not_and_or, hstops, hpause, htake, review_of_fine hfine, d,
      left]

/-- A drawing from the console that comes to a good end ends as `rehearse` says, and shows the same
events, and perhaps one more stop frame. -/
lemma draw_of_rehearses (h : c.Rehearses settings interrupts pauses p) (commands : List Command)
    {outcome : Outcome} {q : Progress} {events : List Event}
    (hrehearse : (Script.draw commands).rehearse settings (heard interrupts pauses) p =
      (.ok outcome, q, events)) :
    ∃ d journal, Console.draw commands c = (.ok outcome, d, journal) ∧
      Journal.events journal = events ++ q.halting (late interrupts pauses q.begun) := by
  obtain ⟨d, journal, hplay, hd, hevents⟩ :=
    play_of_follows (follows_stage settings interrupts pauses) (Script.draw commands) h
      (.inr ⟨outcome, congrArg Prod.fst hrehearse⟩)
  rw [hrehearse] at hplay hd hevents
  have hopen : inSession Session.open c = (.ok (), c, []) :=
    inSession_eq (Session.open_of_isRehearsal h.session.isRehearsal)
  have hattempt : Act.attempt ((Script.draw commands).play stage) c =
      (.ok (.ok outcome), d, journal) := by
    simp only [Act.attempt, hplay]
  obtain ⟨e, more, hcollect, he, hmore⟩ := collectStops_of_rehearses hd
  have hclose : inSession Session.close e = (.ok (), e, []) :=
    inSession_eq (Session.close_of_isRehearsal he)
  refine ⟨e, journal ++ more, ?_, ?_⟩
  · rw [Console.draw, Act.bind_ok hopen, Act.bind_ok hattempt, Act.bind_ok hcollect,
      Act.bind_ok hclose]
    simp [Act.ofExcept]
  · rw [Journal.events_append, hevents, hmore]

end Rehearses

end Console

end PenRover
