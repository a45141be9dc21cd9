import PenRover.Proofs.Dashboard.Embedding

/-!
# Silence after a stop

A stop hands the stop frame to the link first, and raises the abort flag afterwards.  So all depends
on how the handing over ends: when it fails in a way that sending does not provide for, the stop
*jams*, and the flag stays down (`Session.stop_cases`).

Once the flag is up nothing lowers it, and everything that a session can still do is *mute*: it
hands nothing to the link (`Session.Mute`).  That is what every step keeps of a session that was
stopped (`Stopped.step`), and so the run falls silent for good (`Stopped.leads`).
-/

namespace PenRover

open Script

namespace Journal

/-- The bytes that are handed to a link, whatever becomes of them. -/
def handed (journal : Journal) : List Bytes :=
  journal.moves.filterMap fun
    | .send bytes => some bytes
    | .wait _ => none

/-- An empty journal hands over nothing. -/
@[simp] lemma handed_nil : handed [] = [] := rfl

/-- What two journals hand over comes one after the other. -/
@[simp] lemma handed_append (first second : Journal) :
    handed (first ++ second) = handed first ++ handed second := by
  simp [handed]

/-- Where there are no moves, nothing is handed over. -/
lemma handed_of_moves {journal : Journal} (h : journal.moves = []) : journal.handed = [] := by
  rw [handed, h]
  rfl

end Journal

namespace Deed

/-- What is written in two parts is written in the same session. -/
lemma journalOf_act_append (n : Nat) (session : Option Nat) (first second : Journal) :
    (act session (first ++ second)).journalOf n =
      (act session first).journalOf n ++ (act session second).journalOf n := by
  simp only [journalOf]
  split
  · rfl
  · rfl

/-- Where no bytes are handed over, no session hands any over. -/
lemma handed_journalOf {journal : Journal} (h : journal.handed = []) (session : Option Nat)
    (n : Nat) : Journal.handed ((act session journal).journalOf n) = [] := by
  rw [journalOf]
  split
  · exact h
  · rfl

end Deed

/-! ### The notes of a drawing -/

namespace Script

variable {α β : Type}

/-- No note of the script says that bytes were handed to a link. -/
def Tacit : Script α → Prop
  | .finish _ => True
  | .fail _ => True
  | .note n next => Journal.moves [.note n] = [] ∧ next.Tacit
  | .consult next => ∀ settings, (next settings).Tacit
  | .poll next => ∀ up, (next up).Tacit
  | .drive _ _ next => next.Tacit
  | .wait _ next => next.Tacit

/-- Scripts that are tacit are so one after another. -/
lemma Tacit.bind {script : Script α} {next : α → Script β} (h : script.Tacit)
    (hnext : ∀ a, (next a).Tacit) : (script >>= next).Tacit := by
  change (script.bind next).Tacit
  induction script with
  | finish a => exact hnext a
  | fail fault => trivial
  | note n script ih => exact ⟨h.1, ih h.2⟩
  | consult script ih => exact fun settings => ih settings (h settings)
  | poll script ih => exact fun up => ih up (h up)
  | drive left right script ih => exact ih h
  | wait time script ih => exact ih h

/-- What is left of a tacit script is tacit. -/
lemma Tacit.after {script rest : Script α} (h : script.Tacit) (hafter : script.After rest) :
    rest.Tacit := by
  induction hafter with
  | here time next => exact h
  | wait time hafter ih => exact ih h
  | note n hafter ih => exact ih h.2
  | drive left right hafter ih => exact ih h
  | consult settings hafter ih => exact ih (h settings)
  | poll up hafter ih => exact ih (h up)

/-- A computation is tacit. -/
lemma tacit_ofExcept (result : Except Fault α) : (Script.ofExcept result).Tacit := by
  cases result <;> trivial

/-- A request at multiples of a power is tacit. -/
lemma tacit_goTimes (power : Value) (left right : Int) : (goTimes power left right).Tacit :=
  (tacit_ofExcept _).bind fun _ => (tacit_ofExcept _).bind fun _ => trivial

/-- Quarter turns are tacit. -/
lemma tacit_quarters (arc : Arc) (count : Nat) : (quarters arc count).Tacit := by
  induction count with
  | zero => trivial
  | succ count ih =>
    have hpause : (pause arc.time).Tacit := trivial
    have hquarter : (quarter arc).Tacit :=
      (tacit_goTimes ..).bind fun _ => hpause.bind fun _ =>
        (tacit_goTimes ..).bind fun _ => hpause
    exact hquarter.bind fun _ => ih

/-- A turn is tacit. -/
lemma tacit_turnBy (turn : Number) : (turnBy turn).Tacit :=
  (tacit_ofExcept _).bind fun _ => (tacit_ofExcept _).bind fun _ =>
    (tacit_ofExcept _).bind fun _ =>
      ⟨rfl, fun _ => (tacit_quarters ..).bind fun _ => trivial⟩

/-- A way forward is tacit. -/
lemma tacit_goForward (distance : Number) : (goForward distance).Tacit :=
  fun _ => (tacit_ofExcept _).bind fun _ => (tacit_ofExcept _).bind fun _ =>
    ⟨rfl, (tacit_ofExcept _).bind fun _ => trivial⟩

/-- A command is tacit. -/
lemma tacit_perform (command : Command) (pose : Pose Number) : (perform command pose).Tacit := by
  refine (tacit_ofExcept _).bind fun displacement => (tacit_ofExcept _).bind fun _ =>
    (tacit_ofExcept _).bind fun _ => ⟨rfl, (tacit_turnBy _).bind fun _ =>
      (tacit_goForward _).bind ?_⟩
  intro _
  split <;> trivial

/-- A drawing is tacit, from any command on. -/
lemma tacit_drawFrom (index total : Nat) (pose : Pose Number) (commands : List Command) :
    (drawFrom index total pose commands).Tacit := by
  induction commands generalizing index pose with
  | nil =>
    intro up
    cases up <;> exact ⟨rfl, trivial⟩
  | cons command rest ih =>
    intro up
    cases up with
    | true => exact ⟨rfl, trivial⟩
    | false => exact ⟨rfl, (tacit_perform command pose).bind fun _ _ => ih _ _⟩

/-- A drawing is tacit. -/
lemma tacit_draw (drawing : List Command) : (draw drawing).Tacit := tacit_drawFrom _ _ _ drawing

end Script

/-! ### Sessions -/

namespace Session

variable {α β : Type}

/-- With the flag up the action leaves it up, and hands nothing to the link. -/
def Mute (act : Act Session α) : Prop :=
  ∀ s, s.aborted = true → (act s).2.1.aborted = true ∧ Journal.handed (act s).2.2 = []

/-- Actions that are mute are so one after another. -/
lemma Mute.bind {act : Act Session α} {next : α → Act Session β} (h : Mute act)
    (hnext : ∀ a, Mute (next a)) : Mute (act >>= next) := by
  intro s hs
  obtain ⟨hup, hhanded⟩ := h s hs
  rcases hact : act s with ⟨_ | a, t, journal⟩ <;> rw [hact] at hup hhanded
  · rw [Act.bind_error hact]
    exact ⟨hup, hhanded⟩
  · obtain ⟨hup', hhanded'⟩ := hnext a t hup
    rw [Act.bind_ok hact]
    exact ⟨hup', by rw [Journal.handed_append, hhanded, hhanded', List.append_nil]⟩

/-- An action that leaves the flag as it is and writes of no bytes. -/
lemma Steady.mute {act : Act Session α} (h : Steady act)
    (hhanded : ∀ s, Journal.handed (act s).2.2 = []) : Mute act :=
  fun s hs => ⟨(h s).trans hs, hhanded s⟩

/-- An attempt to open the link hands it nothing when it ends. -/
lemma mute_opened (reply : Reply) : Mute (Session.opened reply) := by
  apply (steady_opened reply).mute
  intro s
  cases hlink : s.link with
  | rehearsal frames => simp only [Session.opened, hlink, Link.opened, Journal.handed_nil]
  | radio radio =>
    simp only [Session.opened, hlink, Link.opened]
    obtain ⟨-, hopened⟩ | ⟨-, hopened⟩ | ⟨fault, -, -, hopened⟩ :=
      Radio.opened_cases radio reply <;>
      rw [hopened] <;> rfl

/-- Opening the link hands it nothing. -/
lemma mute_open : Mute Session.open := by
  have hdial : Mute Session.dial := steady_dial.mute fun _ => rfl
  apply hdial.bind
  intro reply
  cases reply with
  | none => exact Steady.mute (fun _ => rfl) fun _ => rfl
  | some reply => exact mute_opened reply

/-- Leaving a link hands it nothing. -/
lemma mute_leave : Mute Session.leave := Steady.mute (fun _ => rfl) fun _ => rfl

/-- Hanging up hands the link nothing. -/
lemma mute_hangUp : Mute Session.hangUp := by
  apply Steady.mute (fun _ => rfl)
  intro s
  cases hlink : s.link with
  | rehearsal frames => simp only [Session.hangUp, hlink, Link.hangUp, Journal.handed_nil]
  | radio radio =>
    simp only [Session.hangUp, hlink, Link.hangUp, Radio.hangUp]
    split <;> rfl

/-- A background task that goes to rest hands over nothing. -/
lemma handed_rest (radio : Radio) (clock : Clock) :
    Journal.handed (radio.rest clock).2.2 = [] := by
  obtain ⟨-, hjournal | hjournal⟩ | ⟨alarm, -, -, -, hjournal⟩ := Radio.rest_cases radio clock <;>
    rw [hjournal] <;> rfl

/-- A background task that has its turn hands over nothing. -/
lemma mute_settle : Mute Session.settle := by
  apply steady_settle.mute
  intro s
  cases hlink : s.link with
  | rehearsal frames => simp only [Session.settle, hlink, Link.settle, Journal.handed_nil]
  | radio radio =>
    simp only [Session.settle, hlink, Link.settle, Radio.settle]
    split
    · exact handed_rest radio s.clock
    · rfl

/-- A background task that wakes hands over nothing. -/
lemma mute_wake (alarm : Alarm) : Mute (Session.wake alarm) := by
  have hredial : Mute (Session.redial alarm) := (steady_redial alarm).mute fun _ => rfl
  refine hredial.bind fun _ => steady_redialed.mute ?_
  intro s
  cases hlink : s.link with
  | rehearsal frames => simp only [Session.redialed, hlink, Link.redialed, Journal.handed_nil]
  | radio radio =>
    simp only [Session.redialed, hlink, Link.redialed]
    cases hretry : radio.retry with
    | dialing reply =>
      obtain ⟨-, hend⟩ | ⟨-, hend⟩ | ⟨fault, -, -, hend⟩ :=
        radio.redialed_cases s.clock hretry <;> rw [hend]
      · rfl
      · rfl
      · rw [Journal.handed_append, handed_rest]
        rfl
    | idle => simp only [Radio.redialed, hretry, Journal.handed_nil]
    | called => simp only [Radio.redialed, hretry, Journal.handed_nil]
    | asleep alarm => simp only [Radio.redialed, hretry, Journal.handed_nil]

/-- A computation hands over nothing. -/
lemma mute_ofExcept (result : Except Fault α) : Mute (Act.ofExcept result : Act Session α) :=
  (steady_ofExcept result).mute fun _ => rfl

/-- A note that is no move hands over nothing. -/
lemma mute_write_note (n : Note) (h : Journal.moves [.note n] = []) :
    Mute (Act.write [.note n]) :=
  Steady.mute (fun _ => rfl) fun _ => Journal.handed_of_moves h

/-- An action that looks at the state first finds the flag up. -/
lemma mute_state_bind {next : Session → Act Session α}
    (h : ∀ s, s.aborted = true → Mute (next s)) : Mute (Act.state >>= next) :=
  fun s hs => h s hs s hs

/-- The flag is what keeps a request for powers from the link. -/
lemma mute_drive (left right : Value) : Mute (Session.drive left right) := by
  unfold Session.drive
  split
  · refine (mute_write_note _ rfl).bind fun _ => (mute_ofExcept _).bind ?_
    intro frame
    cases frame with
    | none => exact mute_write_note _ rfl
    | some frame =>
      apply mute_state_bind
      intro s hs
      rw [if_pos hs]
      exact Steady.mute (fun _ => rfl) fun _ => rfl
  · exact Steady.mute (fun _ => rfl) fun _ => rfl

/-- With the flag up a stop hands over nothing. -/
lemma mute_stop : Mute Session.stop :=
  (mute_drive _ _).bind fun _ _ _ => ⟨rfl, rfl⟩

/-- With the flag up a script waits and makes notes of its own, and no more. -/
lemma mute_resume {script : Script α} (h : script.Tacit) : Mute (resume script) := by
  induction script with
  | finish a => exact Steady.mute (fun _ => rfl) fun _ => rfl
  | fail fault => exact Steady.mute (fun _ => rfl) fun _ => rfl
  | note n script ih => exact (mute_write_note n h.1).bind fun _ => ih h.2
  | consult script ih => exact fun s => ih s.settings (h s.settings) s
  | poll script ih => exact fun s => ih s.aborted (h s.aborted) s
  | drive left right script ih => exact (mute_drive left right).bind fun _ => ih h
  | wait time script ih =>
    have hbegin : Mute (beginWait time) :=
      (mute_ofExcept _).bind fun _ => Mute.bind (Steady.mute (fun _ => rfl) fun _ => rfl) fun _ =>
        Mute.bind (Steady.mute (fun _ => rfl) fun _ => rfl) fun _ =>
          Steady.mute (fun _ => rfl) fun _ => rfl
    refine hbegin.bind fun length => Mute.bind ?_ ?_
    · exact Steady.mute (fun _ => rfl) fun _ => rfl
    · intro _
      exact Steady.mute (fun _ => rfl) fun _ => rfl

/-! ### What a stop comes to -/

/-- A stop jams: the flag is down, the link has a connection, and the next transmission over it
fails in a way that sending does not provide for. -/
structure Jams (s : Session) (fault : Fault) : Prop where
  down : s.aborted = false
  connected : ∃ radio, s.link = .radio radio ∧ radio.connected = true
  fails : s.air.nextTransmission.1.fault? = some fault
  unprovided : fault ≠ .connectionClosed

/-- With the flag down the stop frame is handed to the link.  Its sending ends well, or the link
passes on the fault of the transmission, and then nothing has changed but the air. -/
lemma send_cases {s : Session} (h : s.aborted = false) (frame : Frame) :
    (∃ fault journal, s.Jams fault ∧ Session.send frame.toBytes s =
        (.error fault, { s with air := s.air.nextTransmission.2 }, journal) ∧
      Journal.handed journal = [frame.toBytes]) ∨
    ((∀ fault, ¬ s.Jams fault) ∧ ∃ t journal, Session.send frame.toBytes s = (.ok (), t, journal) ∧
      Journal.handed journal = [frame.toBytes]) := by
  cases hlink : s.link with
  | rehearsal frames =>
    refine .inr ⟨?_, { s with link := .rehearsal (frames ++ [frame.toBytes]) },
      [.note (.rehearsed frame), .event (.frame frame)], ?_, rfl⟩
    · intro fault hjams
      obtain ⟨radio, hradio, -⟩ := hjams.connected
      rw [hlink] at hradio
      cases hradio
    · simp only [Session.send, hlink, Link.send, Frame.ofBytes_toBytes]
  | radio radio =>
    have hsent : Session.send frame.toBytes s = ((radio.send s.air frame.toBytes).1,
        { s with
          link := .radio (radio.send s.air frame.toBytes).2.1
          air := (radio.send s.air frame.toBytes).2.2.1 },
        (radio.send s.air frame.toBytes).2.2.2) := by
      simp only [Session.send, hlink, Link.send]
    have hfine (hprovided : radio.connected = true → ∀ fault,
        s.air.nextTransmission.1.fault? = some fault → fault = .connectionClosed) (fault : Fault) :
        ¬ s.Jams fault := by
      rintro ⟨-, ⟨other, hother, hup⟩, hfails, hunprovided⟩
      obtain rfl : radio = other := Link.radio.inj (hlink.symm.trans hother)
      exact hunprovided (hprovided hup fault hfails)
    rw [hsent]
    obtain ⟨hdown, hsend⟩ | ⟨-, hreply, hsend⟩ | ⟨-, hreply, hsend⟩ |
      ⟨fault, hup, hreply, hother, hsend⟩ := Radio.sending_cases radio s.air frame.toBytes <;>
      rw [hsend]
    · refine .inr ⟨hfine ?_, _, _, rfl, rfl⟩
      intro hup
      rw [hdown] at hup
      cases hup
    · refine .inr ⟨hfine ?_, _, _, rfl, rfl⟩
      intro _ fault hfault
      rw [hreply] at hfault
      cases hfault
    · refine .inr ⟨hfine ?_, _, _, rfl, rfl⟩
      intro _ fault hfault
      rw [hreply] at hfault
      exact (Option.some.inj hfault).symm
    · refine .inl ⟨fault, [.event (.transmit frame.toBytes s.air.nextTransmission.1)],
        ⟨h, ⟨radio, hlink, hup⟩, hreply, hother⟩, ?_, rfl⟩
      rw [← hlink]

/-- A stop that does not jam hands the stop frame to the link, unless the flag was up before.  A
stop that jams hands it to the link as well, and passes the fault on; nothing changes but the
air. -/
lemma stop_cases (s : Session) :
    (∃ fault journal, s.Jams fault ∧
      Session.stop s = (.error fault, { s with air := s.air.nextTransmission.2 }, journal) ∧
      Journal.handed journal = [Frame.stop.toBytes]) ∨
    ((∀ fault, ¬ s.Jams fault) ∧ ∃ t journal, Session.stop s = (.ok (), t, journal) ∧
      Journal.handed journal = if s.aborted then [] else [Frame.stop.toBytes]) := by
  rcases Bool.eq_false_or_eq_true s.aborted with h | h
  · refine .inr ⟨?_, s, _, stop_of_up h, ?_⟩
    · intro fault hjams
      exact absurd (h.symm.trans hjams.down) (by decide)
    · rw [h]
      rfl
  · have hdrive := drive_zero_of_down h
    obtain ⟨fault, journal, hjams, hsend, hhanded⟩ | ⟨hfine, t, journal, hsend, hhanded⟩ :=
      send_cases h .stop <;> rw [hsend] at hdrive
    · refine .inl ⟨fault, .note (.powers (.int 0) (.int 0)) :: journal, hjams, ?_, hhanded⟩
      rw [Session.stop, Act.bind_error hdrive]
    · refine .inr ⟨hfine, { t with aborted := true },
        (.note (.powers (.int 0) (.int 0)) :: journal) ++ [], ?_, ?_⟩
      · rw [Session.stop, Act.bind_ok hdrive]
        rfl
      · rw [List.append_nil, h]
        exact hhanded

/-- A stop jams for one reason. -/
lemma Jams.unique {s : Session} {fault other : Fault} (h : s.Jams fault) (hother : s.Jams other) :
    fault = other :=
  Option.some.inj (h.fails.symm.trans hother.fails)

end Session

/-! ### Dashboards -/

namespace Dashboard

open Moment

variable {d : Dashboard} {n : Nat}

/-- There is a session with this number, and its flag is up. -/
structure Stopped (d : Dashboard) (n : Nat) : Prop where
  started : n < d.sessions.length
  up : (d.controls n).aborted = true

/-- All runs in progress make only notes of their own. -/
def Tacit (d : Dashboard) : Prop := ∀ run ∈ d.runs, run.next.Tacit

section InSession

variable {α : Type} {act : Act Session α} {k : Nat}

/-- Whatever is done in whichever session, a stopped one stays stopped and hands nothing to its
link, if what is done is mute. -/
lemma Stopped.inSession (h : d.Stopped n) (hact : Session.Mute act) (k : Nat) :
    (d.inSession k act).2.1.Stopped n ∧
      Journal.handed ((Deed.act (some k) (d.inSession k act).2.2).journalOf n) = [] := by
  have hlength : n < (d.inSession k act).2.1.sessions.length := by
    rw [length_sessions_inSession]
    exact h.started
  by_cases hkn : k = n
  · subst hkn
    rcases hresult : act (d.session k) with ⟨result, t, journal⟩
    obtain ⟨-, hjournal, hself⟩ := inSession_eq h.started hresult
    have hmute := hact (d.session k) h.up
    rw [hresult] at hmute
    refine ⟨⟨hlength, ?_⟩, ?_⟩
    · rw [hself]
      exact hmute.1
    · rw [Deed.journalOf_act_self, hjournal]
      exact hmute.2
  · refine ⟨⟨hlength, ?_⟩, ?_⟩
    · rw [controls_inSession_of_ne d k act hkn]
      exact h.up
    · rw [Deed.journalOf_act_of_ne hkn]
      rfl

/-- What does not touch the sessions leaves a stopped one stopped. -/
lemma Stopped.of_sessions_eq {after : Dashboard} (h : d.Stopped n)
    (hsessions : after.sessions = d.sessions) : after.Stopped n := by
  refine ⟨?_, ?_⟩
  · rw [hsessions]
    exact h.started
  · rw [controls_congr hsessions]
    exact h.up

/-- The end of a run lowers no flag, and hands nothing to the link of a stopped session. -/
lemma Stopped.endRun (h : d.Stopped n) (k : Nat) (status : Status) {journal : Journal}
    (hjournal : Journal.handed ((Deed.act (some k) journal).journalOf n) = []) :
    (d.endRun k status journal).1.Stopped n ∧
      Journal.handed ((Deed.act (some k) (d.endRun k status journal).2).journalOf n) = [] := by
  obtain ⟨hleft, -⟩ := h.inSession Session.mute_leave k
  have hconcluded : (d.conclude k status).Stopped n := hleft.of_sessions_eq rfl
  obtain ⟨hclosed, hclosing⟩ := hconcluded.inSession Session.mute_hangUp k
  refine ⟨hclosed.of_sessions_eq rfl, ?_⟩
  have hend : (d.endRun k status journal).2 =
      journal ++ ((d.conclude k status).inSession k Session.hangUp).2.2 := rfl
  rw [hend, Deed.journalOf_act_append, Journal.handed_append, hjournal,
    hclosing]
  rfl

/-- A mute piece of a run, with what follows when it ends the run. -/
lemma Stopped.proceed (h : d.Stopped n) (k : Nat) (drawing : List Command)
    {piece : Act Session (Session.Standing Outcome)} (hpiece : Session.Mute piece) :
    (d.proceed k drawing piece).1.Stopped n ∧
      Journal.handed ((Deed.act (some k) (d.proceed k drawing piece).2).journalOf n) = [] := by
  obtain ⟨hkept, hhanded⟩ := h.inSession hpiece k
  have hnote (journal : Journal) (note : Note) (hnote : Journal.moves [.note note] = [])
      (hjournal : Journal.handed ((Deed.act (some k) journal).journalOf n) = []) :
      Journal.handed ((Deed.act (some k) (journal ++ [.note note])).journalOf n) = [] := by
    rw [Deed.journalOf_act_append, Journal.handed_append, hjournal,
      Deed.handed_journalOf (Journal.handed_of_moves hnote)]
    rfl
  rw [proceed_eq]
  rcases hafter : d.inSession k piece with ⟨fault | ⟨outcome⟩ | ⟨alarm, next⟩, after, journal⟩ <;>
    rw [hafter] at hkept hhanded
  · exact hkept.endRun k _ (hnote journal _ rfl hhanded)
  · exact hkept.endRun k _ (hnote journal _ rfl hhanded)
  · exact ⟨hkept.of_sessions_eq rfl, hhanded⟩

end InSession

/-- A run that is in progress after a piece of a run was so before, or has come to a wait in this
piece. -/
lemma mem_runs_proceed {k : Nat} {drawing : List Command} {run : Run}
    {piece : Act Session (Session.Standing Outcome)}
    (h : run ∈ (d.proceed k drawing piece).1.runs) :
    run ∈ d.runs ∨ ∃ t journal,
      piece (d.session k) = (.ok (.waiting run.alarm run.next), t, journal) := by
  rw [proceed_eq] at h
  rcases hafter : d.inSession k piece with ⟨fault | ⟨outcome⟩ | ⟨alarm, next⟩, after, journal⟩ <;>
    rw [hafter] at h <;> obtain ⟨-, hruns, -⟩ := frame_inSession d k piece hafter
  · exact .inl (hruns ▸ h)
  · exact .inl (hruns ▸ h)
  · dsimp only at h
    rw [hruns, List.mem_append, List.mem_singleton] at h
    obtain hbefore | rfl := h
    · exact .inl hbefore
    · exact .inr ⟨_, journal, act_of_inSession d k piece hafter⟩

/-- What is left of a tacit run is tacit. -/
lemma Tacit.proceed (h : d.Tacit) (k : Nat) (drawing : List Command) {script : Script Outcome}
    (hscript : script.Tacit) {piece : Act Session (Session.Standing Outcome)}
    (hpiece : ∀ {s t alarm next journal}, piece s = (.ok (.waiting alarm next), t, journal) →
      script.After next) : (d.proceed k drawing piece).1.Tacit := by
  intro run hrun
  obtain hbefore | ⟨t, journal, hwaits⟩ := mem_runs_proceed hrun
  · exact h run hbefore
  · exact hscript.after (hpiece hwaits)

end Dashboard

namespace Moment

open Dashboard

variable {a b : Moment} {deed : Deed} {deeds : List Deed} {n : Nat}

/-- The runs of drawings are tacit from the start and stay so. -/
lemma tacit_step (h : a.dashboard.Tacit) (hstep : Step a deed b) : b.dashboard.Tacit := by
  cases hstep with
  | @answer d granted request hgrants =>
    have hruns : (d.answer request).2.1.runs = d.runs := by
      obtain ⟨n, hcurrent, hstop⟩ | ⟨-, hruns, -⟩ := answer_cases hgrants
      · obtain ⟨-, hruns, -⟩ := stop_of_current hcurrent
        rw [hstop, hruns, runs_inSession]
      · exact hruns
    intro run hrun
    exact h run (hruns ▸ hrun)
  | grant drawing hcurrent hdrawing => exact h
  | @begin d grant granted =>
    refine Tacit.proceed (d := d) h _ _ (tacit_draw grant.drawing) fun hwaits => ?_
    obtain ⟨_, u, first, second, -, hresume, -⟩ := Act.bind_eq_ok hwaits
    exact (Session.resume_eq_waiting hresume).1
  | settle k hk hturn => exact h
  | @wake d granted sleeper hsleeper =>
    cases sleeper with
    | link k alarm => exact h
    | drawing run =>
      have hothers : Tacit { d with
          runs := d.runs.filter fun other => other.session != run.session
          clock := d.clock.ring run.alarm } :=
        fun other hother => h other (List.mem_filter.mp hother).1
      exact hothers.proceed _ _ (h run (mem_sleepers_drawing hsleeper))
        fun hwaits => (Session.resume_eq_waiting hwaits).1

/-- All runs are tacit at every moment. -/
lemma tacit_of_reached (h : b.Reached deeds) : b.dashboard.Tacit := by
  obtain ⟨settings, settingsFile, disk, air, hleads⟩ := h
  induction hleads with
  | refl => exact fun run hrun => absurd hrun List.not_mem_nil
  | snoc hleads hstep ih => exact tacit_step ih hstep

end Moment

/-! ### Stopped sessions -/

namespace Dashboard

open Moment

variable {a b : Moment} {deed : Deed} {deeds : List Deed} {n : Nat}

/-- Whatever happens, a session that was stopped stays stopped, and hands nothing to its link. -/
lemma Stopped.step (h : a.dashboard.Stopped n) (htacit : a.dashboard.Tacit)
    (hstep : Step a deed b) :
    b.dashboard.Stopped n ∧ Journal.handed (deed.journalOf n) = [] := by
  cases hstep with
  | @answer d granted request hgrants =>
    obtain ⟨k, hcurrent, hstop⟩ | ⟨hsessions, -, -, -, hmoves⟩ := answer_cases hgrants
    · obtain ⟨hsessions, -, -, more, -, hmore, hjournal⟩ := stop_of_current hcurrent
      obtain ⟨hkept, hhanded⟩ := Stopped.inSession (d := d) h Session.mute_stop k
      have hafter : d.stop.2.1.Stopped n := hkept.of_sessions_eq hsessions
      rw [hstop]
      refine ⟨hafter, ?_⟩
      rw [hcurrent, hjournal, Deed.journalOf_act_append, Journal.handed_append, hhanded,
        Deed.handed_journalOf (Journal.handed_of_moves hmore)]
      rfl
    · exact ⟨h.of_sessions_eq hsessions,
        Deed.handed_journalOf (Journal.handed_of_moves hmoves) _ _⟩
  | @grant d granted drawing hcurrent hdrawing =>
    refine ⟨⟨?_, ?_⟩, rfl⟩
    · exact h.started.trans (by simp [engage])
    · have hsame : d.engage.controls n = d.controls n := by
        have hn : n < d.sessions.length := h.started
        simp [controls, engage, List.getD, List.getElem?_append, hn]
      rw [hsame]
      exact h.up
  | @begin d grant granted =>
    have hpiece := Session.mute_open.bind fun _ =>
      Session.mute_resume (tacit_draw grant.drawing)
    exact Stopped.proceed (d := d) h grant.session grant.drawing hpiece
  | settle k hk hturn => exact h.inSession Session.mute_settle k
  | @wake d granted sleeper hsleeper =>
    cases sleeper with
    | link k alarm => exact h.inSession (Session.mute_wake alarm) k
    | drawing run =>
      have hothers : Stopped { d with
          runs := d.runs.filter fun other => other.session != run.session
          clock := d.clock.ring run.alarm } n :=
        h.of_sessions_eq rfl
      exact hothers.proceed _ _
        (Session.mute_resume (htacit run (mem_sleepers_drawing hsleeper)))

/-- So it does in the long run. -/
lemma Stopped.leads (h : a.dashboard.Stopped n) (htacit : a.dashboard.Tacit)
    (hleads : Leads a deeds b) :
    b.dashboard.Stopped n ∧ Journal.handed (Deed.journalsOf n deeds) = [] := by
  have hboth : b.dashboard.Tacit ∧ b.dashboard.Stopped n ∧
      Journal.handed (Deed.journalsOf n deeds) = [] := by
    induction hleads with
    | refl => exact ⟨htacit, h, rfl⟩
    | snoc hleads hstep ih =>
      obtain ⟨htacit', hstopped, hhanded⟩ := ih
      obtain ⟨hnext, hdeed⟩ := hstopped.step htacit' hstep
      refine ⟨tacit_step htacit' hstep, hnext, ?_⟩
      rw [Deed.journalsOf, List.flatMap_append, List.flatMap_singleton, ← Deed.journalsOf,
        Journal.handed_append, hhanded, hdeed]
      rfl
  exact hboth.2

/-- A stop that jams changes nothing but the air. -/
lemma stop_of_jams (hn : n < a.dashboard.sessions.length)
    (hcurrent : a.dashboard.current = some n) {fault : Fault} {journal : Journal}
    (hstop : Session.stop (a.dashboard.session n) = (.error fault,
      { a.dashboard.session n with air := a.dashboard.air.nextTransmission.2 }, journal)) :
    a.dashboard.stop = (.error (.fault fault),
      { a.dashboard with air := a.dashboard.air.nextTransmission.2 }, journal) := by
  have hset : a.dashboard.sessions.set n (a.dashboard.controls n) = a.dashboard.sessions := by
    simp [controls, List.getD, hn]
  rw [session] at hstop
  simp only [stop, hcurrent, inSession, hstop, hset]

end Dashboard

open Dashboard in
/-- Of every moment at which a session is in use, wherever its run is and whatever its link is like.
A stop that does not jam is answered with success: the flag is up, no drawing is loaded, the status
says so, and the stop frame is the last thing that the session hands to its link, whatever happens
from then on.  A stop that jams is not: the fault of the transmission is passed on, and all is as it
was before, the flag and the drawing included, but for the transmission. -/
theorem Moment.silent_of_stop (m : Moment) (deeds : List Deed) (h : m.Reached deeds) (n : Nat)
    (hcurrent : m.dashboard.current = some n) (stop : Request) (hstop : Asks stop .stop) :
    ((∀ fault, ¬ (m.dashboard.session n).Jams fault) →
      ∃ after journal, m.dashboard.answer stop =
          (.ok (.json 200 (Answer.record [("status", Answer.ofStatus .aborted)])), after, journal) ∧
        (after.controls n).aborted = true ∧ after.drawing = none ∧ after.status = .aborted ∧
        Journal.handed journal =
          (if (m.dashboard.controls n).aborted then [] else [Frame.stop.toBytes]) ∧
        ∀ later more, Leads ⟨after, m.granted⟩ more later →
          (later.dashboard.controls n).aborted = true ∧
            Journal.handed (Deed.journalsOf n more) = []) ∧
    ∀ fault, (m.dashboard.session n).Jams fault →
      ∃ journal, m.dashboard.answer stop = (.error (.fault fault),
          { m.dashboard with air := m.dashboard.air.nextTransmission.2 }, journal) ∧
        Journal.handed journal = [Frame.stop.toBytes] := by
  have hn : n < m.dashboard.sessions.length := (tidy_of_reached h).inUse n hcurrent
  have hanswer : m.dashboard.answer stop = m.dashboard.stop := answer_of_asks hstop
  rw [hanswer]
  obtain ⟨fault, journal, hjams, hresult, hhanded⟩ | ⟨hfine, t, journal, hresult, hhanded⟩ :=
    (m.dashboard.session n).stop_cases
  · -- the stop frame was handed over, and the fault leaves the flag down
    refine ⟨fun hfine => absurd hjams (hfine fault), ?_⟩
    intro other hother
    obtain rfl := hjams.unique hother
    exact ⟨journal, stop_of_jams hn hcurrent hresult, hhanded⟩
  · -- the flag is up, and from then on the session is mute
    refine ⟨fun _ => ?_, fun fault hjams => absurd hjams (hfine fault)⟩
    obtain ⟨hok, hjournal, hself⟩ := inSession_eq hn hresult
    rcases hafter : m.dashboard.inSession n Session.stop with ⟨result, after, written⟩
    obtain ⟨-, hruns, -, -, hlength⟩ := frame_inSession _ _ _ hafter
    rw [hafter] at hok hjournal hself
    dsimp only at hok hjournal hself
    subst hok hjournal
    have hup : (after.controls n).aborted = true := by
      rw [hself]
      exact Session.aborted_of_stop hresult
    have hstopped : Stopped { after with drawing := none, status := .aborted } n :=
      ⟨lt_of_lt_of_eq hn hlength.symm, hup⟩
    have htacit : Tacit { after with drawing := none, status := .aborted } :=
      fun run hrun => tacit_of_reached h run (hruns ▸ hrun)
    refine ⟨{ after with drawing := none, status := .aborted }, written ++ [.note .drawingStopped],
      ?_, hup, rfl, rfl, ?_, ?_⟩
    · simp only [Dashboard.stop, hcurrent, hafter, Dashboard.discard]
    · rw [Journal.handed_append, hhanded]
      exact List.append_nil _
    · intro later more hleads
      obtain ⟨hlater, hsilent⟩ := Stopped.leads (a := ⟨_, m.granted⟩) hstopped htacit hleads
      exact ⟨hlater.up, hsilent⟩

open Dashboard in
/-- A drawing is loaded, started and stopped at its first wait, and the stop frame arrives. -/
theorem Moment.silent_of_stop_delivered :
    let ask (path : String) (body : Bytes) : Request :=
      ⟨Text.ofString "POST", Text.ofString "robot", Text.ofString path, [], body⟩
    let d := (Dashboard.new .standard (Text.ofString "config.json") [] ⟨[.accepted], []⟩).afterAll
      [ask "/file" (Utf8.encode (Text.ofString "0 1 rlinerot")), ask "/start" []]
    (∃ deeds, Moment.Reached ⟨d, []⟩ deeds) ∧ d.current = some 0 ∧ Asks (ask "/stop" []) .stop ∧
      ∃ after journal, (d.answer (ask "/stop" [])).2 = (after, journal) ∧
        (after.controls 0).aborted = true ∧ after.drawing = none ∧
        Journal.handed journal = [Frame.stop.toBytes] ∧
        ∀ later more, Moment.Leads ⟨after, []⟩ more later →
          Journal.handed (Deed.journalsOf 0 more) = [] := by
  intro ask d
  have hreachable : d.Reachable := ⟨_, _, _, _, Later.refl.afterAll _⟩
  have hcurrent : d.current = some 0 := by decide +kernel
  have hasks : Asks (ask "/stop" []) .stop := by
    unfold Asks
    decide +kernel
  have hdown : (d.controls 0).aborted = false := by decide +kernel
  have harrives : (d.session 0).air.nextTransmission.1.fault? = none := by decide +kernel
  clear_value d
  obtain ⟨deeds, hreached⟩ := hreachable.reached
  obtain ⟨hstops, -⟩ := Moment.silent_of_stop ⟨d, []⟩ deeds hreached 0 hcurrent _ hasks
  obtain ⟨after, journal, hanswer, hup, hdrawing, -, hhanded, hsilent⟩ := hstops fun fault hjams =>
    absurd (harrives.symm.trans hjams.fails) (Option.some_ne_none fault).symm
  refine ⟨⟨deeds, hreached⟩, hcurrent, hasks, after, journal, congrArg Prod.snd hanswer, hup,
    hdrawing, ?_, fun later more hleads => (hsilent later more hleads).2⟩
  simpa only [hdown, Bool.false_eq_true, if_false] using hhanded

open Dashboard in
/-- A drawing is loaded, started and stopped at its first wait, but the transmission of the stop
frame fails in a way that is not provided for.  The flag stays down, the drawing stays loaded, and
the run drives on at its next alarm. -/
theorem Moment.not_silent_of_stop_jammed :
    let ask (path : String) (body : Bytes) : Request :=
      ⟨Text.ofString "POST", Text.ofString "robot", Text.ofString path, [], body⟩
    let d := (Dashboard.new .standard (Text.ofString "config.json") []
      ⟨[.accepted], [.accepted, .unexpected]⟩).afterAll
      [ask "/file" (Utf8.encode (Text.ofString "0 1 rlinerot")), ask "/start" []]
    let after := (d.answer (ask "/stop" [])).2.1
    (∃ deeds, Moment.Reached ⟨d, []⟩ deeds) ∧ d.current = some 0 ∧ Asks (ask "/stop" []) .stop ∧
      (after.controls 0).aborted = false ∧ after.drawing = some [.lineAt 0 1] ∧
      ∃ later more, Moment.Leads ⟨after, []⟩ more later ∧
        Journal.handed (Deed.journalsOf 0 more) ≠ [] := by
  intro ask d after
  have hreachable : d.Reachable := ⟨_, _, _, _, Later.refl.afterAll _⟩
  have hcurrent : d.current = some 0 := by decide +kernel
  have hasks : Asks (ask "/stop" []) .stop := by
    unfold Asks
    decide +kernel
  have hdown : (after.controls 0).aborted = false := by decide +kernel
  have hdrawing : after.drawing = some [.lineAt 0 1] := by decide +kernel
  have hdrives : (after.sleepers.head?.map fun sleeper =>
      (sleeper.session, (Journal.handed (after.wake sleeper).2).isEmpty)) = some (0, false) := by
    decide +kernel
  clear_value after
  obtain ⟨sleeper, hsleeper, hwake⟩ := Option.map_eq_some_iff.mp hdrives
  rw [Prod.mk.injEq] at hwake
  refine ⟨hreachable.reached, hcurrent, hasks, hdown, hdrawing, _, _,
    .single (.wake sleeper (List.mem_of_mem_head? hsleeper)), ?_⟩
  rw [Deed.journalsOf, List.flatMap_singleton, hwake.1, Deed.journalOf_act_self]
  simpa using hwake.2

end PenRover
