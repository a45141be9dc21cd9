import PenRover.Proofs.Link.History
import PenRover.Proofs.Motion.Causes
import PenRover.Proofs.Motion.Lockstep

/-!
# Runs on the air

A run over the radio shares its session with the background task of the link.  `Broadcast` is such a
session, and `Broadcast.onAir` is the stage on which the background task may begin and wake as often
as it likes between any two things that the run does.  What it writes into the journal is kept apart
from the run's own.

In mild air (every failure is one that the link provides for) the link takes every frame and opens
without a fault.  So a run on the air is in lockstep with a rehearsal (`lockstep_onAir`): the
robot's link has no influence on it.
-/

namespace PenRover

/-! ### Mild air -/

/-- No connection attempt fails in a way that is not provided for, and every transmission arrives or
finds the connection closed. -/
structure Air.Mild (air : Air) : Prop where
  connects : ∀ reply ∈ air.connects, reply ≠ .unexpected
  transmissions : ∀ reply ∈ air.transmissions, reply = .accepted ∨ reply = .closed

namespace Air

variable {air : Air}

/-- In mild air the next attempt is provided for, and the air stays mild after it. -/
lemma Mild.nextConnect (h : air.Mild) :
    air.nextConnect.1 ≠ .unexpected ∧ air.nextConnect.2.Mild := by
  unfold Air.nextConnect
  split
  next => exact ⟨nofun, h⟩
  next reply rest heq =>
    have hconnects := h.connects
    rw [heq] at hconnects
    refine ⟨hconnects reply List.mem_cons_self, ?_, h.transmissions⟩
    exact fun other hother => hconnects other (List.mem_cons_of_mem _ hother)

/-- In mild air the next transmission arrives or finds the connection closed, and the air stays
mild. -/
lemma Mild.nextTransmission (h : air.Mild) :
    (air.nextTransmission.1 = .accepted ∨ air.nextTransmission.1 = .closed) ∧
      air.nextTransmission.2.Mild := by
  unfold Air.nextTransmission
  split
  next => exact ⟨.inl rfl, h⟩
  next reply rest heq =>
    have htransmissions := h.transmissions
    rw [heq] at htransmissions
    refine ⟨htransmissions reply List.mem_cons_self, h.connects, ?_⟩
    exact fun other hother => htransmissions other (List.mem_cons_of_mem _ hother)

end Air

/-- A background task that wakes takes one connection attempt from the air. -/
lemma Radio.air_wake (radio : Radio) (air : Air) (clock : Clock) :
    (radio.wake air clock).2.1 = air.nextConnect.2 := by
  obtain ⟨-, h⟩ | ⟨-, h⟩ | ⟨fault, -, -, h⟩ := Radio.waking_cases radio air clock <;> rw [h]

/-! ### Sessions on the air -/

/-- What the background task of a link does at one moment. -/
inductive Stir where
  /-- It begins, if it was called. -/
  | beginning
  /-- It wakes, if it waits. -/
  | waking
  deriving DecidableEq

namespace Session

/-- The background task does this much. -/
def stir : Stir → Act Session Unit
  | .beginning => settle
  | .waking => do
    let _ ← tick

/-- The background task does all this, one after the other; what it writes is given apart. -/
def stirAll (s : Session) : List Stir → Session × Journal
  | [] => (s, [])
  | one :: rest =>
    let (_, s, journal) := stir one s
    let (s, more) := s.stirAll rest
    (s, journal ++ more)

/-- The session uses the radio in mild air, with these settings and this abort flag. -/
structure OnAir (settings : Settings) (aborted : Bool) (s : Session) : Prop where
  onRadio : ∃ radio, s.link = .radio radio
  mild : s.air.Mild
  settings_eq : s.settings = settings
  aborted_eq : s.aborted = aborted

namespace OnAir

variable {settings : Settings} {aborted : Bool} {s : Session}

/-- The clock does not matter to whether a session is on the air. -/
lemma withClock (h : OnAir settings aborted s) (clock : Clock) :
    OnAir settings aborted { s with clock } :=
  ⟨h.onRadio, h.mild, h.settings_eq, h.aborted_eq⟩

/-- In mild air the link opens without a fault. -/
lemma «open» (h : OnAir settings aborted s) :
    ∃ t journal, Session.open s = (.ok (), t, journal) ∧ OnAir settings aborted t ∧
      Journal.moves journal = [] := by
  obtain ⟨⟨radio, hlink⟩, hmild, hsettings, haborted⟩ := h
  obtain ⟨hexpected, hrest⟩ := hmild.nextConnect
  rw [open_of_radio hlink]
  obtain ⟨-, hopen⟩ | ⟨hunexpected, -⟩ | ⟨fault, -, -, hopen⟩ := Radio.opening_cases radio s.air
  · rw [hopen]
    exact ⟨_, _, rfl, ⟨⟨_, rfl⟩, hrest, hsettings, haborted⟩, rfl⟩
  · exact absurd hunexpected hexpected
  · rw [hopen]
    exact ⟨_, _, rfl, ⟨⟨_, rfl⟩, hrest, hsettings, haborted⟩, rfl⟩

/-- In mild air the link takes all bytes, whatever becomes of them. -/
lemma send (h : OnAir settings aborted s) (bytes : Bytes) :
    ∃ t journal, Session.send bytes s = (.ok (), t, journal) ∧ OnAir settings aborted t ∧
      Journal.moves journal = [.send bytes] := by
  obtain ⟨⟨radio, hlink⟩, hmild, hsettings, haborted⟩ := h
  obtain ⟨hexpected, hrest⟩ := hmild.nextTransmission
  rw [send_of_radio hlink]
  obtain ⟨-, hsend⟩ | ⟨-, -, hsend⟩ | ⟨-, -, hsend⟩ | ⟨fault, -, hfault, hother, -⟩ :=
    Radio.sending_cases radio s.air bytes
  · rw [hsend]
    exact ⟨_, _, rfl, ⟨⟨_, rfl⟩, hmild, hsettings, haborted⟩, rfl⟩
  · rw [hsend]
    exact ⟨_, _, rfl, ⟨⟨_, rfl⟩, hrest, hsettings, haborted⟩, rfl⟩
  · rw [hsend]
    exact ⟨_, _, rfl, ⟨⟨_, rfl⟩, hrest, hsettings, haborted⟩, rfl⟩
  · obtain hreply | hreply := hexpected
    · rw [hreply] at hfault
      nomatch hfault
    · rw [hreply] at hfault
      exact absurd (Option.some.inj hfault).symm hother

/-- The background task leaves the run's settings and its flag alone, and the air stays mild. -/
lemma stir (h : OnAir settings aborted s) (one : Stir) :
    OnAir settings aborted (Session.stir one s).2.1 := by
  obtain ⟨⟨radio, hlink⟩, hmild, hsettings, haborted⟩ := h
  cases one with
  | beginning =>
    have hsettle : (Session.settle s).2.1.link = .radio (radio.settle s.clock).1 := by
      rw [Session.settle, hlink]
      rfl
    exact ⟨⟨_, hsettle⟩, hmild, hsettings, haborted⟩
  | waking =>
    cases halarm : radio.alarm? with
    | none =>
      have htick : Session.tick s = (.ok false, s, []) := by
        simp only [Session.tick, Link.alarm?, hlink, halarm]
      rw [Session.stir, Act.bind_ok htick]
      exact ⟨⟨radio, hlink⟩, hmild, hsettings, haborted⟩
    | some alarm =>
      have htick : Session.tick s = (do wake alarm; return true : Act Session Bool) s := by
        simp only [Session.tick, Link.alarm?, hlink, halarm]
      rw [Act.bind_ok (wake_of_radio hlink alarm)] at htick
      rw [Session.stir, Act.bind_ok htick]
      refine ⟨⟨_, rfl⟩, ?_, hsettings, haborted⟩
      rw [Radio.air_wake]
      exact hmild.nextConnect.2

/-- Whatever the background task does, the session stays on the air. -/
lemma stirAll (h : OnAir settings aborted s) (stirs : List Stir) :
    OnAir settings aborted (s.stirAll stirs).1 := by
  induction stirs generalizing s with
  | nil => exact h
  | cons one rest ih => exact ih (h.stir one)

end OnAir

/-! ### In step with a rehearsal -/

/-- A session on the air and a rehearsal are in step: they have the same settings and the same flag,
and this many waits of the rehearsal have begun. -/
structure InStep (waits : Nat) (s t : Session) : Prop where
  onAir : OnAir t.settings t.aborted s
  isRehearsal : t.IsRehearsal
  waits_eq : waits = t.clock.begun

section InStep

variable {waits : Nat} {s t : Session}

/-- Both links take a frame. -/
lemma alike_send (h : InStep waits s t) (frame : Frame) :
    Act.Alike (InStep waits) (Session.send frame.toBytes s) (Session.send frame.toBytes t) := by
  obtain ⟨hair, ⟨frames, hlink⟩, hwaits⟩ := h
  obtain ⟨u, journal, hsend, hu, hmoves⟩ := hair.send frame.toBytes
  have hdry : Session.send frame.toBytes t =
      (.ok (), { t with link := .rehearsal (frames ++ [frame.toBytes]) },
        [.note (.rehearsed frame), .event (.frame frame)]) := by
    simp only [Session.send, Link.send, hlink, Frame.ofBytes_toBytes]
  rw [hsend, hdry]
  exact ⟨rfl, ⟨hu, ⟨_, rfl⟩, hwaits⟩, hmoves⟩

/-- A request for powers on the air ends like one in the rehearsal. -/
lemma alike_drive (h : InStep waits s t) (left right : Value) :
    Act.Alike (InStep waits) (Session.drive left right s) (Session.drive left right t) := by
  unfold Session.drive
  split
  · refine (Act.alike_write _ h).bind fun _ s t h => ?_
    refine (Act.alike_ofExcept _ h).bind fun frame s t h => ?_
    cases frame with
    | none => exact Act.alike_write _ h
    | some frame =>
      refine Act.alike_state ?_
      rw [h.onAir.aborted_eq]
      split
      · exact Act.alike_pure () h
      · exact alike_send h frame
  · exact Act.alike_fail _ h

/-- A stop on the air ends like one in the rehearsal. -/
lemma alike_stop (h : InStep waits s t) :
    Act.Alike (InStep waits) (Session.stop s) (Session.stop t) := by
  refine (alike_drive h (.int 0) (.int 0)).bind fun _ s t h => Act.alike_modify ?_
  obtain ⟨⟨hradio, hmild, hsettings, -⟩, hdry, hwaits⟩ := h
  exact ⟨⟨hradio, hmild, hsettings, rfl⟩, hdry, hwaits⟩

end InStep

end Session

/-! ### Broadcasts -/

/-- A session that a run shares with the background task of its link. -/
structure Broadcast where
  session : Session
  /-- How many waits of the run have begun. -/
  waits : Nat
  /-- How many moments the background task has had. -/
  moments : Nat
  /-- What the background task wrote. -/
  meanwhile : Journal

namespace Broadcast

/-- A session before its run. -/
def new (session : Session) : Broadcast := ⟨session, 0, 0, []⟩

/-- An action of the session. -/
def inSession {α : Type} (act : Act Session α) : Act Broadcast α := fun b =>
  let (result, session, journal) := act b.session
  (result, { b with session }, journal)

/-- The background task has its next moment, for which it is said what it does. -/
def interlude (stirs : Nat → List Stir) : Act Broadcast Unit :=
  Act.modify fun b =>
    let (session, journal) := b.session.stirAll (stirs b.moments)
    { b with session, moments := b.moments + 1, meanwhile := b.meanwhile ++ journal }

/-- A wait of the run begins. -/
def beginWait (time : Value) : Act Broadcast Number := do
  let length ← inSession (Session.beginWait time)
  Act.modify fun b => { b with waits := b.waits + 1 }
  return length

/-- The session is stopped if the wait of the run that has just begun is one of these. -/
def heed (stops : Nat → Bool) : Act Broadcast Unit := do
  if stops (← Act.state).waits then inSession Session.stop

/-- The stage on which the background task has a moment before everything that the run does.  The
session is stopped when one of these waits of the run begins; they are counted from one. -/
def onAir (stops : Nat → Bool) (stirs : Nat → List Stir) : Script.Stage Broadcast where
  settings b := b.session.settings
  aborted b := b.session.aborted
  drive left right := do
    interlude stirs
    inSession (Session.drive left right)
  wait time := do
    interlude stirs
    let length ← beginWait time
    interlude stirs
    heed stops
    interlude stirs
    let alarm ← inSession (Session.setAlarm length)
    interlude stirs
    inSession (Session.endWait alarm)

/-- Opens the link and draws a drawing. -/
def run (stops : Nat → Bool) (stirs : Nat → List Stir) (commands : List Command) :
    Act Broadcast Outcome := do
  inSession Session.open
  (Script.draw commands).play (onAir stops stirs)

/-! ### Lockstep with a rehearsal -/

/-- The broadcast and the rehearsal are in step. -/
def InStep (b : Broadcast) (t : Session) : Prop := Session.InStep b.waits b.session t

variable {α : Type} {b : Broadcast} {t : Session}

/-- Actions of the session that end alike do so within a broadcast. -/
lemma alike_inSession {act other : Act Session α}
    (h : Act.Alike (Session.InStep b.waits) (act b.session) (other t)) :
    Act.Alike InStep (inSession act b) (other t) :=
  ⟨h.result_eq, h.related, h.moves_eq⟩

/-- A moment of the background task comes before the next thing that the run does, and shows in
nothing. -/
lemma alike_interlude {stirs : Nat → List Stir} {next : Unit → Act Broadcast α}
    {x : Except Fault α × Session × Journal} (h : b.InStep t)
    (hnext : ∀ b, b.InStep t → Act.Alike InStep (next () b) x) :
    Act.Alike InStep ((interlude stirs >>= next) b) x :=
  hnext _ ⟨h.onAir.stirAll _, h.isRehearsal, h.waits_eq⟩

/-- A wait on the air begins like one in the rehearsal, and is stopped when that one is. -/
lemma alike_beginWait (h : b.InStep t) (time : Value) :
    Act.Alike InStep (beginWait time b) (Session.beginWait time t) := by
  obtain ⟨hair, hdry, hwaits⟩ := h
  cases hcheck : Clock.checkTime time with
  | error fault =>
    have hbegin : inSession (Session.beginWait time) b = (.error fault, b, []) := by
      rw [inSession, Session.beginWait_of_error b.session hcheck]
    rw [beginWait, Act.bind_error hbegin, Session.beginWait_of_error t hcheck]
    exact ⟨rfl, ⟨hair, hdry, hwaits⟩, rfl⟩
  | ok length =>
    have hbegin : inSession (Session.beginWait time) b =
        (.ok length, { b with session := { b.session with clock := b.session.clock.begin } },
          [.event (.wait time)]) := by
      rw [inSession, Session.beginWait_of_ok b.session hcheck]
    rw [beginWait, Act.bind_ok hbegin, Session.beginWait_of_ok t hcheck]
    exact ⟨rfl, ⟨hair.withClock _, hdry, congrArg (· + 1) hwaits⟩, rfl⟩

/-- Both are stopped at the same waits. -/
lemma alike_heed (h : b.InStep t) (stops : Nat → Bool) :
    Act.Alike InStep (heed stops b) (Session.heed stops t) := by
  refine Act.alike_state ?_
  rw [h.waits_eq]
  split
  · exact alike_inSession (Session.alike_stop h)
  · exact Act.alike_pure () h

/-- The end of a wait: a length that cannot be waited for is found out on both. -/
lemma alike_endWait (h : b.InStep t) (stirs : Nat → List Stir) (length : Number) :
    Act.Alike InStep
      ((inSession (Session.setAlarm length) >>= fun alarm => interlude stirs >>= fun _ =>
        inSession (Session.endWait alarm)) b)
      ((Session.setAlarm length >>= Session.endWait) t) := by
  have hset (s : Session) : (Session.setAlarm length s).1 =
      (Clock.seconds length).map fun seconds => ⟨s.clock.now + seconds, s.clock.alarms⟩ := rfl
  have haired : (inSession (Session.setAlarm length) b).1 =
      (Session.setAlarm length b.session).1 := rfl
  -- the two clocks differ, and so do the alarms: all that counts is whether there is one
  refine Act.alike_bind ⟨h.onAir.withClock _, h.isRehearsal, h.waits_eq⟩ rfl ?_ ?_
  · intro fault hfault
    rw [haired, hset] at hfault
    rw [hset]
    cases hlength : Clock.seconds length with
    | error other => simpa [hlength, Except.map] using hfault
    | ok seconds => simp [hlength, Except.map] at hfault
  · intro alarm halarm
    rw [haired, hset] at halarm
    rw [hset]
    cases hlength : Clock.seconds length with
    | error other => simp [hlength, Except.map] at halarm
    | ok seconds =>
      refine ⟨_, rfl, fun b t h => alike_interlude h fun b h => ?_⟩
      refine ⟨rfl, ⟨h.onAir.withClock _, h.isRehearsal, ?_⟩, rfl⟩
      exact h.waits_eq.trans (Clock.begun_ring t.clock _).symm

/-- The run on the air and the rehearsal do everything alike. -/
lemma lockstep_onAir (stops : Nat → Bool) (stirs : Nat → List Stir) :
    (onAir stops stirs).Lockstep (Session.rehearsal stops) InStep where
  settings_eq h := h.onAir.settings_eq
  aborted_eq h := h.onAir.aborted_eq
  drive left right _ _ h :=
    alike_interlude h fun _ h => alike_inSession (Session.alike_drive h left right)
  wait time _ _ h := by
    rw [Session.rehearsal_wait_eq]
    refine alike_interlude h fun _ h => (alike_beginWait h time).bind fun length _ _ h => ?_
    refine alike_interlude h fun _ h => (alike_heed h stops).bind fun _ _ _ h => ?_
    exact alike_interlude h fun _ h => alike_endWait h stirs length

/-- Opening the link is no move, and what follows is in lockstep. -/
lemma alike_run {s : Session} (hair : Session.OnAir t.settings t.aborted s) (hdry : t.IsRehearsal)
    (hstart : t.clock.begun = 0) (stops : Nat → Bool) (stirs : Nat → List Stir)
    (commands : List Command) :
    Act.Alike InStep (run stops stirs commands (new s))
      ((Script.draw commands).play (Session.rehearsal stops) t) := by
  obtain ⟨u, journal, hopen, hu, hsilent⟩ := hair.open
  have hopened : inSession Session.open (new s) = (.ok (), new u, journal) := by
    rw [inSession, new, hopen]
    rfl
  have hstep : (new u).InStep t := ⟨hu, hdry, hstart.symm⟩
  obtain ⟨hresult, hrelated, hmoves⟩ :=
    Script.alike_play (lockstep_onAir stops stirs) (Script.draw commands) hstep
  rw [run, Act.bind_ok hopened]
  refine ⟨hresult, hrelated, ?_⟩
  rw [Journal.moves_append, hsilent, List.nil_append]
  exact hmoves

end Broadcast

open Broadcast in
/-- The robot's link has no influence on a drawing, as long as its failures are those that it
provides for: whatever the connection attempts and the transmissions come to, and whenever the
background task begins and wakes, opening the radio and drawing on the air ends as the rehearsal of
the same drawing, stopped at the same waits, after the same moves, and never with a fault of the
link. -/
theorem Broadcast.run_alike_rehearsal (commands : List Command) (settings : Settings)
    (url delay : Value) (air : Air) (hair : air.Mild) (clock : Clock) (stops : Nat → Bool)
    (stirs : Nat → List Stir) :
    let aired := run stops stirs commands
      (new ⟨settings, .radio (Radio.new url delay), false, air, clock⟩)
    let rehearsed := (Script.draw commands).play (Session.rehearsal stops)
      ⟨settings, .rehearsal [], false, ⟨[], []⟩, .start⟩
    aired.1 = rehearsed.1 ∧ Journal.moves aired.2.2 = Journal.moves rehearsed.2.2 ∧
      ∀ fault, aired.1 = .error fault → fault ∉ Fault.ofLink := by
  intro aired rehearsed
  have hdry : Session.IsRehearsal ⟨settings, .rehearsal [], false, ⟨[], []⟩, .start⟩ := ⟨[], rfl⟩
  have hfresh : Session.OnAir settings false
      ⟨settings, .radio (Radio.new url delay), false, air, clock⟩ :=
    ⟨⟨_, rfl⟩, hair, rfl, rfl⟩
  have halike : Act.Alike InStep aired rehearsed := alike_run hfresh hdry rfl stops stirs commands
  refine ⟨halike.result_eq, halike.moves_eq, fun fault hfault hlink => ?_⟩
  -- the fault is the rehearsal's own, and there is no link in a rehearsal
  have hoffline : Offline rehearsed.1 := Script.offline_play_draw stops commands ⟨hdry, rfl, rfl⟩
  rw [halike.result_eq] at hfault
  exact hoffline fault hlink hfault

open Broadcast in
/-- The robot refuses two calls, and loses the connection that is made at last. -/
theorem Broadcast.run_alike_rehearsal_lost :
    let air : Air := ⟨[.refused, .timedOut, .accepted], [.accepted, .closed]⟩
    let commands : List Command := [.lineAt 0 2, .lineBy 0 3]
    let radio : Session :=
      ⟨.standard, .radio (Radio.new (.text "ws://robot") (.int 1)), false, air, .start⟩
    let dry : Session := ⟨.standard, .rehearsal [], false, ⟨[], []⟩, .start⟩
    air.Mild ∧ ∃ b journal t written,
      run (fun n => n == 4) (fun _ => [.beginning, .waking]) commands (new radio) =
        (.ok .cancelled, b, journal) ∧
      (Script.draw commands).play (Session.rehearsal fun n => n == 4) dry =
        (.ok .cancelled, t, written) ∧
      Journal.moves journal = Journal.moves written := by
  intro air commands radio dry
  have hair : air.Mild := ⟨by decide, by decide⟩
  have hcancelled : ((Script.draw commands).play (Session.rehearsal fun n => n == 4) dry).1 =
      .ok .cancelled := by
    decide +kernel
  obtain ⟨hresult, hmoves, -⟩ := Broadcast.run_alike_rehearsal commands .standard
    (.text "ws://robot") (.int 1) air hair .start (fun n => n == 4) (fun _ => [.beginning, .waking])
  refine ⟨hair, ?_⟩
  generalize run _ _ commands _ = aired at hresult hmoves ⊢
  generalize (Script.draw commands).play _ _ = rehearsed at hresult hmoves hcancelled ⊢
  obtain ⟨result, b, journal⟩ := aired
  obtain ⟨result', t, written⟩ := rehearsed
  obtain rfl : result' = .ok .cancelled := hcancelled
  obtain rfl : result = .ok .cancelled := hresult
  exact ⟨b, journal, t, written, rfl, rfl, hmoves⟩

end PenRover
