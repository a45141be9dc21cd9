import Mathlib.Tactic.Common
import PenRover.Session

/-!
# Rehearsals of scripts

A rehearsal acts a script out on a session with a clock, a link and a journal.  For what the robot
does, only two things of that session matter: how many waits have begun, and whether the abort flag
is up.  `Script.rehearse` follows a script with these two alone and lists its events, and
`play_rehearsal` says that the session does the same.

Once the flag is up nothing is driven any more (`rehearse_of_aborted`).  As long as it stays down
nothing has happened that the undisturbed rehearsal does not do (`rehearse_of_not_aborted`).  So a
rehearsal that is stopped ends with a stop frame behind everything that it drove
(`getLast?_frames_rehearse`).
-/

namespace PenRover

/-! ### Events -/

namespace Event

/-- The event is a wait. -/
def isWait : Event → Bool
  | .wait _ => true
  | _ => false

/-- The frame of an event. -/
def frame? : Event → Option Frame
  | .frame f => some f
  | _ => none

/-- A frame is no wait. -/
@[simp] lemma isWait_frame (frame : Frame) : (Event.frame frame).isWait = false := rfl

/-- A wait is one. -/
@[simp] lemma isWait_wait (time : Value) : (Event.wait time).isWait = true := rfl

/-- The frame of an event that is one. -/
@[simp] lemma frame?_frame (frame : Frame) : (Event.frame frame).frame? = some frame := rfl

/-- A wait has no frame. -/
@[simp] lemma frame?_wait (time : Value) : (Event.wait time).frame? = none := rfl

end Event

/-- The frames among events, in order. -/
def framesOf (events : List Event) : List Frame := events.filterMap Event.frame?

/-- How many events are waits. -/
def waitsOf (events : List Event) : Nat := events.countP Event.isWait

/-- Without events there are no frames. -/
@[simp] lemma framesOf_nil : framesOf [] = [] := rfl

/-- A frame comes before those of the later events. -/
@[simp] lemma framesOf_cons_frame (frame : Frame) (events : List Event) :
    framesOf (.frame frame :: events) = frame :: framesOf events := rfl

/-- A wait adds no frame. -/
@[simp] lemma framesOf_cons_wait (time : Value) (events : List Event) :
    framesOf (.wait time :: events) = framesOf events := rfl

/-- The frames of two lists of events come one after another. -/
@[simp] lemma framesOf_append (first second : List Event) :
    framesOf (first ++ second) = framesOf first ++ framesOf second := by
  simp [framesOf]

/-- Without events there are no waits. -/
@[simp] lemma waitsOf_nil : waitsOf [] = 0 := rfl

/-- A frame adds no wait. -/
@[simp] lemma waitsOf_cons_frame (frame : Frame) (events : List Event) :
    waitsOf (.frame frame :: events) = waitsOf events := by
  simp [waitsOf]

/-- A wait counts one. -/
@[simp] lemma waitsOf_cons_wait (time : Value) (events : List Event) :
    waitsOf (.wait time :: events) = waitsOf events + 1 :=
  List.countP_cons_of_pos rfl

/-- The waits of two lists of events add up. -/
@[simp] lemma waitsOf_append (first second : List Event) :
    waitsOf (first ++ second) = waitsOf first + waitsOf second := by
  simp [waitsOf]

namespace Journal

/-- An empty journal has no events. -/
@[simp] lemma events_nil : Journal.events [] = [] := rfl

/-- An event of a journal comes before the later ones. -/
@[simp] lemma events_cons_event (event : Event) (journal : Journal) :
    Journal.events (.event event :: journal) = event :: Journal.events journal := rfl

/-- A note of a journal is no event. -/
@[simp] lemma events_cons_note (note : Note) (journal : Journal) :
    Journal.events (.note note :: journal) = Journal.events journal := rfl

/-- The events of two journals come one after another. -/
@[simp] lemma events_append (first second : Journal) :
    Journal.events (first ++ second) = Journal.events first ++ Journal.events second := by
  simp [Journal.events]

end Journal

namespace Clock

/-- A length that has a double is waited for that long. -/
lemma seconds_of_toDouble {length : Number} {x : Float} (h : length.toDouble = .ok x) :
    Clock.seconds length = .ok x := by
  simp only [Clock.seconds, h]

/-- Setting an alarm begins no wait. -/
@[simp] lemma begun_set (clock : Clock) (length : Number) :
    (clock.set length).2.begun = clock.begun := rfl

/-- An alarm that goes off begins no wait. -/
@[simp] lemma begun_ring (clock : Clock) (alarm : Alarm) :
    (clock.ring alarm).begun = clock.begun := by
  unfold Clock.ring
  split <;> rfl

end Clock

/-! ### Requests for powers -/

/-- The frame that a request for two powers comes to, none when they fit no frame.  A request that
cannot be noted down fails before the powers are looked at. -/
def Frame.request (left right : Value) : Except Fault (Option Frame) :=
  if left.isDisplayable && right.isDisplayable then Frame.ofPowers? left right
  else .error .tooLongToWrite

/-- Zero can be noted down. -/
@[simp] lemma Value.isDisplayable_zero : Value.isDisplayable (.int 0) = true := by
  have hshort : ¬ 10 ^ maxNumeralDigits ≤ (0 : Int).natAbs :=
    Nat.not_le.mpr (Nat.pow_pos (by decide))
  simp only [int, isDisplayable, isTooLong, hshort, decide_false, Bool.not_false]

/-- The powers zero fit the stop frame. -/
@[simp] lemma Frame.ofPowers?_zero : Frame.ofPowers? (.int 0) (.int 0) = .ok (some .stop) := rfl

/-- A request for the powers zero comes to the stop frame. -/
@[simp] lemma Frame.request_stop : Frame.request (.int 0) (.int 0) = .ok (some .stop) := by
  simp [request]

/-! ### Following a script -/

namespace Script

/-- How far a rehearsal is: how many waits have begun, and whether the abort flag is up. -/
structure Progress where
  begun : Nat
  aborted : Bool
  deriving DecidableEq

namespace Progress

/-- The progress when a wait begins. -/
def begin (p : Progress) : Progress := { p with begun := p.begun + 1 }

/-- The progress when a wait has begun, at which these waits are stopped. -/
def enter (stops : Nat → Bool) (p : Progress) : Progress :=
  { p.begin with aborted := p.aborted || stops p.begin.begun }

/-- The events of the beginning of a wait: the wait, and a stop frame if this wait is stopped and
the flag was still down. -/
def entrance (stops : Nat → Bool) (p : Progress) (time : Value) : List Event :=
  .wait time :: if stops p.begin.begun && !p.aborted then [.frame .stop] else []

/-- The events of a request that fits a frame: none once the flag is up. -/
def sending (p : Progress) (frame : Option Frame) : List Event :=
  if p.aborted then [] else (frame.map Event.frame).toList

/-- A wait that begins is counted. -/
@[simp] lemma begun_begin (p : Progress) : p.begin.begun = p.begun + 1 := rfl

/-- A wait that begins does not touch the flag. -/
@[simp] lemma aborted_begin (p : Progress) : p.begin.aborted = p.aborted := rfl

/-- A wait that begins is counted, whether it is stopped or not. -/
@[simp] lemma begun_enter (stops : Nat → Bool) (p : Progress) :
    (p.enter stops).begun = p.begun + 1 := rfl

/-- The flag is up after the beginning of a wait when it was up or the wait is stopped. -/
@[simp] lemma aborted_enter (stops : Nat → Bool) (p : Progress) :
    (p.enter stops).aborted = (p.aborted || stops (p.begun + 1)) := rfl

/-- A request is no wait. -/
@[simp] lemma waitsOf_sending (p : Progress) (frame : Option Frame) :
    waitsOf (p.sending frame) = 0 := by
  unfold sending
  cases frame <;> split <;> simp

/-- One wait begins when one begins. -/
@[simp] lemma waitsOf_entrance (stops : Nat → Bool) (p : Progress) (time : Value) :
    waitsOf (p.entrance stops time) = 1 := by
  unfold entrance
  split <;> simp

end Progress

/-- What a rehearsal comes to: its end, how far it got, and its events. -/
abbrev Rehearsed (α : Type) := Except Fault α × Progress × List Event

/-- Events before those of a rehearsal. -/
def Rehearsed.after {α : Type} (events : List Event) (r : Rehearsed α) : Rehearsed α :=
  (r.1, r.2.1, events ++ r.2.2)

variable {α β : Type}

/-- Follows a script under fixed settings; `stops` says at the beginning of which waits the session
is stopped. -/
@[simp] def rehearse (settings : Settings) (stops : Nat → Bool) : Script α → Progress → Rehearsed α
  | .finish a, p => (.ok a, p, [])
  | .fail fault, p => (.error fault, p, [])
  | .note _ next, p => next.rehearse settings stops p
  | .consult next, p => (next settings).rehearse settings stops p
  | .poll next, p => (next p.aborted).rehearse settings stops p
  | .drive left right next, p =>
    match Frame.request left right with
    | .error fault => (.error fault, p, [])
    | .ok frame => (next.rehearse settings stops p).after (p.sending frame)
  | .wait time next, p =>
    match Clock.checkTime time with
    | .error fault => (.error fault, p, [])
    | .ok length =>
      match Clock.seconds length with
      | .error fault => (.error fault, p.enter stops, p.entrance stops time)
      | .ok _ => (next.rehearse settings stops (p.enter stops)).after (p.entrance stops time)

/-- The rehearsal that nobody stops. -/
def quiet : Nat → Bool := fun _ => false

/-- Nobody stops a quiet rehearsal at any wait. -/
@[simp] lemma quiet_apply (n : Nat) : quiet n = false := rfl

/-- When nobody stops it, a wait that begins is all that happens. -/
@[simp] lemma Progress.entrance_quiet (p : Progress) (time : Value) :
    p.entrance quiet time = [.wait time] := by
  simp [entrance]

/-! ### One step of a rehearsal -/

section Steps

variable {settings : Settings} {stops : Nat → Bool} {p : Progress}

/-- A rehearsal ends with a request that fails. -/
lemma rehearse_drive_of_error {left right : Value} {fault : Fault} {next : Script α}
    (h : Frame.request left right = .error fault) :
    (Script.drive left right next).rehearse settings stops p = (.error fault, p, []) := by
  simp only [rehearse, h]

/-- A rehearsal goes on after a request, with its frame unless the flag is up. -/
lemma rehearse_drive_of_ok {left right : Value} {frame : Option Frame} {next : Script α}
    (h : Frame.request left right = .ok frame) :
    (Script.drive left right next).rehearse settings stops p =
      (next.rehearse settings stops p).after (p.sending frame) := by
  simp only [rehearse, h]

/-- A value that is no length of time fails before its wait begins. -/
lemma rehearse_wait_of_refused {time : Value} {fault : Fault} {next : Script α}
    (h : Clock.checkTime time = .error fault) :
    (Script.wait time next).rehearse settings stops p = (.error fault, p, []) := by
  simp only [rehearse, h]

/-- A length of time above the range of doubles fails once its wait has begun. -/
lemma rehearse_wait_of_late {time : Value} {length : Number} {fault : Fault} {next : Script α}
    (h : Clock.checkTime time = .ok length) (hlate : Clock.seconds length = .error fault) :
    (Script.wait time next).rehearse settings stops p =
      (.error fault, p.enter stops, p.entrance stops time) := by
  simp only [rehearse, h, hlate]

/-- A rehearsal goes on after a wait of a proper length. -/
lemma rehearse_wait_of_ok {time : Value} {length : Number} {seconds : Float} {next : Script α}
    (h : Clock.checkTime time = .ok length) (hlength : Clock.seconds length = .ok seconds) :
    (Script.wait time next).rehearse settings stops p =
      (next.rehearse settings stops (p.enter stops)).after (p.entrance stops time) := by
  simp only [rehearse, h, hlength]

end Steps

/-- A wait is refused, or fails once it has begun, or is held. -/
lemma wait_cases (time : Value) :
    (∃ fault, Clock.checkTime time = .error fault) ∨
      (∃ length fault, Clock.checkTime time = .ok length ∧ Clock.seconds length = .error fault) ∨
      ∃ length seconds, Clock.checkTime time = .ok length ∧ Clock.seconds length = .ok seconds := by
  cases hcheck : Clock.checkTime time with
  | error fault => exact .inl ⟨fault, rfl⟩
  | ok length =>
    cases hlength : Clock.seconds length with
    | error fault => exact .inr (.inl ⟨length, fault, rfl, hlength⟩)
    | ok seconds => exact .inr (.inr ⟨length, seconds, rfl, hlength⟩)

/-- A rehearsal of two scripts, one after the other. -/
lemma rehearse_bind (settings : Settings) (stops : Nat → Bool) (script : Script α)
    (next : α → Script β) (p : Progress) :
    (script >>= next).rehearse settings stops p =
      match script.rehearse settings stops p with
      | (.error fault, q, events) => (.error fault, q, events)
      | (.ok a, q, events) => ((next a).rehearse settings stops q).after events := by
  change (script.bind next).rehearse settings stops p = _
  induction script generalizing p with
  | finish a => simp [Script.bind, rehearse, Rehearsed.after]
  | fail fault => rfl
  | note n script ih => exact ih p
  | consult script ih => exact ih settings p
  | poll script ih => exact ih p.aborted p
  | drive left right script ih =>
    rw [Script.bind]
    cases hrequest : Frame.request left right with
    | error fault => rw [rehearse_drive_of_error hrequest, rehearse_drive_of_error hrequest]
    | ok frame =>
      rw [rehearse_drive_of_ok hrequest, rehearse_drive_of_ok hrequest, ih]
      rcases script.rehearse settings stops p with ⟨_ | _, _, _⟩ <;>
        simp [Rehearsed.after, List.append_assoc]
  | wait time script ih =>
    rw [Script.bind]
    obtain ⟨fault, h⟩ | ⟨length, fault, h, hlate⟩ | ⟨length, seconds, h, hlength⟩ :=
      wait_cases time
    · rw [rehearse_wait_of_refused h, rehearse_wait_of_refused h]
    · rw [rehearse_wait_of_late h hlate, rehearse_wait_of_late h hlate]
    · rw [rehearse_wait_of_ok h hlength, rehearse_wait_of_ok h hlength, ih]
      rcases script.rehearse settings stops (p.enter stops) with ⟨_ | _, _, _⟩ <;>
        simp [Rehearsed.after, List.append_assoc]

/-! ### The flag -/

/-- Once the flag is up it stays up, and nothing is driven any more. -/
lemma rehearse_of_aborted (settings : Settings) (stops : Nat → Bool) (script : Script α)
    (p : Progress) (h : p.aborted = true) :
    (script.rehearse settings stops p).2.1.aborted = true ∧
      framesOf (script.rehearse settings stops p).2.2 = [] := by
  induction script generalizing p with
  | finish a => exact ⟨h, rfl⟩
  | fail fault => exact ⟨h, rfl⟩
  | note n script ih => exact ih p h
  | consult script ih => exact ih settings p h
  | poll script ih => exact ih p.aborted p h
  | drive left right script ih =>
    cases hrequest : Frame.request left right with
    | error fault => rw [rehearse_drive_of_error hrequest]; exact ⟨h, rfl⟩
    | ok frame =>
      rw [rehearse_drive_of_ok hrequest]
      refine ⟨(ih p h).1, ?_⟩
      simp [Rehearsed.after, Progress.sending, h, (ih p h).2]
  | wait time script ih =>
    have hentrance : framesOf (p.entrance stops time) = [] := by
      simp [Progress.entrance, h]
    have henter : (p.enter stops).aborted = true := by simp [h]
    obtain ⟨fault, hc⟩ | ⟨length, fault, hc, hlate⟩ | ⟨length, seconds, hc, hlength⟩ :=
      wait_cases time
    · rw [rehearse_wait_of_refused hc]
      exact ⟨h, rfl⟩
    · rw [rehearse_wait_of_late hc hlate]
      exact ⟨henter, hentrance⟩
    · rw [rehearse_wait_of_ok hc hlength]
      refine ⟨(ih _ henter).1, ?_⟩
      simp [Rehearsed.after, hentrance, (ih _ henter).2]

/-- A rehearsal that ends with the flag down has left it down all along. -/
lemma aborted_eq_false_of_rehearse {settings : Settings} {stops : Nat → Bool} {script : Script α}
    {p : Progress} (h : (script.rehearse settings stops p).2.1.aborted = false) :
    p.aborted = false := by
  by_contra hup
  rw [Bool.not_eq_false] at hup
  rw [(rehearse_of_aborted settings stops script p hup).1] at h
  exact Bool.noConfusion h

/-- A wait that leaves the flag down is like the same wait with nobody to stop it. -/
lemma enter_of_not_aborted (stops : Nat → Bool) (p : Progress) (time : Value)
    (h : (p.enter stops).aborted = false) :
    p.enter stops = p.enter quiet ∧ p.entrance stops time = p.entrance quiet time := by
  simp only [Progress.aborted_enter, Bool.or_eq_false_iff] at h
  constructor
  · simp [Progress.enter, h.2, quiet]
  · simp [Progress.entrance, h.2, quiet]

/-- A rehearsal that ends with the flag down is the quiet one: it was stopped at no wait. -/
lemma rehearse_of_not_aborted (settings : Settings) (stops : Nat → Bool) (script : Script α)
    (p : Progress) (h : (script.rehearse settings stops p).2.1.aborted = false) :
    script.rehearse settings stops p = script.rehearse settings quiet p := by
  induction script generalizing p with
  | finish a => rfl
  | fail fault => rfl
  | note n script ih => exact ih p h
  | consult script ih => exact ih settings p h
  | poll script ih => exact ih p.aborted p h
  | drive left right script ih =>
    cases hrequest : Frame.request left right with
    | error fault => rw [rehearse_drive_of_error hrequest, rehearse_drive_of_error hrequest]
    | ok frame =>
      rw [rehearse_drive_of_ok hrequest] at h ⊢
      rw [rehearse_drive_of_ok hrequest, ih p h]
  | wait time script ih =>
    obtain ⟨fault, hc⟩ | ⟨length, fault, hc, hlate⟩ | ⟨length, seconds, hc, hlength⟩ :=
      wait_cases time
    · rw [rehearse_wait_of_refused hc, rehearse_wait_of_refused hc]
    · rw [rehearse_wait_of_late hc hlate] at h ⊢
      obtain ⟨henter, hentrance⟩ := enter_of_not_aborted stops p time h
      rw [rehearse_wait_of_late hc hlate, henter, hentrance]
    · rw [rehearse_wait_of_ok hc hlength] at h ⊢
      obtain ⟨henter, hentrance⟩ :=
        enter_of_not_aborted stops p time (aborted_eq_false_of_rehearse h)
      rw [rehearse_wait_of_ok hc hlength, ih _ h, henter, hentrance]

/-- A rehearsal that is stopped at none of the waits of the quiet one is the quiet one. -/
lemma rehearse_of_unstopped (settings : Settings) (stops : Nat → Bool) (script : Script α)
    (p : Progress) (hp : p.aborted = false)
    (h : ∀ k, p.begun < k → k ≤ p.begun + waitsOf (script.rehearse settings quiet p).2.2 →
      stops k = false) :
    script.rehearse settings stops p = script.rehearse settings quiet p := by
  induction script generalizing p with
  | finish a => rfl
  | fail fault => rfl
  | note n script ih => exact ih p hp h
  | consult script ih => exact ih settings p hp h
  | poll script ih => exact ih p.aborted p hp h
  | drive left right script ih =>
    cases hrequest : Frame.request left right with
    | error fault => rw [rehearse_drive_of_error hrequest, rehearse_drive_of_error hrequest]
    | ok frame =>
      rw [rehearse_drive_of_ok hrequest] at h ⊢
      rw [rehearse_drive_of_ok hrequest, ih p hp]
      intro k hlow hhigh
      refine h k hlow (Nat.le_trans hhigh ?_)
      simp [Rehearsed.after]
  | wait time script ih =>
    obtain ⟨fault, hc⟩ | ⟨length, fault, hc, hlate⟩ | ⟨length, seconds, hc, hlength⟩ :=
      wait_cases time
    · rw [rehearse_wait_of_refused hc, rehearse_wait_of_refused hc]
    · rw [rehearse_wait_of_late hc hlate] at h ⊢
      have hfirst : stops (p.begun + 1) = false :=
        h _ (Nat.lt_succ_self _) (by simp)
      obtain ⟨henter, hentrance⟩ := enter_of_not_aborted stops p time
        (by simp [hp, hfirst])
      rw [rehearse_wait_of_late hc hlate, henter, hentrance]
    · rw [rehearse_wait_of_ok hc hlength] at h ⊢
      have hfirst : stops (p.begun + 1) = false :=
        h _ (Nat.lt_succ_self _) (by simp [Rehearsed.after])
      obtain ⟨henter, hentrance⟩ := enter_of_not_aborted stops p time
        (by simp [hp, hfirst])
      rw [rehearse_wait_of_ok hc hlength, henter, hentrance, ih _ (by simp [hp])]
      intro k hlow hhigh
      refine h k (by simp at hlow; omega) (Nat.le_trans hhigh ?_)
      simp [Rehearsed.after]
      omega

/-- A rehearsal that ends with the flag down was stopped at none of its waits. -/
lemma stops_eq_false_of_rehearse (settings : Settings) (stops : Nat → Bool) (script : Script α)
    (p : Progress) (h : (script.rehearse settings stops p).2.1.aborted = false) (k : Nat)
    (hlow : p.begun < k) (hhigh : k ≤ p.begun + waitsOf (script.rehearse settings stops p).2.2) :
    stops k = false := by
  induction script generalizing p with
  | finish a => simp [rehearse] at hhigh; omega
  | fail fault => simp [rehearse] at hhigh; omega
  | note n script ih => exact ih p h hlow hhigh
  | consult script ih => exact ih settings p h hlow hhigh
  | poll script ih => exact ih p.aborted p h hlow hhigh
  | drive left right script ih =>
    cases hrequest : Frame.request left right with
    | error fault =>
      rw [rehearse_drive_of_error hrequest] at hhigh
      simp at hhigh
      omega
    | ok frame =>
      rw [rehearse_drive_of_ok hrequest] at h hhigh
      simp only [Rehearsed.after, waitsOf_append, Progress.waitsOf_sending, Nat.zero_add] at hhigh
      exact ih p h hlow hhigh
  | wait time script ih =>
    obtain ⟨fault, hc⟩ | ⟨length, fault, hc, hlate⟩ | ⟨length, seconds, hc, hlength⟩ :=
      wait_cases time
    · rw [rehearse_wait_of_refused hc] at hhigh
      simp at hhigh
      omega
    · rw [rehearse_wait_of_late hc hlate] at h hhigh
      obtain rfl : k = p.begun + 1 := by
        simp only [Progress.waitsOf_entrance] at hhigh
        omega
      simp only [Progress.aborted_enter, Bool.or_eq_false_iff] at h
      exact h.2
    · rw [rehearse_wait_of_ok hc hlength] at h hhigh
      simp only [Rehearsed.after, waitsOf_append, Progress.waitsOf_entrance] at hhigh
      by_cases hk : k = p.begun + 1
      · have hdown := aborted_eq_false_of_rehearse h
        simp only [Progress.aborted_enter, Bool.or_eq_false_iff] at hdown
        rw [hk]
        exact hdown.2
      · exact ih _ h (by rw [Progress.begun_enter]; omega) (by rw [Progress.begun_enter]; omega)

/-- A rehearsal that raises the flag drives a stop frame last, and nothing at all if the flag was up
from the beginning. -/
lemma getLast?_frames_rehearse (settings : Settings) (stops : Nat → Bool) (script : Script α)
    (p : Progress) (h : (script.rehearse settings stops p).2.1.aborted = true) :
    (framesOf (script.rehearse settings stops p).2.2).getLast? =
      if p.aborted then none else some .stop := by
  induction script generalizing p with
  | finish a => simp_all [rehearse]
  | fail fault => simp_all [rehearse]
  | note n script ih => exact ih p h
  | consult script ih => exact ih settings p h
  | poll script ih => exact ih p.aborted p h
  | drive left right script ih =>
    cases hrequest : Frame.request left right with
    | error fault =>
      rw [rehearse_drive_of_error hrequest] at h ⊢
      simp_all
    | ok frame =>
      rw [rehearse_drive_of_ok hrequest] at h ⊢
      have hlast := ih p h
      cases hup : p.aborted with
      | true => simp_all [Rehearsed.after, Progress.sending]
      | false => simp_all [Rehearsed.after, List.getLast?_append]
  | wait time script ih =>
    obtain ⟨fault, hc⟩ | ⟨length, fault, hc, hlate⟩ | ⟨length, seconds, hc, hlength⟩ :=
      wait_cases time
    · rw [rehearse_wait_of_refused hc] at h ⊢
      simp_all
    · rw [rehearse_wait_of_late hc hlate] at h ⊢
      cases hup : p.aborted <;> simp_all [Progress.entrance]
    · rw [rehearse_wait_of_ok hc hlength] at h ⊢
      have hlast := ih _ h
      cases hup : p.aborted with
      | true => simp_all [Rehearsed.after, Progress.entrance]
      | false =>
        cases hstop : stops (p.begun + 1) with
        | true =>
          -- the stop frame of this wait is the last one, for the flag is up from here on
          have hsilent := (rehearse_of_aborted settings stops script (p.enter stops)
            (by simp [hstop])).2
          simp [Rehearsed.after, Progress.entrance, hup, hstop, hsilent]
        | false => simp_all [Rehearsed.after, Progress.entrance]

end Script

/-! ### Stages that follow a script -/

namespace Script

/-- A stage does what `rehearse` says, as far as anybody can see; `far` says how far its state is.
This leaves open what becomes of a wait whose alarm cannot be set. -/
structure Stage.Follows {σ : Type} (stage : Stage σ) (settings : Settings) (stops : Nat → Bool)
    (far : σ → Progress → Prop) : Prop where
  settings_eq : ∀ {s p}, far s p → stage.settings s = settings
  aborted_eq : ∀ {s p}, far s p → stage.aborted s = p.aborted
  drive : ∀ {s p}, far s p → ∀ left right,
    (∃ fault journal, Frame.request left right = .error fault ∧
      stage.drive left right s = (.error fault, s, journal) ∧ Journal.events journal = []) ∨
    ∃ frame t journal, Frame.request left right = .ok frame ∧
      stage.drive left right s = (.ok (), t, journal) ∧ far t p ∧
      Journal.events journal = p.sending frame
  refuse : ∀ {s p}, far s p → ∀ time fault, Clock.checkTime time = .error fault →
    stage.wait time s = (.error fault, s, [])
  wait : ∀ {s p}, far s p → ∀ time length seconds, Clock.checkTime time = .ok length →
    Clock.seconds length = .ok seconds →
    ∃ t journal, stage.wait time s = (.ok (), t, journal) ∧ far t (p.enter stops) ∧
      Journal.events journal = p.entrance stops time

/-- A wait whose alarm cannot be set fails on the stage as it does for `rehearse`. -/
def Stage.FailsLate {σ : Type} (stage : Stage σ) (stops : Nat → Bool)
    (far : σ → Progress → Prop) : Prop :=
  ∀ {s p}, far s p → ∀ time length fault, Clock.checkTime time = .ok length →
    Clock.seconds length = .error fault →
    ∃ t journal, stage.wait time s = (.error fault, t, journal) ∧ far t (p.enter stops) ∧
      Journal.events journal = p.entrance stops time

/-- Such a stage ends a script as it is followed, and shows the same events, if all alarms can be
set or it fails in the same way when one cannot. -/
lemma play_of_follows {σ α : Type} {stage : Stage σ} {settings : Settings} {stops : Nat → Bool}
    {far : σ → Progress → Prop} (hstage : stage.Follows settings stops far) (script : Script α)
    {s : σ} {p : Progress} (h : far s p)
    (hends : stage.FailsLate stops far ∨ ∃ a, (script.rehearse settings stops p).1 = .ok a) :
    ∃ t journal, script.play stage s = ((script.rehearse settings stops p).1, t, journal) ∧
      far t (script.rehearse settings stops p).2.1 ∧
      Journal.events journal = (script.rehearse settings stops p).2.2 := by
  induction script generalizing s p with
  | finish a => exact ⟨s, [], rfl, h, rfl⟩
  | fail fault => exact ⟨s, [], rfl, h, rfl⟩
  | note n script ih =>
    obtain ⟨t, journal, hplay, ht, hevents⟩ := ih h hends
    refine ⟨t, .note n :: journal, ?_, ht, hevents⟩
    simp [Script.play, bind, Act.bind, Act.write, hplay, Script.rehearse]
  | consult script ih =>
    obtain ⟨t, journal, hplay, ht, hevents⟩ := ih settings h hends
    refine ⟨t, journal, ?_, ht, hevents⟩
    simp only [Script.play, hstage.settings_eq h]
    exact hplay
  | poll script ih =>
    obtain ⟨t, journal, hplay, ht, hevents⟩ := ih p.aborted h hends
    refine ⟨t, journal, ?_, ht, hevents⟩
    simp only [Script.play, hstage.aborted_eq h]
    exact hplay
  | drive left right script ih =>
    obtain ⟨fault, journal, hrequest, hdrive, hevents⟩ |
      ⟨frame, t₁, journal, hrequest, hdrive, ht₁, hevents⟩ := hstage.drive h left right
    · rw [rehearse_drive_of_error hrequest]
      exact ⟨s, journal, Act.bind_error hdrive, h, hevents⟩
    · rw [rehearse_drive_of_ok hrequest] at hends ⊢
      obtain ⟨t, more, hplay, ht, hmore⟩ := ih ht₁ hends
      refine ⟨t, journal ++ more, ?_, ht, ?_⟩
      · rw [Script.play, Act.bind_ok hdrive, hplay]
        rfl
      · simp [Rehearsed.after, hevents, hmore]
  | wait time script ih =>
    obtain ⟨fault, hcheck⟩ | ⟨length, fault, hcheck, hlate⟩ | ⟨length, seconds, hcheck, hlength⟩ :=
      wait_cases time
    · rw [rehearse_wait_of_refused hcheck]
      exact ⟨s, [], Act.bind_error (hstage.refuse h time fault hcheck), h, rfl⟩
    · rw [rehearse_wait_of_late hcheck hlate] at hends ⊢
      obtain hfails | ⟨a, hends⟩ := hends
      · obtain ⟨t, journal, hwait, ht, hevents⟩ := hfails h time length fault hcheck hlate
        exact ⟨t, journal, Act.bind_error hwait, ht, hevents⟩
      · simp at hends
    · obtain ⟨t₁, journal, hwait, ht₁, hevents⟩ := hstage.wait h time length seconds hcheck hlength
      rw [rehearse_wait_of_ok hcheck hlength] at hends ⊢
      obtain ⟨t, more, hplay, ht, hmore⟩ := ih ht₁ hends
      refine ⟨t, journal ++ more, ?_, ht, ?_⟩
      · rw [Script.play, Act.bind_ok hwait, hplay]
        rfl
      · simp [Rehearsed.after, hevents, hmore]

end Script

/-! ### The session does the same -/

namespace Session

open Script

/-- How far the session is. -/
def progress (s : Session) : Progress := ⟨s.clock.begun, s.aborted⟩

/-- The link of the session is a rehearsal. -/
def IsRehearsal (s : Session) : Prop := ∃ frames, s.link = .rehearsal frames

/-! ### Links that rehearse, and links over the radio -/

section Links

variable {s : Session} {radio : Radio}

/-- A session with its own link once more. -/
lemma withLink_self {link : Link} (h : s.link = link) : { s with link } = s := by
  rw [← h]

/-- A rehearsal is open from the beginning. -/
lemma open_of_isRehearsal (h : s.IsRehearsal) : Session.open s = (.ok (), s, []) := by
  obtain ⟨frames, hlink⟩ := h
  have hdial : dial s = (.ok none, s, []) := by
    simp only [dial, Link.dial, hlink, withLink_self hlink]
  exact Act.bind_ok hdial

/-- A rehearsal has no connection that could begin to close, or be hung up. -/
lemma leave_of_isRehearsal (h : s.IsRehearsal) : Session.leave s = (.ok (), s, []) := by
  obtain ⟨frames, hlink⟩ := h
  simp only [leave, Act.modify, Link.leave, hlink, withLink_self hlink]

/-- There is nothing to hang up in a rehearsal. -/
lemma hangUp_of_isRehearsal (h : s.IsRehearsal) : Session.hangUp s = (.ok (), s, []) := by
  obtain ⟨frames, hlink⟩ := h
  simp only [hangUp, Link.hangUp, hlink, withLink_self hlink]

/-- There is nothing to close in a rehearsal. -/
lemma close_of_isRehearsal (h : s.IsRehearsal) : Session.close s = (.ok (), s, []) := by
  rw [Session.close, Act.bind_ok (leave_of_isRehearsal h), hangUp_of_isRehearsal h, List.nil_append]

/-- A rehearsal has no background task. -/
lemma settle_of_isRehearsal (h : s.IsRehearsal) : Session.settle s = (.ok (), s, []) := by
  obtain ⟨frames, hlink⟩ := h
  simp only [Session.settle, Link.settle, hlink, withLink_self hlink]

/-- Opening a session is opening its radio. -/
lemma open_of_radio (h : s.link = .radio radio) :
    Session.open s = ((radio.open s.air).1,
      { s with link := .radio (radio.open s.air).2.1, air := (radio.open s.air).2.2.1 },
      (radio.open s.air).2.2.2) := by
  have hdial : dial s =
      (.ok (some s.air.nextConnect.1), { s with air := s.air.nextConnect.2 }, []) := by
    simp only [dial, Link.dial, h]
  rw [Session.open, Act.bind_ok hdial]
  simp only [opened, Link.opened, h, Radio.open, List.nil_append]

/-- Sending bytes in a session is sending them over its radio. -/
lemma send_of_radio (h : s.link = .radio radio) (bytes : Bytes) :
    Session.send bytes s = ((radio.send s.air bytes).1,
      { s with link := .radio (radio.send s.air bytes).2.1, air := (radio.send s.air bytes).2.2.1 },
      (radio.send s.air bytes).2.2.2) := by
  simp only [Session.send, Link.send, h]

/-- The background task that wakes in a session is that of its radio. -/
lemma wake_of_radio (h : s.link = .radio radio) (alarm : Alarm) :
    Session.wake alarm s = (.ok (),
      { s with
        link := .radio (radio.wake s.air (s.clock.ring alarm)).1
        air := (radio.wake s.air (s.clock.ring alarm)).2.1
        clock := (radio.wake s.air (s.clock.ring alarm)).2.2.1 },
      (radio.wake s.air (s.clock.ring alarm)).2.2.2) := by
  have hredial : redial alarm s = (.ok (),
      { s with
        link := .radio (radio.redial s.air).1
        air := (radio.redial s.air).2
        clock := s.clock.ring alarm }, []) := by
    simp only [redial, Link.redial, h]
  rw [Session.wake, Act.bind_ok hredial]
  simp only [redialed, Link.redialed, Radio.wake, List.nil_append]

end Links

/-- A session that rehearses with these settings and is this far. -/
structure Rehearses (s : Session) (settings : Settings) (p : Progress) : Prop where
  isRehearsal : s.IsRehearsal
  settings_eq : s.settings = settings
  progress_eq : s.progress = p

/-- A rehearsal takes every frame. -/
lemma send_frame (s : Session) (settings : Settings) (p : Progress) (h : s.Rehearses settings p)
    (frame : Frame) :
    ∃ t journal, Session.send frame.toBytes s = (.ok (), t, journal) ∧ t.Rehearses settings p ∧
      Journal.events journal = [.frame frame] := by
  obtain ⟨⟨frames, hlink⟩, hsettings, hprogress⟩ := h
  refine ⟨{ s with link := .rehearsal (frames ++ [frame.toBytes]) },
    [.note (.rehearsed frame), .event (.frame frame)], ?_, ⟨⟨_, rfl⟩, hsettings, hprogress⟩, rfl⟩
  simp only [Session.send, Link.send, hlink, Frame.ofBytes_toBytes]

/-- A request on a rehearsing session. -/
lemma drive_rehearsal (s : Session) (settings : Settings) (p : Progress)
    (h : s.Rehearses settings p) (left right : Value) :
    (∃ fault journal, Frame.request left right = .error fault ∧
      Session.drive left right s = (.error fault, s, journal) ∧ Journal.events journal = []) ∨
    ∃ frame t journal, Frame.request left right = .ok frame ∧
      Session.drive left right s = (.ok (), t, journal) ∧ t.Rehearses settings p ∧
      Journal.events journal = p.sending frame := by
  by_cases hshown : left.isDisplayable && right.isDisplayable
  · cases hpowers : Frame.ofPowers? left right with
    | error fault =>
      refine .inl ⟨fault, [.note (.powers left right)], ?_, ?_, rfl⟩
      · simp [Frame.request, hshown, hpowers]
      · simp [Session.drive, hshown, hpowers, bind, Act.bind, Act.write, Act.ofExcept]
    | ok frame =>
      have hrequest : Frame.request left right = .ok frame := by
        simp [Frame.request, hshown, hpowers]
      refine .inr ?_
      cases frame with
      | none =>
        refine ⟨none, s, [.note (.powers left right), .note (.ignoredPowers left right)],
          hrequest, ?_, h, ?_⟩
        · simp [Session.drive, hshown, hpowers, bind, Act.bind, Act.write, Act.ofExcept]
        · simp [Progress.sending]
      | some frame =>
        have hup : s.aborted = p.aborted := congrArg Progress.aborted h.progress_eq
        cases haborted : p.aborted with
        | true =>
          refine ⟨some frame, s, [.note (.powers left right)], hrequest, ?_, h, ?_⟩
          · simp [Session.drive, hshown, hpowers, bind, Act.bind, Act.write, Act.ofExcept,
              Act.state, hup, haborted, pure, Act.pure]
          · simp [Progress.sending, haborted]
        | false =>
          obtain ⟨t, journal, hsend, ht, hevents⟩ := send_frame s settings p h frame
          refine ⟨some frame, t, .note (.powers left right) :: journal, hrequest, ?_, ht, ?_⟩
          · simp [Session.drive, hshown, hpowers, bind, Act.bind, Act.write, Act.ofExcept,
              Act.state, hup, haborted, hsend]
          · simp [Progress.sending, haborted, hevents]
  · refine .inl ⟨.tooLongToWrite, [], ?_, ?_, rfl⟩
    · simp only [Frame.request, hshown]
      rfl
    · simp only [Session.drive, hshown]
      rfl

/-- With the flag up a request to stop the motors is only noted. -/
lemma drive_zero_of_up {s : Session} (h : s.aborted = true) :
    Session.drive (.int 0) (.int 0) s = (.ok (), s, [.note (.powers (.int 0) (.int 0))]) := by
  simp [Session.drive, bind, Act.bind, Act.write, Act.ofExcept, Act.state, h, pure, Act.pure]

/-- With the flag down it hands the stop frame to the link. -/
lemma drive_zero_of_down {s : Session} (h : s.aborted = false) :
    Session.drive (.int 0) (.int 0) s =
      ((Session.send Frame.stop.toBytes s).1, (Session.send Frame.stop.toBytes s).2.1,
        .note (.powers (.int 0) (.int 0)) :: (Session.send Frame.stop.toBytes s).2.2) := by
  simp [Session.drive, bind, Act.bind, Act.write, Act.ofExcept, Act.state, h]

/-- With the flag up a stop changes nothing. -/
lemma stop_of_up {s : Session} (h : s.aborted = true) :
    Session.stop s = (.ok (), s, [.note (.powers (.int 0) (.int 0))]) := by
  rw [Session.stop, Act.bind_ok (drive_zero_of_up h)]
  simp only [Session.abort, Act.modify, ← h]
  rfl

/-- A stop sends a stop frame, unless the flag is up already, and raises the flag. -/
lemma stop_rehearsal (s : Session) (settings : Settings) (p : Progress)
    (h : s.Rehearses settings p) :
    ∃ t journal, Session.stop s = (.ok (), t, journal) ∧
      t.Rehearses settings { p with aborted := true } ∧
      Journal.events journal = if p.aborted then [] else [.frame .stop] := by
  obtain ⟨fault, journal, hrequest, -, -⟩ | ⟨frame, t, journal, hrequest, hdrive, ht, hevents⟩ :=
    drive_rehearsal s settings p h (.int 0) (.int 0)
  · simp at hrequest
  · obtain rfl : some Frame.stop = frame := by simpa using hrequest
    refine ⟨{ t with aborted := true }, journal, ?_, ⟨ht.isRehearsal, ht.settings_eq, ?_⟩, ?_⟩
    · rw [Session.stop, Act.bind_ok hdrive]
      simp [Session.abort, Act.modify]
    · rw [← ht.progress_eq]
      rfl
    · rw [hevents]
      cases hup : p.aborted <;> simp [Progress.sending, hup]

/-- A stop of a session whose flag is up changes nothing and shows nothing. -/
lemma stop_of_aborted (s : Session) (settings : Settings) (p : Progress)
    (h : s.Rehearses settings p) (haborted : p.aborted = true) :
    ∃ journal, Session.stop s = (.ok (), s, journal) ∧ Journal.events journal = [] := by
  have hup : s.aborted = true := by
    rw [← haborted, ← h.progress_eq]
    rfl
  exact ⟨_, stop_of_up hup, rfl⟩

/-- The session is stopped if the wait that has just begun is one of these. -/
def heed (stops : Nat → Bool) : Act Session Unit := do
  if stops (← Act.state).clock.begun then Session.stop

/-- The parts of a wait of a rehearsing session. -/
lemma rehearsal_wait_eq (stops : Nat → Bool) (time : Value) :
    (Session.rehearsal stops).wait time =
      Session.beginWait time >>= fun length =>
        heed stops >>= fun _ => Session.setAlarm length >>= Session.endWait := by
  funext s
  simp only [Session.rehearsal, heed, bind, Act.bind, Act.state]
  rcases Session.beginWait time s with ⟨_ | length, s, journal⟩
  · rfl
  · dsimp only
    cases stops s.clock.begun <;> simp [Act.bind, pure, Act.pure]

/-- Those who stop this wait have their turn when it has begun. -/
lemma heed_rehearsal (stops : Nat → Bool) (s : Session) (settings : Settings) (p : Progress)
    (h : s.Rehearses settings p.begin) (time : Value) :
    ∃ t journal, heed stops s = (.ok (), t, journal) ∧ t.Rehearses settings (p.enter stops) ∧
      .wait time :: Journal.events journal = p.entrance stops time := by
  have hcount : s.clock.begun = p.begun + 1 := congrArg Progress.begun h.progress_eq
  cases hstops : stops (p.begun + 1) with
  | true =>
    obtain ⟨t, journal, hstop, ht, hevents⟩ := stop_rehearsal s settings p.begin h
    refine ⟨t, journal, ?_, ?_, ?_⟩
    · simp [heed, bind, Act.bind, Act.state, hcount, hstops, hstop]
    · have henter : p.enter stops = { p.begin with aborted := true } := by
        simp [Progress.enter, hstops]
      rwa [henter]
    · rw [hevents]
      cases hup : p.aborted <;> simp [Progress.entrance, hstops, hup]
  | false =>
    refine ⟨s, [], ?_, ?_, ?_⟩
    · simp [heed, bind, Act.bind, Act.state, hcount, hstops, pure, Act.pure]
    · have henter : p.enter stops = p.begin := by
        simp [Progress.enter, Progress.begin, hstops]
      rwa [henter]
    · simp [Progress.entrance, hstops]

/-- A value that is no length of time fails before its wait begins. -/
lemma beginWait_of_error (s : Session) {time : Value} {fault : Fault}
    (h : Clock.checkTime time = .error fault) :
    Session.beginWait time s = (.error fault, s, []) := by
  simp [Session.beginWait, h, bind, Act.bind, Act.ofExcept]

/-- Any other wait begins. -/
lemma beginWait_of_ok (s : Session) {time : Value} {length : Number}
    (h : Clock.checkTime time = .ok length) :
    Session.beginWait time s =
      (.ok length, { s with clock := s.clock.begin }, [.event (.wait time)]) := by
  simp [Session.beginWait, h, bind, Act.bind, Act.ofExcept, Act.write, Act.modify, pure, Act.pure]

/-- A wait of a rehearsing session fails only if its alarm cannot be set. -/
lemma wait_rehearsal (stops : Nat → Bool) (s : Session) (settings : Settings) (p : Progress)
    (h : s.Rehearses settings p) (time : Value) {length : Number}
    (hcheck : Clock.checkTime time = .ok length) :
    ∃ t journal,
      (Session.rehearsal stops).wait time s = ((Clock.seconds length).map fun _ => (), t, journal) ∧
      t.Rehearses settings (p.enter stops) ∧
      Journal.events journal = p.entrance stops time := by
  have hbegin := beginWait_of_ok s hcheck
  have hs : ({ s with clock := s.clock.begin } : Session).Rehearses settings p.begin :=
    ⟨h.isRehearsal, h.settings_eq, by rw [← h.progress_eq]; rfl⟩
  obtain ⟨t, journal, hheed, ht, hevents⟩ := heed_rehearsal stops _ settings p hs time
  rw [rehearsal_wait_eq, Act.bind_ok hbegin, Act.bind_ok hheed]
  cases hlength : Clock.seconds length with
  | error fault =>
    refine ⟨{ t with clock := (t.clock.set length).2 }, .event (.wait time) :: journal,
      ?_, ⟨ht.isRehearsal, ht.settings_eq, ht.progress_eq⟩, hevents⟩
    simp [Session.setAlarm, Clock.set, bind, Act.bind, hlength, Except.map]
  | ok seconds =>
    let alarm : Alarm := ⟨t.clock.now + seconds, t.clock.alarms⟩
    refine ⟨{ t with clock := (t.clock.set length).2.ring alarm },
      .event (.wait time) :: journal, ?_, ⟨ht.isRehearsal, ht.settings_eq, ?_⟩, hevents⟩
    · simp [Session.setAlarm, Session.endWait, Clock.set, bind, Act.bind, Act.modify, hlength,
        Except.map, alarm]
    · simpa [Session.progress] using ht.progress_eq

/-- A rehearsal does what `rehearse` says. -/
lemma follows_rehearsal (settings : Settings) (stops : Nat → Bool) :
    (Session.rehearsal stops).Follows settings stops fun s p => s.Rehearses settings p where
  settings_eq h := h.settings_eq
  aborted_eq h := congrArg Progress.aborted h.progress_eq
  drive h := drive_rehearsal _ settings _ h
  refuse _ _ _ hcheck := by
    rw [rehearsal_wait_eq]
    exact Act.bind_error (beginWait_of_error _ hcheck)
  wait h time length seconds hcheck hlength := by
    obtain ⟨t, journal, hwait, ht, hevents⟩ := wait_rehearsal stops _ settings _ h time hcheck
    rw [hlength] at hwait
    exact ⟨t, journal, hwait, ht, hevents⟩

/-- In a session that rehearses, a wait whose alarm cannot be set fails as foreseen. -/
lemma failsLate_rehearsal (settings : Settings) (stops : Nat → Bool) :
    (Session.rehearsal stops).FailsLate stops fun s p => s.Rehearses settings p := by
  intro s p h time length fault hcheck hlate
  obtain ⟨t, journal, hwait, ht, hevents⟩ := wait_rehearsal stops _ settings _ h time hcheck
  rw [hlate] at hwait
  exact ⟨t, journal, hwait, ht, hevents⟩

end Session

/-- A rehearsing session ends a script as it is followed, and shows the same events. -/
theorem Script.play_rehearsal {α : Type} (stops : Nat → Bool) (script : Script α) (s : Session)
    (settings : Settings) (p : Script.Progress) (h : s.Rehearses settings p) :
    ∃ t journal,
      script.play (Session.rehearsal stops) s =
        ((script.rehearse settings stops p).1, t, journal) ∧
      t.Rehearses settings (script.rehearse settings stops p).2.1 ∧
      Journal.events journal = (script.rehearse settings stops p).2.2 :=
  Script.play_of_follows (Session.follows_rehearsal settings stops) script h
    (.inl (Session.failsLate_rehearsal settings stops))

end PenRover
