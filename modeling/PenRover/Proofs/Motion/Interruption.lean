import Mathlib.Data.Finset.Max
import PenRover.Proofs.Motion.Itinerary

/-!
# Interruptions

A drawing that is stopped while it waits finishes the command in flight without driving any more,
and begins no other.  The reason is that the flag is looked at only between commands: the script of
one command is heedless, so it goes through all its waits whatever the flag says, and only its
frames are missing (`rehearse_of_raised`).  What a heedless script does when it is stopped at one of
its waits is therefore cut out of its undisturbed course (`rehearse_of_stopped`).

`play_draw_of_stopped` puts the legs of a drawing together: the stopped run is the undisturbed one
up to the wait at which it was stopped first, then a stop frame, and then the waits that are left of
the leg in flight.
-/

namespace PenRover

namespace Script

variable {α β γ : Type}

/-! ### Heedless scripts -/

/-- The script never looks at the abort flag. -/
def Heedless : Script α → Prop
  | .finish _ => True
  | .fail _ => True
  | .note _ next => next.Heedless
  | .consult next => ∀ settings, (next settings).Heedless
  | .poll _ => False
  | .drive _ _ next => next.Heedless
  | .wait _ next => next.Heedless

/-- Scripts that never look at the flag do not do so one after another. -/
lemma heedless_bind {script : Script α} {next : α → Script β} (h : script.Heedless)
    (hnext : ∀ a, (next a).Heedless) : (script >>= next).Heedless := by
  change (script.bind next).Heedless
  induction script with
  | finish a => exact hnext a
  | fail fault => trivial
  | note n script ih => exact ih h
  | consult script ih => exact fun settings => ih settings (h settings)
  | poll script ih => exact h.elim
  | drive left right script ih => exact ih h
  | wait time script ih => exact ih h

/-- A computation never looks at the flag. -/
lemma heedless_ofExcept (result : Except Fault α) : (Script.ofExcept result).Heedless := by
  cases result <;> trivial

/-- A request at multiples of a power never looks at the flag. -/
lemma heedless_goTimes (power : Value) (left right : Int) : (goTimes power left right).Heedless :=
  heedless_bind (heedless_ofExcept _) fun _ => heedless_bind (heedless_ofExcept _) fun _ => trivial

/-- Quarter turns never look at the flag. -/
lemma heedless_quarters (arc : Arc) (n : Nat) : (quarters arc n).Heedless := by
  induction n with
  | zero => trivial
  | succ n ih =>
    have hquarter : (quarter arc).Heedless :=
      heedless_bind (heedless_goTimes ..) fun _ => heedless_bind trivial fun _ =>
        heedless_bind (heedless_goTimes ..) fun _ => trivial
    exact heedless_bind hquarter fun _ => ih

/-- A turn never looks at the flag. -/
lemma heedless_turnBy (turn : Number) : (turnBy turn).Heedless :=
  heedless_bind (heedless_ofExcept _) fun _ => heedless_bind (heedless_ofExcept _) fun _ =>
    heedless_bind (heedless_ofExcept _) fun _ => heedless_bind trivial fun _ =>
      heedless_bind (fun _ => trivial) fun _ =>
        heedless_bind (heedless_quarters ..) fun _ => trivial

/-- A way forward never looks at the flag. -/
lemma heedless_goForward (distance : Number) : (goForward distance).Heedless :=
  heedless_bind (fun _ => trivial) fun _ => heedless_bind (heedless_ofExcept _) fun _ =>
    heedless_bind (heedless_ofExcept _) fun _ => heedless_bind trivial fun _ =>
      heedless_bind (heedless_ofExcept _) fun _ => trivial

/-- A command never looks at the flag: a stop takes effect between commands only. -/
lemma heedless_perform (command : Command) (pose : Pose Number) :
    (perform command pose).Heedless := by
  refine heedless_bind (heedless_ofExcept _) fun displacement =>
    heedless_bind (heedless_ofExcept _) fun _ => heedless_bind (heedless_ofExcept _) fun _ =>
      heedless_bind trivial fun _ => heedless_bind (heedless_turnBy _) fun _ =>
        heedless_bind (heedless_goForward _) fun _ => ?_
  split <;> trivial

/-- Nothing in a leg looks at the flag. -/
lemma heedless_leg (command : Command) (pose : Pose Number) : (leg command pose).Heedless :=
  heedless_bind (heedless_perform ..) fun _ => heedless_bind (fun _ => trivial) fun _ =>
    heedless_bind trivial fun _ => trivial

/-! ### Heedless scripts and the flag -/

/-- A heedless script whose flag is up keeps its course and its waits, but drives nothing. -/
lemma rehearse_of_raised (settings : Settings) (stops : Nat → Bool) (script : Script α)
    (h : script.Heedless) (p q : Progress) (hp : p.aborted = true) (hq : q.aborted = false) :
    script.rehearse settings stops p =
      ((script.rehearse settings quiet q).1,
        ⟨p.begun + waitsOf (script.rehearse settings quiet q).2.2, true⟩,
        (script.rehearse settings quiet q).2.2.filter Event.isWait) := by
  induction script generalizing p q with
  | finish a => cases p; simp_all [rehearse]
  | fail fault => cases p; simp_all [rehearse]
  | note n script ih => exact ih h p q hp hq
  | consult script ih => exact ih settings (h settings) p q hp hq
  | poll script ih => exact h.elim
  | drive left right script ih =>
    cases hrequest : Frame.request left right with
    | error fault =>
      rw [rehearse_drive_of_error hrequest, rehearse_drive_of_error hrequest]
      cases p
      simp_all
    | ok frame =>
      rw [rehearse_drive_of_ok hrequest, rehearse_drive_of_ok hrequest, ih h p q hp hq]
      cases frame <;> simp [Rehearsed.after, Progress.sending, hp, hq]
  | wait time script ih =>
    have hp' : (p.enter stops).aborted = true := by simp [hp]
    have hq' : (q.enter quiet).aborted = false := by simp [hq]
    obtain ⟨fault, hc⟩ | ⟨length, fault, hc, hlate⟩ | ⟨length, seconds, hc, hlength⟩ :=
      wait_cases time
    · rw [rehearse_wait_of_refused hc, rehearse_wait_of_refused hc]
      cases p
      simp_all
    · rw [rehearse_wait_of_late hc hlate, rehearse_wait_of_late hc hlate]
      simp [Progress.enter, Progress.entrance, hp, List.filter_cons]
    · rw [rehearse_wait_of_ok hc hlength, rehearse_wait_of_ok hc hlength, ih h _ _ hp' hq']
      simp [Rehearsed.after, Progress.entrance, hp, Nat.add_assoc, Nat.add_comm 1,
        List.filter_cons]

/-- The waits up to `k`, counted from one, are stopped for the first time at `k`. -/
structure StoppedAt (stops : Nat → Bool) (p : Progress) (k : Nat) : Prop where
  later : p.begun < k
  stopped : stops k = true
  first : ∀ j, p.begun < j → j < k → stops j = false

/-- A heedless script that begins with a wait and is stopped there. -/
lemma rehearse_wait_of_stopped (settings : Settings) {stops : Nat → Bool} {time : Value}
    {script : Script α} (h : (Script.wait time script).Heedless) {p : Progress}
    (hp : p.aborted = false) (hstop : stops (p.begun + 1) = true)
    (hbegun : 0 < waitsOf ((Script.wait time script).rehearse settings quiet p).2.2) :
    ∃ rest, ((Script.wait time script).rehearse settings quiet p).2.2 = .wait time :: rest ∧
      (Script.wait time script).rehearse settings stops p =
        (((Script.wait time script).rehearse settings quiet p).1,
          ⟨p.begun + waitsOf ((Script.wait time script).rehearse settings quiet p).2.2, true⟩,
          [.wait time, .frame .stop] ++ rest.filter Event.isWait) := by
  have hentrance : p.entrance stops time = [.wait time, .frame .stop] := by
    simp [Progress.entrance, hstop, hp]
  obtain ⟨fault, hc⟩ | ⟨length, fault, hc, hlate⟩ | ⟨length, seconds, hc, hlength⟩ :=
    wait_cases time
  · rw [rehearse_wait_of_refused hc] at hbegun
    exact absurd hbegun (lt_irrefl 0)
  · refine ⟨[], ?_, ?_⟩
    · rw [rehearse_wait_of_late hc hlate, Progress.entrance_quiet]
    · rw [rehearse_wait_of_late hc hlate, rehearse_wait_of_late hc hlate, hentrance,
        Progress.entrance_quiet]
      simp [Progress.enter, hstop]
  · refine ⟨(script.rehearse settings quiet (p.enter quiet)).2.2, ?_, ?_⟩
    · rw [rehearse_wait_of_ok hc hlength, Rehearsed.after, Progress.entrance_quiet]
      rfl
    · rw [rehearse_wait_of_ok hc hlength, rehearse_wait_of_ok hc hlength,
        rehearse_of_raised settings stops script h (p.enter stops) (p.enter quiet)
          (by simp [hstop]) (by simp [hp]), hentrance, Progress.entrance_quiet]
      simp [Rehearsed.after, Nat.add_assoc, Nat.add_comm 1]

/-- A heedless script that is stopped at one of its waits: its course up to this wait, a stop frame,
and the waits of the rest of the course. -/
lemma rehearse_of_stopped (settings : Settings) (stops : Nat → Bool) (script : Script α)
    (h : script.Heedless) (p : Progress) (hp : p.aborted = false) (k : Nat)
    (hk : StoppedAt stops p k)
    (hreached : k ≤ p.begun + waitsOf (script.rehearse settings quiet p).2.2) :
    ∃ inside time rest,
      (script.rehearse settings quiet p).2.2 = inside ++ .wait time :: rest ∧
      p.begun + waitsOf inside + 1 = k ∧
      script.rehearse settings stops p =
        ((script.rehearse settings quiet p).1,
          ⟨p.begun + waitsOf (script.rehearse settings quiet p).2.2, true⟩,
          inside ++ [.wait time, .frame .stop] ++ rest.filter Event.isWait) := by
  have hlater := hk.later
  induction script generalizing p with
  | finish a => simp [rehearse] at hreached; omega
  | fail fault => simp [rehearse] at hreached; omega
  | note n script ih => exact ih h p hp hk hreached hlater
  | consult script ih => exact ih settings (h settings) p hp hk hreached hlater
  | poll script ih => exact h.elim
  | drive left right script ih =>
    cases hrequest : Frame.request left right with
    | error fault =>
      rw [rehearse_drive_of_error hrequest] at hreached
      simp at hreached
      omega
    | ok frame =>
      rw [rehearse_drive_of_ok hrequest] at hreached
      simp only [Rehearsed.after, waitsOf_append, Progress.waitsOf_sending,
        Nat.zero_add] at hreached
      obtain ⟨inside, time, rest, hevents, hcount, hrehearse⟩ := ih h p hp hk hreached hlater
      refine ⟨p.sending frame ++ inside, time, rest, ?_, ?_, ?_⟩
      · simp [hrequest, Rehearsed.after, hevents]
      · simp [hcount]
      · rw [rehearse_drive_of_ok hrequest, rehearse_drive_of_ok hrequest, hrehearse]
        simp [Rehearsed.after]
  | wait time script ih =>
    by_cases hnow : k = p.begun + 1
    · -- stopped at this very wait
      have hstop : stops (p.begun + 1) = true := hnow ▸ hk.stopped
      obtain ⟨rest, hevents, hstopped⟩ :=
        rehearse_wait_of_stopped settings h hp hstop (by omega)
      exact ⟨[], time, rest, hevents, by simp [hnow], hstopped⟩
    · -- an earlier wait, which nobody stops; what follows it is stopped at `k`
      have hstop : stops (p.begun + 1) = false := hk.first _ (Nat.lt_succ_self _) (by omega)
      obtain ⟨henter, hentrance⟩ := enter_of_not_aborted stops p time
        (by simp [hp, hstop])
      obtain ⟨fault, hc⟩ | ⟨length, fault, hc, hlate⟩ | ⟨length, seconds, hc, hlength⟩ :=
        wait_cases time
      · rw [rehearse_wait_of_refused hc] at hreached
        simp at hreached
        omega
      · rw [rehearse_wait_of_late hc hlate] at hreached
        simp at hreached
        omega
      · have hlater' : (p.enter quiet).begun < k := by simp; omega
        have hk' : StoppedAt stops (p.enter quiet) k :=
          ⟨hlater', hk.stopped, fun j hj => hk.first j (by simp at hj; omega)⟩
        rw [rehearse_wait_of_ok hc hlength] at hreached
        simp only [Rehearsed.after, waitsOf_append, Progress.waitsOf_entrance] at hreached
        obtain ⟨inside, at_, rest, hevents, hcount, hrehearse⟩ :=
          ih h (p.enter quiet) (by simp [hp]) hk' (by simp; omega) hlater'
        refine ⟨.wait time :: inside, at_, rest, ?_, ?_, ?_⟩
        · simp [hc, hlength, Rehearsed.after, hevents]
        · simp at hcount ⊢
          omega
        · rw [rehearse_wait_of_ok hc hlength, rehearse_wait_of_ok hc hlength, henter, hentrance,
            hrehearse, Progress.entrance_quiet]
          simp [Rehearsed.after, Nat.add_assoc, Nat.add_comm 1]

/-! ### Stopped drawings -/

/-- A drawing that is stopped: its legs up to the wait at which it is stopped first, a stop frame,
and the waits of the rest of the leg in flight. -/
lemma rehearse_drawFrom_of_stopped (settings : Settings) (stops : Nat → Bool) (index total : Nat)
    (pose : Pose Number) (commands : List Command) (p : Progress) (hp : p.aborted = false)
    {outcome : Outcome} {events : List Event}
    (h : (drawFrom index total pose commands).course settings = (.ok outcome, events)) (k : Nat)
    (hk : StoppedAt stops p k) (hreached : k ≤ p.begun + waitsOf events) :
    ∃ earlier leg later inside time rest q,
      legsOf settings (Plan.walk pose commands) = earlier ++ leg :: later ∧
      leg = inside ++ .wait time :: rest ∧
      p.begun + waitsOf (earlier.flatten ++ inside) + 1 = k ∧
      (drawFrom index total pose commands).rehearse settings stops p =
        (.ok .cancelled, ⟨q, true⟩,
          earlier.flatten ++ inside ++ [.wait time, .frame .stop] ++ rest.filter Event.isWait) := by
  induction commands generalizing index pose events p with
  | nil =>
    rw [course_drawFrom_nil] at h
    obtain rfl : [] = events := (Prod.mk.inj h).2
    have hlater := hk.later
    simp at hreached
    omega
  | cons command commands ih =>
    obtain ⟨next, first, second, hleg, hrest, rfl, hlegs⟩ := course_drawFrom_cons_eq_ok h
    have hquiet := rehearse_quiet settings (leg command pose) p hp
    rw [hleg] at hquiet
    rw [rehearse_drawFrom_cons command commands hp, rehearse_bind, hlegs]
    by_cases hnow : k ≤ p.begun + waitsOf first
    · -- stopped in this leg; no command follows
      obtain ⟨inside, time, rest, hevents, hcount, hstopped⟩ :=
        rehearse_of_stopped settings stops (leg command pose) (heedless_leg command pose) p hp k hk
          (by rwa [hquiet])
      rw [hquiet] at hevents hstopped
      refine ⟨[], first, _, inside, time, rest, p.begun + waitsOf first, rfl, hevents, ?_, ?_⟩
      · simpa using hcount
      · rw [hstopped]
        dsimp only
        rw [rehearse_drawFrom_of_aborted commands rfl]
        simp [Rehearsed.after]
    · -- this leg is completed undisturbed, and what follows it is stopped at `k`
      have hunstopped : (leg command pose).rehearse settings stops p =
          (leg command pose).rehearse settings quiet p := by
        refine rehearse_of_unstopped settings stops _ p hp fun j hlow hhigh => ?_
        rw [hquiet] at hhigh
        exact hk.first j hlow (by dsimp only at hhigh; omega)
      have hk' : StoppedAt stops ⟨p.begun + waitsOf first, false⟩ k :=
        ⟨by dsimp only; omega, hk.stopped, fun j hj => hk.first j (by dsimp only at hj; omega)⟩
      obtain ⟨earlier, leg, later, inside, time, rest, q, hsplit, hflight, hcount, hstopped⟩ :=
        ih (index + 1) next ⟨p.begun + waitsOf first, false⟩ rfl hrest hk'
          (by rw [waitsOf_append] at hreached; dsimp only; omega)
      refine ⟨first :: earlier, leg, later, inside, time, rest, q, by rw [hsplit]; rfl, hflight,
        ?_, ?_⟩
      · simp at hcount ⊢
        omega
      · rw [hunstopped, hquiet]
        dsimp only
        rw [hstopped]
        simp [Rehearsed.after]

end Script

namespace Session

open Script

variable {s t : Session} {commands : List Command} {outcome : Outcome} {journal : Journal}

/-- A drawing on a session whose flag is up shows nothing. -/
lemma events_of_play_draw_of_aborted (hlink : s.IsRehearsal) (hup : s.aborted = true)
    (hrun : (draw commands).play (Session.rehearsal quiet) s = (.ok outcome, t, journal)) :
    Journal.events journal = [] := by
  have hs : s.Rehearses s.settings ⟨s.clock.begun, true⟩ := ⟨hlink, rfl, by rw [← hup]; rfl⟩
  obtain ⟨t', journal', hplay, -, hevents⟩ := play_rehearsal quiet (draw commands) s s.settings _ hs
  have hsame := hrun.symm.trans hplay
  simp only [Prod.mk.injEq] at hsame
  obtain ⟨-, -, rfl⟩ := hsame
  rw [hevents, draw, rehearse_drawFrom_of_aborted commands rfl]

/-- A drawing that comes to an end on a quiet session follows its course. -/
lemma course_of_play_draw (hlink : s.IsRehearsal) (hdown : s.aborted = false)
    (hrun : (draw commands).play (Session.rehearsal quiet) s = (.ok outcome, t, journal)) :
    (draw commands).course s.settings = (.ok outcome, Journal.events journal) := by
  have hs : s.Rehearses s.settings ⟨s.clock.begun, false⟩ := ⟨hlink, rfl, by rw [← hdown]; rfl⟩
  obtain ⟨t', journal', hplay, -, hevents⟩ := play_quiet (draw commands) s s.settings _ hs rfl
  have hsame := hrun.symm.trans hplay
  simp only [Prod.mk.injEq] at hsame
  obtain ⟨hend, -, rfl⟩ := hsame
  rw [hend, hevents]

end Session

open Script in
/-- A drawing that is stopped at some of the waits of its undisturbed run does what the undisturbed
run does up to the first of these waits.  Then it stops the motors, goes through the waits that are
left of the command in flight without driving, and is cancelled.  To stop it once more shows
nothing. -/
theorem Script.play_draw_of_stopped (commands : List Command) (s t : Session) (outcome : Outcome)
    (journal : Journal) (hlink : s.IsRehearsal)
    (hrun : (draw commands).play (Session.rehearsal fun _ => false) s = (.ok outcome, t, journal))
    (stopped : Finset Nat) (hnonempty : stopped.Nonempty)
    (hwaits : ∀ k ∈ stopped, 1 ≤ k ∧ k ≤ waitsOf journal.events) :
    journal.events = (legsOf s.settings (Plan.walk Pose.start commands)).flatten ∧
    ∃ earlier leg later inside time rest t' journal',
      legsOf s.settings (Plan.walk Pose.start commands) = earlier ++ leg :: later ∧
      leg = inside ++ .wait time :: rest ∧
      waitsOf (earlier.flatten ++ inside) + 1 = stopped.min' hnonempty ∧
      (draw commands).play (Session.rehearsal fun n => decide (n - s.clock.begun ∈ stopped)) s =
        (.ok .cancelled, t', journal') ∧
      Journal.events journal' =
        earlier.flatten ++ inside ++ [.wait time, .frame .stop] ++ rest.filter Event.isWait ∧
      ∃ silent, Session.stop t' = (.ok (), t', silent) ∧ Journal.events silent = [] := by
  have hmin := stopped.min'_mem hnonempty
  have hdown : s.aborted = false := by
    by_contra hup
    rw [Bool.not_eq_false] at hup
    have hbounds := hwaits _ hmin
    rw [Session.events_of_play_draw_of_aborted hlink hup hrun, waitsOf_nil] at hbounds
    omega
  have hcourse := Session.course_of_play_draw hlink hdown hrun
  refine ⟨events_course_drawFrom _ _ _ _ _ hcourse, ?_⟩
  have hk : StoppedAt (fun n => decide (n - s.clock.begun ∈ stopped)) ⟨s.clock.begun, false⟩
      (s.clock.begun + stopped.min' hnonempty) := by
    refine ⟨by have := (hwaits _ hmin).1; dsimp only; omega, by simpa using hmin, ?_⟩
    intro j hlow hj
    simp only [decide_eq_false_iff_not]
    intro hmem
    have hle := stopped.min'_le _ hmem
    dsimp only at hlow
    omega
  obtain ⟨earlier, leg, later, inside, time, rest, q, hsplit, hflight, hcount, hstopped⟩ :=
    rehearse_drawFrom_of_stopped _ _ _ _ _ _ _ rfl hcourse _ hk
      (by have := (hwaits _ hmin).2; dsimp only; omega)
  have hs : s.Rehearses s.settings ⟨s.clock.begun, false⟩ := ⟨hlink, rfl, by rw [← hdown]; rfl⟩
  obtain ⟨t', journal', hplay', ht', hevents'⟩ :=
    play_rehearsal (fun n => decide (n - s.clock.begun ∈ stopped)) (draw commands) s s.settings _ hs
  rw [draw, hstopped] at hplay' ht' hevents'
  obtain ⟨silent, hstop, hsilent⟩ := Session.stop_of_aborted t' _ _ ht' rfl
  refine ⟨earlier, leg, later, inside, time, rest, t', journal', hsplit, hflight, ?_, hplay',
    hevents', silent, hstop, hsilent⟩
  dsimp only at hcount
  omega

open Script in
/-- One line with the standard settings, stopped at its second and its fourth wait. -/
theorem Script.play_draw_of_stopped_twice :
    let s : Session := ⟨.standard, .rehearsal [], false, ⟨[], []⟩, .start⟩
    ∃ t journal,
      (s.IsRehearsal ∧
        (draw [.lineAt 0 1]).play (Session.rehearsal fun _ => false) s =
          (.ok .completed, t, journal) ∧
        ({2, 4} : Finset Nat).Nonempty ∧
        ∀ k ∈ ({2, 4} : Finset Nat), 1 ≤ k ∧ k ≤ waitsOf journal.events) ∧
      ∃ t' journal',
        (draw [.lineAt 0 1]).play
          (Session.rehearsal fun n => decide (n - 0 ∈ ({2, 4} : Finset Nat))) s =
            (.ok .cancelled, t', journal') := by
  intro s
  have hlink : s.IsRehearsal := ⟨[], rfl⟩
  have hnonempty : ({2, 4} : Finset Nat).Nonempty := ⟨2, by decide⟩
  have hend : ((draw [.lineAt 0 1]).play (Session.rehearsal fun _ => false) s).1 =
      .ok .completed := by
    decide +kernel
  have hwaits : ∀ k ∈ ({2, 4} : Finset Nat), 1 ≤ k ∧
      k ≤ waitsOf ((draw [.lineAt 0 1]).play (Session.rehearsal fun _ => false) s).2.2.events := by
    decide +kernel
  generalize hrun : (draw [.lineAt 0 1]).play (Session.rehearsal fun _ => false) s = run at *
  obtain ⟨result, t, journal⟩ := run
  subst hend
  obtain ⟨-, -, -, -, -, -, -, t', journal', -, -, -, hstopped, -⟩ :=
    Script.play_draw_of_stopped [.lineAt 0 1] s t .completed journal hlink hrun {2, 4} hnonempty
      hwaits
  exact ⟨t, journal, ⟨hlink, rfl, hnonempty, hwaits⟩, t', journal', hstopped⟩

end PenRover
