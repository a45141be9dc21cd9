import PenRover.Proofs.Motion.Itinerary

/-!
# Drawings in pieces

A drawing in the background is acted out piece by piece, from one wait to the next.  Meanwhile the
abort flag can be raised and the settings can change, but within a piece the flag stays as it is:
nothing that a script does touches it (`steady_resume`).

`After` says that a script is what is left of another one after a wait.  `Obeys` says that a drawing
ends as the flag has it: cancelled when the flag is up, and completed when it is down.  A piece of a
drawing leaves a script with both properties behind, or ends the drawing as the flag has it
(`resume_eq_waiting` and `resume_eq_ended`).
-/

namespace PenRover

/-- The outcome of a drawing whose flag is like this at the end. -/
def Outcome.ofFlag (up : Bool) : Outcome := if up then .cancelled else .completed

namespace Script

variable {α β : Type}

/-! ### What is left of a script -/

/-- What is left of a script after one of its waits. -/
inductive After : Script α → Script α → Prop
  | here (time : Value) (next : Script α) : After (.wait time next) next
  | wait (time : Value) {next rest : Script α} (h : After next rest) : After (.wait time next) rest
  | note (n : Note) {next rest : Script α} (h : After next rest) : After (.note n next) rest
  | drive (left right : Value) {next rest : Script α} (h : After next rest) :
    After (.drive left right next) rest
  | consult {next : Settings → Script α} (settings : Settings) {rest : Script α}
    (h : After (next settings) rest) : After (.consult next) rest
  | poll {next : Bool → Script α} (up : Bool) {rest : Script α} (h : After (next up) rest) :
    After (.poll next) rest

/-- What is left after what is left of a script is left of the script. -/
lemma After.trans {script middle rest : Script α} (h : script.After middle)
    (hrest : middle.After rest) : script.After rest := by
  induction h with
  | here time next => exact .wait time hrest
  | wait time h ih => exact .wait time (ih hrest)
  | note n h ih => exact .note n (ih hrest)
  | drive left right h ih => exact .drive left right (ih hrest)
  | consult settings h ih => exact .consult settings (ih hrest)
  | poll up h ih => exact .poll up (ih hrest)

/-! ### Ending as the flag has it -/

/-- With the flag like this up to the next wait, and like anything after it, the script ends with
the outcome of the flag. -/
def Obeys : Bool → Script Outcome → Prop
  | up, .finish outcome => outcome = Outcome.ofFlag up
  | _, .fail _ => True
  | up, .note _ next => next.Obeys up
  | up, .consult next => ∀ settings, (next settings).Obeys up
  | up, .poll next => (next up).Obeys up
  | up, .drive _ _ next => next.Obeys up
  | _, .wait _ next => ∀ up, next.Obeys up

/-- A script that goes on as one that ends as the flag has it, whatever came before. -/
lemma obeys_bind (script : Script α) {next : α → Script Outcome} (h : ∀ a up, (next a).Obeys up)
    (up : Bool) : (script >>= next).Obeys up := by
  change (script.bind next).Obeys up
  induction script generalizing up with
  | finish a => exact h a up
  | fail fault => trivial
  | note n script ih => exact ih up
  | consult script ih => exact fun settings => ih settings up
  | poll script ih => exact ih up up
  | drive left right script ih => exact ih up
  | wait time script ih => exact ih

/-- A drawing ends with the outcome of its flag, from any command on. -/
lemma obeys_drawFrom (index total : Nat) (pose : Pose Number) (commands : List Command)
    (up : Bool) : (drawFrom index total pose commands).Obeys up := by
  induction commands generalizing index pose up with
  | nil => cases up <;> rfl
  | cons command rest ih =>
    rw [drawFrom_cons]
    cases up with
    | true => rfl
    | false =>
      exact obeys_bind (leg command pose) (fun next up => ih (index + 1) next up) false

end Script

namespace Session

open Script

variable {α β : Type}

/-! ### Actions that leave the flag as it is -/

/-- The action leaves the abort flag as it is. -/
def Steady (act : Act Session α) : Prop := ∀ s, (act s).2.1.aborted = s.aborted

/-- The flag after a steady action, given its result. -/
lemma Steady.aborted_eq {act : Act Session α} (h : Steady act) {s t : Session}
    {result : Except Fault α} {journal : Journal} (hact : act s = (result, t, journal)) :
    t.aborted = s.aborted := by
  have hsteady := h s
  rwa [hact] at hsteady

/-- Steady actions one after another are steady. -/
lemma Steady.bind {act : Act Session α} {next : α → Act Session β} (h : Steady act)
    (hnext : ∀ a, Steady (next a)) : Steady (act >>= next) := by
  intro s
  rcases hresult : act s with ⟨_ | a, t, journal⟩
  · rw [Act.bind_error hresult]
    exact h.aborted_eq hresult
  · rw [Act.bind_ok hresult]
    exact (hnext a t).trans (h.aborted_eq hresult)

/-- The beginning of an attempt to open the link, and its end. -/
lemma steady_dial : Steady Session.dial := fun _ => rfl

/-- An attempt to open the link that ends leaves the flag as it is. -/
lemma steady_opened (reply : Reply) : Steady (Session.opened reply) := fun _ => rfl

/-- Opening the link leaves the flag as it is. -/
lemma steady_open : Steady Session.open := by
  refine steady_dial.bind fun reply => ?_
  cases reply with
  | none => exact fun _ => rfl
  | some reply => exact steady_opened reply

/-- A background task that has its turn leaves the flag as it is. -/
lemma steady_settle : Steady Session.settle := fun _ => rfl

/-- The beginning of an attempt of the background task, and its end. -/
lemma steady_redial (alarm : Alarm) : Steady (Session.redial alarm) := fun _ => rfl

/-- An attempt of the background task that ends leaves the flag as it is. -/
lemma steady_redialed : Steady Session.redialed := fun _ => rfl

/-- A computation leaves the flag as it is. -/
lemma steady_ofExcept (result : Except Fault α) :
    Steady (Act.ofExcept result : Act Session α) := fun _ => rfl

/-- A request for powers leaves the flag as it is. -/
lemma steady_drive (left right : Value) : Steady (Session.drive left right) := by
  unfold Session.drive
  split
  · refine Steady.bind (fun _ => rfl) fun _ => (steady_ofExcept _).bind fun frame => ?_
    cases frame with
    | none => exact fun _ => rfl
    | some frame =>
      refine Steady.bind (fun _ => rfl) fun s => ?_
      split
      · exact fun _ => rfl
      · exact fun _ => rfl
  · exact fun _ => rfl

/-- The beginning of a wait leaves the flag as it is. -/
lemma steady_beginWait (time : Value) : Steady (beginWait time) :=
  (steady_ofExcept _).bind fun _ => Steady.bind (fun _ => rfl) fun _ =>
    Steady.bind (fun _ => rfl) fun _ _ => rfl

/-- A script that goes on up to its next wait leaves the flag as it is. -/
lemma steady_resume (script : Script α) : Steady (resume script) := by
  induction script with
  | finish a => exact fun _ => rfl
  | fail fault => exact fun _ => rfl
  | note n script ih => exact Steady.bind (fun _ => rfl) fun _ => ih
  | consult script ih => exact fun s => ih s.settings s
  | poll script ih => exact fun s => ih s.aborted s
  | drive left right script ih => exact (steady_drive left right).bind fun _ => ih
  | wait time script ih =>
    exact (steady_beginWait time).bind fun _ => Steady.bind (fun _ => rfl) fun _ _ => rfl

/-- A stop that can be sent raises the flag. -/
lemma aborted_of_stop {s t : Session} {journal : Journal}
    (h : Session.stop s = (.ok (), t, journal)) : t.aborted = true := by
  obtain ⟨_, u, first, second, -, habort, -⟩ := Act.bind_eq_ok h
  rw [Session.abort, Act.modify, Prod.mk.injEq, Prod.mk.injEq] at habort
  rw [← habort.2.1]

/-- A stop that cannot be sent leaves the flag as it is. -/
lemma aborted_of_stop_error {s t : Session} {fault : Fault} {journal : Journal}
    (h : Session.stop s = (.error fault, t, journal)) : t.aborted = s.aborted := by
  rcases hresult : Session.drive (.int 0) (.int 0) s with ⟨cause | _, u, first⟩
  · rw [Session.stop, Act.bind_error hresult, Prod.mk.injEq, Prod.mk.injEq] at h
    rw [← h.2.1]
    exact (steady_drive _ _).aborted_eq hresult
  · rw [Session.stop, Act.bind_ok hresult] at h
    simp [Session.abort, Act.modify] at h

/-! ### One piece of a drawing -/

/-- A piece that ends at a wait leaves the script after this wait. -/
lemma resume_eq_waiting {script next : Script Outcome} {s t : Session} {alarm : Alarm}
    {journal : Journal} (h : resume script s = (.ok (.waiting alarm next), t, journal)) :
    script.After next ∧ (script.Obeys s.aborted → ∀ up, next.Obeys up) := by
  induction script generalizing s journal with
  | finish a => simp [resume, Act.pure] at h
  | fail fault => simp [resume, Act.fail] at h
  | note n script ih =>
    obtain ⟨_, u, first, second, hwrite, hresume, -⟩ := Act.bind_eq_ok h
    obtain ⟨rfl, -⟩ : s = u ∧ _ := by simpa [Act.write] using hwrite
    obtain ⟨hafter, hobeys⟩ := ih hresume
    exact ⟨.note n hafter, hobeys⟩
  | consult script ih =>
    obtain ⟨hafter, hobeys⟩ := ih s.settings h
    exact ⟨.consult s.settings hafter, fun hs => hobeys (hs s.settings)⟩
  | poll script ih =>
    obtain ⟨hafter, hobeys⟩ := ih s.aborted h
    exact ⟨.poll s.aborted hafter, hobeys⟩
  | drive left right script ih =>
    obtain ⟨_, u, first, second, hdrive, hresume, -⟩ := Act.bind_eq_ok h
    obtain ⟨hafter, hobeys⟩ := ih hresume
    rw [(steady_drive left right).aborted_eq hdrive] at hobeys
    exact ⟨.drive left right hafter, hobeys⟩
  | wait time script ih =>
    obtain ⟨_, u, first, second, -, hset, -⟩ := Act.bind_eq_ok h
    obtain ⟨alarm', v, third, fourth, -, hpure, -⟩ := Act.bind_eq_ok hset
    obtain ⟨⟨-, rfl⟩, -, -⟩ : (_ ∧ script = next) ∧ _ ∧ _ := by
      simpa [pure, Act.pure] using hpure
    exact ⟨.here time script, id⟩

/-- A piece that ends the drawing ends it as the flag has it. -/
lemma resume_eq_ended {script : Script Outcome} {s t : Session} {outcome : Outcome}
    {journal : Journal} (h : resume script s = (.ok (.ended outcome), t, journal))
    (hobeys : script.Obeys s.aborted) : outcome = Outcome.ofFlag s.aborted := by
  induction script generalizing s journal with
  | finish a =>
    obtain ⟨rfl, -, -⟩ : a = outcome ∧ _ ∧ _ := by simpa [resume, Act.pure] using h
    exact hobeys
  | fail fault => simp [resume, Act.fail] at h
  | note n script ih =>
    obtain ⟨_, u, first, second, hwrite, hresume, -⟩ := Act.bind_eq_ok h
    obtain ⟨rfl, -⟩ : s = u ∧ _ := by simpa [Act.write] using hwrite
    exact ih hresume hobeys
  | consult script ih => exact ih s.settings h (hobeys s.settings)
  | poll script ih => exact ih s.aborted h hobeys
  | drive left right script ih =>
    obtain ⟨_, u, first, second, hdrive, hresume, -⟩ := Act.bind_eq_ok h
    rw [← (steady_drive left right).aborted_eq hdrive] at hobeys ⊢
    exact ih hresume hobeys
  | wait time script ih =>
    obtain ⟨_, u, first, second, -, hset, -⟩ := Act.bind_eq_ok h
    obtain ⟨_, v, third, fourth, -, hpure, -⟩ := Act.bind_eq_ok hset
    simp [pure, Act.pure] at hpure

/-- One piece of a rehearsal that comes to a good end.  It ends the script, or it goes as far as the
next wait, and what is left of the script is rehearsed from the entrance to this wait on. -/
lemma resume_rehearsal (stops : Nat → Bool) (script : Script α) {s : Session} {p q : Progress}
    {a : α} {events : List Event} (hlink : s.IsRehearsal) (hup : s.aborted = p.aborted)
    (h : script.rehearse s.settings stops p = (.ok a, q, events)) :
    (∃ t journal, resume script s = (.ok (.ended a), t, journal) ∧ t.IsRehearsal ∧
      Journal.events journal = events) ∨
    ∃ alarm next t journal first time rest,
      resume script s = (.ok (.waiting alarm next), t, journal) ∧ t.IsRehearsal ∧
      Journal.events journal = first ++ [.wait time] ∧
      next.rehearse s.settings stops (p.enter stops) = (.ok a, q, rest) ∧
      events = first ++ p.entrance stops time ++ rest := by
  induction script generalizing s p events with
  | finish b =>
    simp only [rehearse, Prod.mk.injEq, Except.ok.injEq] at h
    obtain ⟨rfl, -, rfl⟩ := h
    exact .inl ⟨s, [], rfl, hlink, rfl⟩
  | fail fault => simp [rehearse] at h
  | note n script ih =>
    obtain ⟨t, journal, hresume, ht, hevents⟩ |
      ⟨alarm, next, t, journal, first, time, rest, hresume, ht, hevents, hrest, hsplit⟩ :=
      ih hlink hup h
    · refine .inl ⟨t, .note n :: journal, ?_, ht, hevents⟩
      rw [resume, Act.write_bind, hresume]
      rfl
    · refine .inr ⟨alarm, next, t, .note n :: journal, first, time, rest, ?_, ht, hevents, hrest,
        hsplit⟩
      rw [resume, Act.write_bind, hresume]
      rfl
  | consult script ih => exact ih s.settings hlink hup h
  | poll script ih =>
    rw [rehearse, ← hup] at h
    exact ih s.aborted hlink hup h
  | drive left right script ih =>
    obtain ⟨fault, journal, hrequest, -, -⟩ | ⟨frame, t, journal, hrequest, hdrive, ht, hsent⟩ :=
      drive_rehearsal s s.settings s.progress ⟨hlink, rfl, rfl⟩ left right
    · rw [rehearse_drive_of_error hrequest] at h
      simp at h
    · -- the piece goes on behind the request, whose frame comes first
      have hsending : s.progress.sending frame = p.sending frame := by
        simp only [Progress.sending, progress, hup]
      have hup' : t.aborted = p.aborted := (congrArg Progress.aborted ht.progress_eq).trans hup
      rw [rehearse_drive_of_ok hrequest, Rehearsed.after, ← ht.settings_eq] at h
      simp only [Prod.mk.injEq] at h
      obtain ⟨hend, hfar, rfl⟩ := h
      rw [hsending] at hsent
      obtain ⟨u, more, hresume, hu, hevents⟩ |
        ⟨alarm, next, u, more, first, time, rest, hresume, hu, hevents, hrest, hsplit⟩ :=
        ih ht.isRehearsal hup' (Prod.ext hend (Prod.ext hfar rfl))
      · refine .inl ⟨u, journal ++ more, ?_, hu, ?_⟩
        · rw [resume, Act.bind_ok hdrive, hresume]
        · rw [Journal.events_append, hsent, hevents]
      · refine .inr ⟨alarm, next, u, journal ++ more, p.sending frame ++ first, time, rest, ?_, hu,
          ?_, ?_, ?_⟩
        · rw [resume, Act.bind_ok hdrive, hresume]
        · rw [Journal.events_append, hsent, hevents, List.append_assoc]
        · rwa [← ht.settings_eq]
        · simpa only [List.append_assoc] using congrArg (p.sending frame ++ ·) hsplit
  | wait time script ih =>
    obtain ⟨fault, hc⟩ | ⟨length, fault, hc, hlate⟩ | ⟨length, seconds, hc, hlength⟩ :=
      wait_cases time
    · rw [rehearse_wait_of_refused hc] at h
      simp at h
    · rw [rehearse_wait_of_late hc hlate] at h
      simp at h
    · -- the piece ends here, and what is left is the script behind the wait
      rw [rehearse_wait_of_ok hc hlength, Rehearsed.after] at h
      simp only [Prod.mk.injEq] at h
      obtain ⟨hend, hfar, rfl⟩ := h
      have hset : Session.setAlarm length { s with clock := s.clock.begin } =
          (.ok ⟨s.clock.begin.now + seconds, s.clock.begin.alarms⟩,
            { s with clock := (s.clock.begin.set length).2 }, []) := by
        simp [Session.setAlarm, Clock.set, hlength, Except.map]
      refine .inr ⟨⟨s.clock.begin.now + seconds, s.clock.begin.alarms⟩, script,
        { s with clock := (s.clock.begin.set length).2 }, [.event (.wait time)], [], time, _, ?_,
        hlink, rfl, Prod.ext hend (Prod.ext hfar rfl), rfl⟩
      rw [resume, Act.bind_ok (beginWait_of_ok s hc), Act.bind_ok hset]
      rfl

end Session

end PenRover
