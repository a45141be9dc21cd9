import PenRover.Proofs.Dashboard.Moments
import PenRover.Proofs.Motion.Lockstep

/-!
# What requests and runs leave alone

An action in a session touches the session, the air and the clock (`frame_inSession`).  A request
that is answered touches no session at all, unless it is granted a start or stops the session in use
(`answer_cases`).  A run touches its own session (`proceed_eq`).
-/

namespace PenRover

/-- The status tells of no drawing in progress, and what it tells of the loaded drawing is so. -/
structure Status.Fits (status : Status) (drawing : Option (List Command)) : Prop where
  idle : status ≠ .running
  loaded : status = .ready ∨ status = .finished → drawing.isSome = true
  unloaded : status = .aborted ∨ status = .idle → drawing = none

namespace Dashboard

variable {d : Dashboard} {n : Nat}

/-! ### Sessions -/

/-- The sessions are all that the controls are read off. -/
lemma controls_congr {after : Dashboard} (hsessions : after.sessions = d.sessions) (k : Nat) :
    after.controls k = d.controls k := by
  rw [controls, hsessions]
  rfl

/-- A start that is granted leaves the sessions alone that were there before. -/
lemma controls_engage_of_ne {k : Nat} (hk : k ≠ d.sessions.length) :
    d.engage.controls k = d.controls k := by
  simp only [controls, engage, List.getD, List.getElem?_append, List.getElem?_singleton]
  obtain hlt | hgt := Nat.lt_or_gt_of_ne hk
  · rw [if_pos hlt]
  · rw [if_neg (by omega), if_neg (by omega), List.getElem?_eq_none (by omega)]

section InSession

variable {α : Type} {act : Act Session α} {result : Except Fault α} {t : Session}
  {journal : Journal}

/-- An action in a session gives its result and its journal, and leaves its link and its flag to
the session. -/
lemma inSession_eq (hn : n < d.sessions.length) (hact : act (d.session n) = (result, t, journal)) :
    (d.inSession n act).1 = result ∧ (d.inSession n act).2.2 = journal ∧
      (d.inSession n act).2.1.controls n = ⟨t.link, t.aborted⟩ := by
  unfold inSession
  rw [session] at hact
  rw [hact]
  simp [controls, List.getD, hn]

/-- An action that does nothing. -/
lemma inSession_eq_self {a : α} (hn : n < d.sessions.length)
    (h : act (d.session n) = (.ok a, d.session n, [])) : d.inSession n act = (.ok a, d, []) := by
  have hset : d.sessions.set n (d.controls n) = d.sessions := by
    simp [controls, List.getD, hn]
  unfold inSession
  rw [session] at h
  rw [h]
  simp only [hset]

/-- An action goes on where another one left the session. -/
lemma inSession_after {β : Type} {first : Act Session β} {act next : Act Session α}
    {reply : Except Fault β} (hn : n < d.sessions.length)
    (hfirst : first (d.session n) = (reply, t, journal)) (hsettings : t.settings = d.settings)
    (hact : act (d.session n) = ((next t).1, (next t).2.1, journal ++ (next t).2.2)) :
    d.inSession n act =
      (((d.inSession n first).2.1.inSession n next).1,
        ((d.inSession n first).2.1.inSession n next).2.1,
        journal ++ ((d.inSession n first).2.1.inSession n next).2.2) := by
  have hbetween : (d.inSession n first).2.1 = { d with
      sessions := d.sessions.set n ⟨t.link, t.aborted⟩, air := t.air, clock := t.clock } := by
    rw [session] at hfirst
    simp only [inSession, hfirst]
  have hsession : (d.inSession n first).2.1.session n = t := by
    rw [hbetween, session]
    simp [controls, List.getD, hn, ← hsettings]
  rw [session] at hsession hact
  rw [inSession, hact]
  generalize d.inSession n first = between at hbetween hsession ⊢
  simp only [inSession, hsession]
  rw [hbetween]
  simp only [List.set_set]

/-! What an action in a session does not touch. -/

/-- What a session does leaves it in use, or not in use. -/
@[simp] lemma current_inSession (d : Dashboard) (n : Nat) (act : Act Session α) :
    (d.inSession n act).2.1.current = d.current := rfl

/-- What a session does leaves the runs that wait as they are. -/
@[simp] lemma runs_inSession (d : Dashboard) (n : Nat) (act : Act Session α) :
    (d.inSession n act).2.1.runs = d.runs := rfl

/-- What a session does leaves the loaded drawing as it is. -/
@[simp] lemma drawing_inSession (d : Dashboard) (n : Nat) (act : Act Session α) :
    (d.inSession n act).2.1.drawing = d.drawing := rfl

/-- What a session does leaves the status as it is. -/
@[simp] lemma status_inSession (d : Dashboard) (n : Nat) (act : Act Session α) :
    (d.inSession n act).2.1.status = d.status := rfl

end InSession

/-- The background task of a link sleeps when its session is there and its alarm is set. -/
lemma mem_sleepers_link {alarm : Alarm} : .link n alarm ∈ d.sleepers ↔
    n < d.sessions.length ∧ (d.controls n).link.alarm? = some alarm := by
  simp [sleepers]

/-! ### Requests -/

/-- A change of the settings changes nothing but the settings and the disk. -/
lemma exists_changeSettings_eq (entries : List (Text × Value)) :
    ∃ settings disk, (d.changeSettings entries).2.1 = { d with settings, disk } := by
  unfold changeSettings
  split
  · exact ⟨d.settings, d.disk, rfl⟩
  · dsimp only
    split <;> exact ⟨_, _, rfl⟩

/-- While no session is in use an upload is let in. -/
lemma upload_of_current (h : d.current = none) (body : Bytes) : d.upload body = d.receive body := by
  rw [upload, h]
  rfl

/-- The bytes of an upload change nothing, or the drawing and the status, which then fit. -/
lemma receive_cases (d : Dashboard) (body : Bytes) :
    (d.receive body).2 = (d, []) ∨
      ∃ drawing status note, (d.receive body).2 = ({ d with drawing, status }, [.note note]) ∧
        Journal.moves [.note note] = [] ∧ status.Fits drawing := by
  unfold receive
  split
  · exact .inl rfl
  · split
    · exact .inl rfl
    · exact .inr ⟨_, _, _, rfl, rfl, ⟨by simp, by simp, by simp⟩⟩
    · exact .inr ⟨_, _, _, rfl, rfl, ⟨by simp, by simp, by simp⟩⟩

/-- Unless it is granted a start, a request that is answered shows nothing, hands nothing to a link,
and leaves all links and runs alone, except for a stop of the session in use. -/
lemma answer_cases {request : Request} (h : ¬ d.Grants request) :
    (∃ n, d.current = some n ∧ (d.answer request).2 = d.stop.2) ∨
      ((d.answer request).2.1.sessions = d.sessions ∧ (d.answer request).2.1.runs = d.runs ∧
        (d.answer request).2.1.current = d.current ∧ (d.answer request).2.2.events = [] ∧
        Journal.moves (d.answer request).2.2 = []) := by
  refine answer_induction (P := fun reply => (∃ n, d.current = some n ∧ reply = d.stop.2) ∨
    (reply.1.sessions = d.sessions ∧ reply.1.runs = d.runs ∧ reply.1.current = d.current ∧
      reply.2.events = [] ∧ Journal.moves reply.2 = [])) (.inr ⟨rfl, rfl, rfl, rfl, rfl⟩)
    (fun _ => .inr ?_) (fun hasks => .inr ?_) ?_ (fun _ entries => .inr ?_)
  · unfold upload
    split
    · exact ⟨rfl, rfl, rfl, rfl, rfl⟩
    · obtain hsame | ⟨drawing, status, note, hloaded, hmoves, -⟩ := receive_cases d request.body
      · rw [hsame]
        exact ⟨rfl, rfl, rfl, rfl, rfl⟩
      · rw [hloaded]
        exact ⟨rfl, rfl, rfl, rfl, hmoves⟩
  · unfold start
    split
    · exact ⟨rfl, rfl, rfl, rfl, rfl⟩
    · exact ⟨rfl, rfl, rfl, rfl, rfl⟩
    next drawing hcurrent hdrawing => exact absurd ⟨hasks, hcurrent, drawing, hdrawing⟩ h
  · intro _
    cases hcurrent : d.current with
    | some n => exact .inl ⟨n, rfl, rfl⟩
    | none =>
      simp only [stop, hcurrent]
      exact .inr ⟨rfl, rfl, hcurrent, rfl, rfl⟩
  · unfold changeSettings
    split
    · exact ⟨rfl, rfl, rfl, rfl, rfl⟩
    · dsimp only
      split <;> exact ⟨rfl, rfl, rfl, rfl, rfl⟩

/-- A stop of the session in use is an action in this session, and a note. -/
lemma stop_of_current (hcurrent : d.current = some n) :
    d.stop.2.1.sessions = (d.inSession n Session.stop).2.1.sessions ∧
      d.stop.2.1.runs = (d.inSession n Session.stop).2.1.runs ∧
      d.stop.2.1.current = (d.inSession n Session.stop).2.1.current ∧
      ∃ more : Journal, more.events = [] ∧ more.moves = [] ∧
        d.stop.2.2 = (d.inSession n Session.stop).2.2 ++ more := by
  simp only [stop, hcurrent]
  rcases d.inSession n Session.stop with ⟨fault | _, after, journal⟩
  · exact ⟨rfl, rfl, rfl, [], rfl, rfl, (List.append_nil _).symm⟩
  · exact ⟨rfl, rfl, rfl, [.note .drawingStopped], rfl, rfl, rfl⟩

/-- Whatever is answered, unless it is a start that is granted, the runs go on as they did. -/
lemma frame_answer {request : Request} (h : ¬ d.Grants request) :
    (d.answer request).2.1.current = d.current ∧ (d.answer request).2.1.runs = d.runs ∧
      (d.answer request).2.1.sessions.length = d.sessions.length := by
  obtain ⟨n, hcurrent, hstop⟩ | ⟨hsessions, hruns, hsame, -, -⟩ := answer_cases h
  · obtain ⟨hsessions, hruns, hsame, -⟩ := stop_of_current hcurrent
    rw [hstop, hsessions, hruns, hsame]
    exact ⟨current_inSession .., runs_inSession .., length_sessions_inSession ..⟩
  · exact ⟨hsame, hruns, congrArg List.length hsessions⟩

/-- A session that is not in use is left alone by every answer. -/
lemma controls_answer_of_ne {request : Request} (h : ¬ d.Grants request) {k : Nat}
    (hk : d.current ≠ some k) : (d.answer request).2.1.controls k = d.controls k := by
  obtain ⟨n, hcurrent, hstop⟩ | ⟨hsessions, -⟩ := answer_cases h
  · have hnk : n ≠ k := by
      rintro rfl
      exact hk hcurrent
    obtain ⟨hsessions, -⟩ := stop_of_current hcurrent
    rw [hstop, controls_congr hsessions, controls_inSession_of_ne d n Session.stop hnk]
  · exact controls_congr hsessions k

/-! ### Runs -/

/-- Once a link is released no session is in use. -/
@[simp] lemma current_release (d : Dashboard) (n : Nat) : (d.release n).1.current = none := rfl

/-- A run goes on in one way after actions that come to the same. -/
lemma proceed_congr {other : Dashboard} {piece next : Act Session (Session.Standing Outcome)}
    (drawing : List Command) (h : d.inSession n piece = other.inSession n next) :
    d.proceed n drawing piece = other.proceed n drawing next := by
  simp only [proceed, advance, h]

/-- What a piece of a run comes to, if nothing happens in between. -/
lemma proceed_eq (d : Dashboard) (n : Nat) (drawing : List Command)
    (piece : Act Session (Session.Standing Outcome)) :
    d.proceed n drawing piece =
      match d.inSession n piece with
      | (.ok (.waiting alarm next), d, journal) =>
        ({ d with runs := d.runs ++ [⟨n, drawing, alarm, next⟩] }, journal)
      | (.ok (.ended outcome), d, journal) =>
        let status := match outcome with
          | .completed => .finished
          | .cancelled => d.status
        d.endRun n status (journal ++ [.note (.drawingEnded outcome)])
      | (.error fault, d, journal) =>
        d.endRun n (.failed ("Drawing failed: " ++ fault.message))
          (journal ++ [.note (.drawingFailed fault)]) := by
  unfold proceed advance
  rcases d.inSession n piece with ⟨fault | ⟨outcome⟩ | ⟨alarm, next⟩, after, journal⟩
  · rfl
  · rfl
  · rfl

end Dashboard

end PenRover
