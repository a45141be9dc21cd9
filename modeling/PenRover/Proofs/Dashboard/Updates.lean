import PenRover.Proofs.Dashboard.Attendance
import PenRover.Proofs.Dashboard.Silence
import PenRover.Proofs.Motion.Supply

/-!
# Updates of the settings during a run

A run shares its settings with the dashboard, so an update takes effect while the run is under way.
It never takes effect in the middle of a movement.

The link of a session is made when the run is started, and nothing that happens later makes it anew:
every action keeps the address and the delay of the link that it finds (`Session.Loyal`), and so
does every step of the dashboard (`Moment.makeOf_step`).

A run goes on in stretches, from one of its waits to the next, and an update is answered between two
of them.  So all that happens is a list of stretches and of deeds that leave the run alone
(`Moment.Leads.follows`), and each stretch has one record of settings.  `Script.supply` says how a
script runs that is given these records beforehand; a stretch of it under any settings does what the
stretch of the run does (`Dashboard.stretch_withSettings`), and by induction on the stretches so
does all of it (`Moment.Follows.seen`).
-/

namespace PenRover

open Script

/-! ### What a link was made for -/

namespace Radio

variable {radio : Radio}

/-- The address and the delay of a link. -/
def make (radio : Radio) : Value × Value := (radio.url, radio.delay)

/-- Calling for the background task keeps what a link was made for. -/
@[simp] lemma make_call : radio.call.make = radio.make := by
  unfold call
  split <;> rfl

/-- A background task that goes to rest keeps what its link was made for. -/
lemma make_rest (clock : Clock) : (radio.rest clock).1.make = radio.make := by
  obtain ⟨hrest, -⟩ | ⟨alarm, -, -, hrest, -⟩ := rest_cases radio clock <;> rw [hrest] <;> rfl

/-- The end of an attempt keeps what a link was made for. -/
lemma make_opened (reply : Reply) : (radio.opened reply).2.1.make = radio.make := by
  obtain ⟨-, hopened⟩ | ⟨-, hopened⟩ | ⟨fault, -, -, hopened⟩ := opened_cases radio reply
  · rw [hopened]
    rfl
  · rw [hopened]
  · rw [hopened]
    exact make_call

/-- Sending bytes keeps what a link was made for. -/
lemma make_send (air : Air) (bytes : Bytes) : (radio.send air bytes).2.1.make = radio.make := by
  obtain ⟨-, hsend⟩ | ⟨-, -, hsend⟩ | ⟨-, -, hsend⟩ | ⟨fault, -, -, -, hsend⟩ :=
    sending_cases radio air bytes
  · rw [hsend]
    exact make_call
  · rw [hsend]
  · rw [hsend]
    exact make_call
  · rw [hsend]

/-- A background task that has its turn keeps what its link was made for. -/
lemma make_settle (clock : Clock) : (radio.settle clock).1.make = radio.make := by
  unfold settle
  split
  · exact make_rest clock
  · rfl

/-- The end of an attempt of the background task keeps what its link was made for. -/
lemma make_redialed (clock : Clock) : (radio.redialed clock).1.make = radio.make := by
  cases hretry : radio.retry with
  | dialing reply =>
    obtain ⟨-, hend⟩ | ⟨-, hend⟩ | ⟨fault, -, -, hend⟩ := redialed_cases radio clock hretry
    · rw [hend]
      rfl
    · rw [hend]
      rfl
    · rw [hend]
      exact make_rest clock
  | idle => simp only [redialed, hretry]
  | called => simp only [redialed, hretry]
  | asleep alarm => simp only [redialed, hretry]

end Radio

/-- What the settings say of a link when it is made: the address and the delay, and nothing for a
rehearsal. -/
def Link.make : Link → Option (Value × Value)
  | .rehearsal _ => none
  | .radio r => some r.make

namespace Session

variable {α β : Type}

/-- The action keeps the link that it finds: what it was made for stays as it is. -/
def Loyal (act : Act Session α) : Prop := ∀ s, (act s).2.1.link.make = s.link.make

/-- Actions that keep the link do so one after another. -/
lemma Loyal.bind {act : Act Session α} {next : α → Act Session β} (h : Loyal act)
    (hnext : ∀ a, Loyal (next a)) : Loyal (act >>= next) := by
  intro s
  have hfirst := h s
  rcases hact : act s with ⟨fault | a, t, journal⟩ <;> rw [hact] at hfirst
  · rw [Act.bind_error hact]
    exact hfirst
  · rw [Act.bind_ok hact]
    exact (hnext a t).trans hfirst

/-- An action that leaves the link alone. -/
lemma Loyal.of_link_eq {act : Act Session α} (h : ∀ s, (act s).2.1.link = s.link) : Loyal act :=
  fun s => congrArg Link.make (h s)

/-- The end of an attempt to open the link keeps it. -/
lemma loyal_opened (reply : Reply) : Loyal (Session.opened reply) := by
  intro s
  unfold Session.opened Link.opened
  cases s.link with
  | rehearsal frames => rfl
  | radio radio => exact congrArg some (Radio.make_opened reply)

/-- Opening the link keeps it. -/
lemma loyal_open : Loyal Session.open := by
  have hdial : Loyal Session.dial := .of_link_eq fun _ => rfl
  apply hdial.bind
  intro reply
  cases reply with
  | none => exact fun _ => rfl
  | some reply => exact loyal_opened reply

/-- Leaving the link keeps what it was made for. -/
lemma loyal_leave : Loyal Session.leave := by
  intro s
  change s.link.leave.make = s.link.make
  cases s.link <;> rfl

/-- Hanging up keeps the link. -/
lemma loyal_hangUp : Loyal Session.hangUp := by
  intro s
  unfold Session.hangUp Link.hangUp
  cases s.link <;> rfl

/-- A background task that has its turn keeps the link. -/
lemma loyal_settle : Loyal Session.settle := by
  intro s
  unfold Session.settle Link.settle
  cases s.link with
  | rehearsal frames => rfl
  | radio radio => exact congrArg some (Radio.make_settle s.clock)

/-- An attempt of the background task that begins keeps the link. -/
lemma loyal_redial (alarm : Alarm) : Loyal (Session.redial alarm) := by
  intro s
  unfold Session.redial Link.redial
  cases s.link <;> rfl

/-- An attempt of the background task that ends keeps the link. -/
lemma loyal_redialed : Loyal Session.redialed := by
  intro s
  unfold Session.redialed Link.redialed
  cases s.link with
  | rehearsal frames => rfl
  | radio radio => exact congrArg some (Radio.make_redialed s.clock)

/-- A background task that wakes keeps the link. -/
lemma loyal_wake (alarm : Alarm) : Loyal (Session.wake alarm) :=
  (loyal_redial alarm).bind fun _ => loyal_redialed

/-- Sending bytes keeps the link. -/
lemma loyal_send (bytes : Bytes) : Loyal (Session.send bytes) := by
  intro s
  unfold Session.send Link.send
  cases s.link with
  | rehearsal frames =>
    dsimp only
    cases Frame.ofBytes bytes <;> rfl
  | radio radio => exact congrArg some (Radio.make_send s.air bytes)

/-- A request for powers keeps the link. -/
lemma loyal_drive (left right : Value) : Loyal (Session.drive left right) := by
  unfold Session.drive
  split
  · refine Loyal.bind (fun _ => rfl) fun _ => Loyal.bind (fun _ => rfl) ?_
    intro frame
    cases frame with
    | none => exact fun _ => rfl
    | some frame =>
      refine Loyal.bind (fun _ => rfl) fun s => ?_
      split
      · exact fun _ => rfl
      · exact loyal_send _
  · exact fun _ => rfl

/-- A stop keeps the link. -/
lemma loyal_stop : Loyal Session.stop := (loyal_drive _ _).bind fun _ _ => rfl

/-- The beginning of a wait keeps the link. -/
lemma loyal_beginWait (time : Value) : Loyal (beginWait time) :=
  Loyal.bind (fun _ => rfl) fun _ => Loyal.bind (fun _ => rfl) fun _ =>
    Loyal.bind (fun _ => rfl) fun _ _ => rfl

/-- A script that goes on up to its next wait keeps the link. -/
lemma loyal_resume (script : Script α) : Loyal (resume script) := by
  induction script with
  | finish a => exact fun _ => rfl
  | fail fault => exact fun _ => rfl
  | note n script ih => exact Loyal.bind (fun _ => rfl) fun _ => ih
  | consult script ih => exact fun s => ih s.settings s
  | poll script ih => exact fun s => ih s.aborted s
  | drive left right script ih => exact (loyal_drive left right).bind fun _ => ih
  | wait time script ih =>
    exact (loyal_beginWait time).bind fun _ => Loyal.bind (fun _ => rfl) fun _ _ => rfl

end Session

namespace Dashboard

variable {d : Dashboard} {n k : Nat} {drawing : List Command}
  {piece : Act Session (Session.Standing Outcome)}

/-- What the link of the session with this number was made for. -/
def makeOf (d : Dashboard) (n : Nat) : Option (Value × Value) := (d.controls n).link.make

/-- What links were made for depends on the sessions only. -/
lemma makeOf_congr {after : Dashboard} (hsessions : after.sessions = d.sessions) :
    after.makeOf n = d.makeOf n := by
  rw [makeOf, makeOf, controls_congr hsessions]

/-- What a loyal action does in a session keeps what every link was made for. -/
lemma makeOf_inSession {α : Type} {act : Act Session α} (h : Session.Loyal act) :
    (d.inSession k act).2.1.makeOf n = d.makeOf n := by
  unfold makeOf
  by_cases hkn : k = n
  · subst hkn
    by_cases hk : k < d.sessions.length
    · rcases hact : act (d.session k) with ⟨result, t, journal⟩
      obtain ⟨-, -, hself⟩ := inSession_eq hk hact
      have hloyal := h (d.session k)
      rw [hact] at hloyal
      rw [hself]
      exact hloyal
    · have hsessions : (d.inSession k act).2.1.sessions = d.sessions :=
        List.set_eq_of_length_le (Nat.le_of_not_lt hk)
      rw [controls_congr hsessions]
  · rw [controls_inSession_of_ne d k act hkn]

/-- The end of a run keeps what every link was made for. -/
lemma makeOf_endRun (status : Status) (journal : Journal) :
    (d.endRun k status journal).1.makeOf n = d.makeOf n := by
  have hconclude : (d.conclude k status).makeOf n = d.makeOf n :=
    makeOf_inSession Session.loyal_leave
  have hrelease : ((d.conclude k status).release k).1.makeOf n = (d.conclude k status).makeOf n :=
    makeOf_inSession Session.loyal_hangUp
  exact hrelease.trans hconclude

/-- A loyal piece of a run keeps what every link was made for. -/
lemma makeOf_proceed (h : Session.Loyal piece) :
    (d.proceed k drawing piece).1.makeOf n = d.makeOf n := by
  have hpiece := makeOf_inSession (d := d) (n := n) (k := k) h
  rw [proceed_eq]
  rcases hafter : d.inSession k piece with ⟨fault | ⟨outcome⟩ | ⟨alarm, next⟩, after, journal⟩ <;>
    rw [hafter] at hpiece
  · exact (makeOf_endRun _ _).trans hpiece
  · exact (makeOf_endRun _ _).trans hpiece
  · exact hpiece

/-- The end of a run makes no new session. -/
lemma length_sessions_endRun (status : Status) (journal : Journal) :
    (d.endRun k status journal).1.sessions.length = d.sessions.length := by
  have hconclude := length_sessions_inSession d k Session.leave
  have hrelease := length_sessions_inSession (d.conclude k status) k Session.hangUp
  exact hrelease.trans hconclude

/-- A run that goes on makes no new session. -/
lemma length_sessions_proceed :
    (d.proceed k drawing piece).1.sessions.length = d.sessions.length := by
  rw [proceed_eq]
  rcases hafter : d.inSession k piece with ⟨fault | ⟨outcome⟩ | ⟨alarm, next⟩, after, journal⟩ <;>
    obtain ⟨-, -, -, -, hlength⟩ := frame_inSession d k piece hafter
  · exact (length_sessions_endRun _ _).trans hlength
  · exact (length_sessions_endRun _ _).trans hlength
  · exact hlength

end Dashboard

namespace Moment

open Dashboard

variable {a b : Moment} {deed : Deed} {deeds : List Deed} {n : Nat}

/-- A session is never lost, and its link is never replaced. -/
lemma makeOf_step (hn : n < a.dashboard.sessions.length) (hstep : Step a deed b) :
    n < b.dashboard.sessions.length ∧ b.dashboard.makeOf n = a.dashboard.makeOf n := by
  cases hstep with
  | @answer d granted request hgrants =>
    obtain ⟨k, hcurrent, hstop⟩ | ⟨hsessions, -⟩ := answer_cases hgrants
    · obtain ⟨hsessions, -⟩ := stop_of_current hcurrent
      rw [hstop, makeOf_congr hsessions, hsessions, length_sessions_inSession]
      exact ⟨hn, makeOf_inSession Session.loyal_stop⟩
    · rw [makeOf_congr hsessions, hsessions]
      exact ⟨hn, rfl⟩
  | @grant d granted drawing hcurrent hdrawing =>
    have hlonger : d.engage.sessions.length = d.sessions.length + 1 := List.length_append
    refine ⟨hlonger ▸ Nat.lt_succ_of_lt hn, ?_⟩
    simp only [makeOf, controls, engage, List.getD, List.getElem?_append_left hn]
  | @begin d grant granted =>
    refine ⟨hn.trans_eq (length_sessions_proceed (d := d)).symm, makeOf_proceed (d := d) ?_⟩
    exact Session.loyal_open.bind fun _ => Session.loyal_resume _
  | @settle d granted k hk hturn =>
    rw [length_sessions_inSession]
    exact ⟨hn, makeOf_inSession Session.loyal_settle⟩
  | @wake d granted sleeper hsleeper =>
    cases sleeper with
    | drawing run =>
      refine ⟨hn.trans_eq ?_, makeOf_proceed (Session.loyal_resume _)⟩
      exact (length_sessions_proceed (d := d.roused run)).symm
    | link k alarm =>
      refine ⟨hn.trans_eq ?_, makeOf_inSession (Session.loyal_wake alarm)⟩
      exact (length_sessions_inSession d k (Session.wake alarm)).symm

/-- Whatever is done, a session stays, and so does what its link was made for. -/
lemma makeOf_leads (hn : n < a.dashboard.sessions.length) (h : Leads a deeds b) :
    n < b.dashboard.sessions.length ∧ b.dashboard.makeOf n = a.dashboard.makeOf n := by
  induction h with
  | refl => exact ⟨hn, rfl⟩
  | snoc hleads hstep ih =>
    obtain ⟨hlength, hmake⟩ := ih
    obtain ⟨hlength', hmake'⟩ := makeOf_step hlength hstep
    exact ⟨hlength', hmake'.trans hmake⟩

/-! ### The stretches of a run

The settings stay as they are while a run goes on; a stretch of a run is what it does up to its next
wait. -/

end Moment

/-- What a run does up to its next wait. -/
abbrev Piece := Act Session (Session.Standing Outcome)

/-- A stretch of a run: the dashboard on which it goes on, what it writes, and the dashboard that it
leaves. -/
structure Stretch where
  before : Dashboard
  journal : Journal
  after : Dashboard

/-- What comes after a piece with this result, if the run goes on. -/
def Piece.next? : Except Fault (Session.Standing Outcome) → Option Piece
  | .ok (.waiting _ next) => some (Session.resume next)
  | _ => none

namespace Dashboard

/-- A stretch of the run of this session. -/
def stretch (d : Dashboard) (n : Nat) (drawing : List Command) (piece : Piece) : Stretch :=
  ⟨d, (d.proceed n drawing piece).2, (d.proceed n drawing piece).1⟩

/-- The stretches of a run that goes on with this piece, on these dashboards. -/
def stretches (n : Nat) (drawing : List Command) : Option Piece → List Dashboard → List Stretch
  | some piece, d :: rest =>
    d.stretch n drawing piece :: stretches n drawing (Piece.next? (d.inSession n piece).1) rest
  | _, _ => []

/-- The dashboard with other settings. -/
def withSettings (d : Dashboard) (settings : Settings) : Dashboard := { d with settings }

/-- All that is on the dashboard besides its settings and the runs that wait. -/
def besides (d : Dashboard) : Dashboard := { d with settings := .standard, runs := [] }

end Dashboard

/-- What can be seen of a stretch: what it writes, and what it leaves besides settings and runs. -/
def Stretch.seen (stretch : Stretch) : Journal × Dashboard :=
  (stretch.journal, stretch.after.besides)

namespace Dashboard

variable {d : Dashboard} {n waits : Nat} {drawing : List Command} {piece given : Piece}
  {during : Nat → Settings}

/-- A piece with its answers does under any settings what the piece does under those of the
moment. -/
lemma inSession_withSettings (h : Session.Supplies during waits piece given)
    (hd : d.settings = during waits) (settings : Settings) :
    (d.withSettings settings).inSession n given =
      ((d.inSession n piece).1.map (Session.Standing.supplied during waits),
        (d.inSession n piece).2.1.withSettings settings, (d.inSession n piece).2.2) := by
  have hsame := h (d.session n) settings hd
  have hgiven : given ((d.withSettings settings).session n) =
      given ((d.session n).withSettings settings) := rfl
  unfold inSession
  rw [← session, ← session, hgiven, hsame]
  rfl

/-- A stretch with the answers, under any settings, is seen like the stretch that asks for them, and
so are the stretches after it. -/
lemma stretch_withSettings (h : Session.Supplies during waits piece given)
    (hd : d.settings = during waits) (settings : Settings) :
    ((d.withSettings settings).stretch n drawing given).seen = (d.stretch n drawing piece).seen ∧
      Option.Rel (Session.Supplies during (waits + 1)) (Piece.next? (d.inSession n piece).1)
        (Piece.next? ((d.withSettings settings).inSession n given).1) := by
  have hsame := inSession_withSettings (n := n) h hd settings
  simp only [stretch, proceed_eq]
  rw [hsame]
  rcases d.inSession n piece with ⟨fault | ⟨outcome⟩ | ⟨alarm, next⟩, after, journal⟩
  · exact ⟨rfl, .none⟩
  · exact ⟨rfl, .none⟩
  · exact ⟨rfl, .some (Session.resume_supplies during (waits + 1) next)⟩

end Dashboard

namespace Moment

open Dashboard

/-- The starts that are granted to the session with this number. -/
def grantsOf (n : Nat) (m : Moment) : List Grant :=
  m.granted.filter fun grant => grant.session == n

/-- The waiting runs of the session with this number. -/
def runsOf (n : Nat) (m : Moment) : List Run :=
  m.dashboard.runs.filter fun run => run.session == n

/-- The first piece of a run. -/
def firstPiece (drawing : List Command) : Piece :=
  Session.open >>= fun _ => Session.resume (draw drawing)

/-- At this moment the run of this session can go on: with this piece of this drawing, on this
dashboard, and with these grants left. -/
inductive GoesOn (n : Nat) : Moment → List Command → Piece → Dashboard → List Grant → Prop
  /-- The run begins. -/
  | begin (d : Dashboard) (drawing : List Command) (granted : List Grant) :
    GoesOn n ⟨d, ⟨n, drawing⟩ :: granted⟩ drawing (firstPiece drawing) d granted
  /-- The alarm of the run rings. -/
  | wake (d : Dashboard) (run : Run) (granted : List Grant) (hrun : run ∈ d.runs)
    (hn : run.session = n) :
    GoesOn n ⟨d, granted⟩ run.drawing (Session.resume run.next) (d.roused run) granted

/-- A number of deeds lead from one moment to another, and these are the stretches among them of the
run of this session. -/
inductive Follows (n : Nat) : Moment → List Deed → List Stretch → Moment → Prop
  | refl (m : Moment) : Follows n m [] [] m
  /-- The run goes on. -/
  | stretch {a b : Moment} {drawing : List Command} {piece : Piece} {d : Dashboard}
    {granted : List Grant} {deeds : List Deed} {stretches : List Stretch}
    (hgoes : GoesOn n a drawing piece d granted)
    (h : Follows n ⟨(d.stretch n drawing piece).after, granted⟩ deeds stretches b) :
    Follows n a (.act (some n) (d.stretch n drawing piece).journal :: deeds)
      (d.stretch n drawing piece :: stretches) b
  /-- Something else happens, which leaves the run alone. -/
  | aside {a b c : Moment} {deed : Deed} {deeds : List Deed} {stretches : List Stretch}
    (hstep : Step a deed b) (hgrants : b.grantsOf n = a.grantsOf n)
    (hruns : b.runsOf n = a.runsOf n) (h : Follows n b deeds stretches c) :
    Follows n a (deed :: deeds) stretches c

variable {a b c : Moment} {deed : Deed} {deeds : List Deed} {n : Nat}

/-- A run that goes on is none of another session. -/
lemma runsOf_proceed_of_ne {d : Dashboard} {k : Nat} (hkn : k ≠ n) (drawing : List Command)
    (piece : Piece) (granted : List Grant) :
    runsOf n ⟨(d.proceed k drawing piece).1, granted⟩ = runsOf n ⟨d, granted⟩ := by
  simp only [runsOf, proceed_eq]
  rcases hafter : d.inSession k piece with ⟨fault | ⟨outcome⟩ | ⟨alarm, next⟩, after, journal⟩ <;>
    obtain ⟨-, hruns, -⟩ := frame_inSession d k piece hafter
  · exact congrArg _ hruns
  · exact congrArg _ hruns
  · dsimp only
    rw [List.filter_append, hruns, List.filter_cons_of_neg (by simpa using hkn), List.filter_nil,
      List.append_nil]

/-- In one step the run of a session goes on, or the step leaves it alone. -/
lemma step_cases (hn : n < a.dashboard.sessions.length) (hstep : Step a deed b) :
    (∃ drawing piece d granted, GoesOn n a drawing piece d granted ∧
      deed = .act (some n) (d.stretch n drawing piece).journal ∧
      b = ⟨(d.stretch n drawing piece).after, granted⟩) ∨
    (b.grantsOf n = a.grantsOf n ∧ b.runsOf n = a.runsOf n) := by
  cases hstep with
  | @answer d granted request hgrants =>
    right
    refine ⟨rfl, ?_⟩
    have hruns : (d.answer request).2.1.runs = d.runs := by
      obtain ⟨k, hcurrent, hstop⟩ | ⟨-, hruns, -⟩ := answer_cases hgrants
      · obtain ⟨-, hruns, -⟩ := stop_of_current hcurrent
        rw [hstop, hruns, runs_inSession]
      · exact hruns
    simp only [runsOf, hruns]
  | @grant d granted drawing hcurrent hdrawing =>
    right
    refine ⟨?_, rfl⟩
    simp only [grantsOf]
    rw [List.filter_append, List.filter_cons_of_neg (by simpa using hn.ne'), List.filter_nil,
      List.append_nil]
  | @begin d grant granted =>
    by_cases hgrant : grant.session = n
    · subst hgrant
      exact .inl ⟨grant.drawing, _, d, granted, .begin d grant.drawing granted, rfl, rfl⟩
    · right
      refine ⟨?_, runsOf_proceed_of_ne hgrant _ _ _⟩
      simp only [grantsOf]
      rw [List.filter_cons_of_neg (by simpa using hgrant)]
  | settle k hk hturn => exact .inr ⟨rfl, rfl⟩
  | @wake d granted sleeper hsleeper =>
    cases sleeper with
    | link k alarm => exact .inr ⟨rfl, rfl⟩
    | drawing run =>
      by_cases hrun : run.session = n
      · subst hrun
        exact .inl ⟨run.drawing, _, d.roused run, granted,
          .wake d run granted (mem_sleepers_drawing hsleeper) rfl, rfl, rfl⟩
      · -- another run waits no more; those of this session are still the same
        right
        refine ⟨rfl, (runsOf_proceed_of_ne (d := d.roused run) hrun _ _ granted).trans ?_⟩
        simp only [runsOf, roused, List.filter_filter]
        refine List.filter_congr fun other _ => ?_
        by_cases hother : other.session = n
        · simp [hother, Ne.symm hrun]
        · simp [hother]

/-- What is possible when a run goes on is a step. -/
lemma GoesOn.step {drawing : List Command} {piece : Piece} {d : Dashboard} {granted : List Grant}
    (h : GoesOn n a drawing piece d granted) :
    ∃ deed, Step a deed ⟨(d.stretch n drawing piece).after, granted⟩ ∧
      deed = .act (some n) (d.stretch n drawing piece).journal := by
  cases h with
  | begin d drawing granted => exact ⟨_, .begin ⟨n, drawing⟩ granted, rfl⟩
  | wake d run granted hrun hn =>
    subst hn
    refine ⟨_, .wake (.drawing run) ?_, rfl⟩
    simp [sleepers, hrun]

/-- One more step at the end. -/
lemma Follows.snoc {stretches : List Stretch} (h : Follows n a deeds stretches b)
    (hn : n < a.dashboard.sessions.length) (hstep : Step b deed c) :
    ∃ more, Follows n a (deeds ++ [deed]) (stretches ++ more) c := by
  induction h with
  | refl m =>
    obtain ⟨drawing, piece, d, granted, hgoes, rfl, rfl⟩ | ⟨hgrants, hruns⟩ := step_cases hn hstep
    · exact ⟨_, .stretch hgoes (.refl _)⟩
    · exact ⟨[], .aside hstep hgrants hruns (.refl _)⟩
  | stretch hgoes h ih =>
    obtain ⟨first, hfirst, -⟩ := hgoes.step
    obtain ⟨more, hmore⟩ := ih (makeOf_step hn hfirst).1 hstep
    exact ⟨more, .stretch hgoes hmore⟩
  | aside hfirst hgrants hruns h ih =>
    obtain ⟨more, hmore⟩ := ih (makeOf_step hn hfirst).1 hstep
    exact ⟨more, .aside hfirst hgrants hruns hmore⟩

/-- All that happens while a run is under way is a list of its stretches, and of deeds that leave it
alone. -/
lemma Leads.follows (hn : n < a.dashboard.sessions.length) (h : Leads a deeds b) :
    ∃ stretches, Follows n a deeds stretches b := by
  induction h with
  | refl => exact ⟨[], .refl _⟩
  | snoc hleads hstep ih =>
    obtain ⟨stretches, hstretches⟩ := ih
    obtain ⟨more, hmore⟩ := hstretches.snoc hn hstep
    exact ⟨_, hmore⟩

/-! ### Where a run stands -/

/-- What is left of the run of this session at this moment: the first piece when it has yet to
begin, the next one when it waits, and nothing when it is over. -/
inductive Stands (n : Nat) (drawing : List Command) : Moment → Option Piece → Prop
  | granted {m : Moment} (hgrants : m.grantsOf n = [⟨n, drawing⟩]) (hruns : m.runsOf n = []) :
    Stands n drawing m (some (firstPiece drawing))
  | waiting {m : Moment} {alarm : Alarm} {next : Script Outcome} (hgrants : m.grantsOf n = [])
    (hruns : m.runsOf n = [⟨n, drawing, alarm, next⟩]) :
    Stands n drawing m (some (Session.resume next))
  | ended {m : Moment} (hgrants : m.grantsOf n = []) (hruns : m.runsOf n = []) :
    Stands n drawing m none

variable {drawing : List Command} {piece? : Option Piece}

/-- Where a run stands depends on the grants and runs of its session only. -/
lemma Stands.of_eq (h : Stands n drawing a piece?) (hgrants : b.grantsOf n = a.grantsOf n)
    (hruns : b.runsOf n = a.runsOf n) : Stands n drawing b piece? := by
  cases h with
  | granted hg hr => exact .granted (hgrants.trans hg) (hruns.trans hr)
  | waiting hg hr => exact .waiting (hgrants.trans hg) (hruns.trans hr)
  | ended hg hr => exact .ended (hgrants.trans hg) (hruns.trans hr)

/-- A run goes on with what is left of it, and then it is neither granted nor waiting. -/
lemma Stands.goesOn (h : Stands n drawing a piece?) {drawing' : List Command} {piece : Piece}
    {d : Dashboard} {granted : List Grant} (hgoes : GoesOn n a drawing' piece d granted) :
    drawing' = drawing ∧ piece? = some piece ∧ grantsOf n ⟨d, granted⟩ = [] ∧
      runsOf n ⟨d, granted⟩ = [] := by
  cases hgoes with
  | begin d drawing' granted =>
    have hfirst : grantsOf n ⟨d, ⟨n, drawing'⟩ :: granted⟩ =
        ⟨n, drawing'⟩ :: grantsOf n ⟨d, granted⟩ := List.filter_cons_of_pos (by simp)
    cases h with
    | granted hg hr =>
      rw [hfirst, List.cons.injEq, Grant.mk.injEq] at hg
      obtain ⟨⟨-, rfl⟩, hrest⟩ := hg
      exact ⟨rfl, rfl, hrest, hr⟩
    | waiting hg hr => exact absurd (hfirst.symm.trans hg) (List.cons_ne_nil _ _)
    | ended hg hr => exact absurd (hfirst.symm.trans hg) (List.cons_ne_nil _ _)
  | wake d run granted hrun hn =>
    have hmem : run ∈ runsOf n ⟨d, granted⟩ := List.mem_filter.mpr ⟨hrun, by simp [hn]⟩
    have hnone : runsOf n ⟨d.roused run, granted⟩ = [] := by
      simp only [runsOf, roused, List.filter_filter, List.filter_eq_nil_iff]
      intro other _
      simp [hn]
    cases h with
    | granted hg hr => simp [hr] at hmem
    | waiting hg hr =>
      rw [hr, List.mem_singleton] at hmem
      subst hmem
      exact ⟨rfl, rfl, hg, hnone⟩
    | ended hg hr => simp [hr] at hmem

/-- Where a run stands after a stretch. -/
lemma stands_stretch {d : Dashboard} {granted : List Grant} {piece : Piece}
    (hgrants : grantsOf n ⟨d, granted⟩ = []) (hruns : runsOf n ⟨d, granted⟩ = []) :
    Stands n drawing ⟨(d.stretch n drawing piece).after, granted⟩
      (Piece.next? (d.inSession n piece).1) := by
  simp only [stretch, proceed_eq]
  rcases hafter : d.inSession n piece with ⟨fault | ⟨outcome⟩ | ⟨alarm, next⟩, after, journal⟩ <;>
    obtain ⟨-, hsame, -⟩ := frame_inSession d n piece hafter
  · exact .ended hgrants ((congrArg _ hsame).trans hruns)
  · exact .ended hgrants ((congrArg _ hsame).trans hruns)
  · refine @Stands.waiting n drawing _ alarm next hgrants ?_
    have hbefore : after.runs.filter (fun run => run.session == n) = [] :=
      (congrArg _ hsame).trans hruns
    simp only [runsOf]
    rw [List.filter_append, hbefore, List.filter_cons_of_pos (by simp), List.filter_nil]
    rfl

/-- A run whose stretches meet these settings is seen like the run that is given them beforehand,
under any settings. -/
lemma Follows.seen {stretches : List Stretch} (h : Follows n a deeds stretches b)
    {during : Nat → Settings} {waits : Nat} {given? : Option Piece}
    (hstands : Stands n drawing a piece?)
    (hgiven : Option.Rel (Session.Supplies during waits) piece? given?)
    (hduring : ∀ k stretch, stretches[k]? = some stretch →
      during (waits + k) = stretch.before.settings) (settings : Settings) :
    stretches.map Stretch.seen =
      (Dashboard.stretches n drawing given?
        (stretches.map fun stretch => stretch.before.withSettings settings)).map Stretch.seen := by
  induction h generalizing piece? given? waits with
  | refl m => cases given? <;> rfl
  | aside hstep hgrants hruns h ih => exact ih (hstands.of_eq hgrants hruns) hgiven hduring
  | stretch hgoes h ih =>
    obtain ⟨rfl, rfl, hgrants, hruns⟩ := hstands.goesOn hgoes
    cases hgiven with
    | @some piece given hsupplies =>
    have hnow := (hduring 0 _ rfl).symm
    obtain ⟨hseen, hnext⟩ := stretch_withSettings (n := n) hsupplies hnow settings
    have hrest := ih (stands_stretch hgrants hruns) hnext fun k stretch hk => by
      have hlater := hduring (k + 1) stretch hk
      rwa [Nat.add_right_comm waits 1 k]
    rw [List.map_cons, List.map_cons, Dashboard.stretches, List.map_cons, hrest]
    exact congrArg (· :: _) hseen.symm

/-- A run that was granted a moment ago has yet to begin. -/
lemma stands_engage (h : a.Tidy) (hcurrent : a.dashboard.current = none) :
    Stands a.dashboard.sessions.length drawing
      ⟨a.dashboard.engage, a.granted ++ [⟨a.dashboard.sessions.length, drawing⟩]⟩
      (some (firstPiece drawing)) := by
  obtain ⟨hgranted, hruns⟩ := h.unused hcurrent
  apply Stands.granted
  · rw [hgranted]
    simp [grantsOf]
  · simp [runsOf, engage, hruns]

end Moment

/-- The first piece of the run of a drawing that is given these settings beforehand. -/
def Script.suppliedPiece (during : Nat → Settings) (drawing : List Command) : Piece :=
  Session.open >>= fun _ =>
    Session.resume (drawSupplied during 1 drawing.length 0 Pose.start drawing)

/-- The first piece of a run that is given settings beforehand is the first piece with its
answers. -/
lemma Script.suppliedPiece_supplies (during : Nat → Settings) (drawing : List Command) :
    Session.Supplies during 0 (Moment.firstPiece drawing) (suppliedPiece during drawing) := by
  unfold suppliedPiece Moment.firstPiece draw
  rw [← supply_drawFrom]
  exact Session.Supplies.after Session.blind_open fun _ => Session.resume_supplies during 0 _

/-- Whatever follows a start that is granted, the link of its session stays what the settings asked
for, and the stretches of its run are seen as those of a run that is supplied. -/
lemma Moment.supplied_of_leads {m later : Moment} (h : m.Tidy)
    (hcurrent : m.dashboard.current = none)
    (drawing : List Command) {more : List Deed}
    (hleads : Leads ⟨m.dashboard.engage, m.granted ++ [⟨m.dashboard.sessions.length, drawing⟩]⟩ more
      later) :
    (later.dashboard.controls m.dashboard.sessions.length).link.make =
        (Link.ofSettings m.dashboard.settings).make ∧
      ∃ stretches, Follows m.dashboard.sessions.length
          ⟨m.dashboard.engage, m.granted ++ [⟨m.dashboard.sessions.length, drawing⟩]⟩ more stretches
          later ∧
        ∀ during : Nat → Settings,
          (∀ k stretch, stretches[k]? = some stretch → during k = stretch.before.settings) →
          ∀ settings, stretches.map Stretch.seen =
            (Dashboard.stretches m.dashboard.sessions.length drawing
              (some (Script.suppliedPiece during drawing))
              (stretches.map fun stretch => stretch.before.withSettings settings)).map
                Stretch.seen := by
  have hlength : m.dashboard.sessions.length < m.dashboard.engage.sessions.length := by
    simp [Dashboard.engage]
  constructor
  · have hmake := (makeOf_leads hlength hleads).2
    rw [Dashboard.makeOf, Dashboard.makeOf, Dashboard.controls_engage_self] at hmake
    exact hmake
  · obtain ⟨stretches, hfollows⟩ := hleads.follows hlength
    refine ⟨stretches, hfollows, ?_⟩
    intro during hduring settings
    refine hfollows.seen (stands_engage h hcurrent)
      (.some (Script.suppliedPiece_supplies during drawing)) ?_ settings
    intro k stretch hk
    rw [Nat.zero_add]
    exact hduring k stretch hk

open Moment in
/-- Whatever happens after a drawing was started, the link of its session stays what the settings at
the start asked for.  What happens is a list of stretches of the run, each on a dashboard whose
settings are in force during it, and of deeds that leave the run alone.  The stretches are seen as
those of a run that is given, movement by movement, the settings in force when the movement begins,
and that is under any settings itself. -/
theorem Moment.supplied_of_reached (m : Moment) (deeds : List Deed) (h : m.Reached deeds)
    (drawing : List Command) (hcurrent : m.dashboard.current = none)
    (hdrawing : m.dashboard.drawing = some drawing) :
    let n := m.dashboard.sessions.length
    let started : Moment := ⟨m.dashboard.engage, m.granted ++ [⟨n, drawing⟩]⟩
    Step m .grant started ∧
      ∀ more later, Leads started more later →
        (later.dashboard.controls n).link.make = (Link.ofSettings m.dashboard.settings).make ∧
        ∃ stretches, Follows n started more stretches later ∧
          ∀ during : Nat → Settings,
            (∀ k stretch, stretches[k]? = some stretch → during k = stretch.before.settings) →
            ∀ settings, stretches.map Stretch.seen =
              (Dashboard.stretches n drawing (some (suppliedPiece during drawing))
                (stretches.map fun stretch => stretch.before.withSettings settings)).map
                  Stretch.seen := by
  intro n started
  refine ⟨.grant drawing hcurrent hdrawing, ?_⟩
  intro more later hleads
  exact supplied_of_leads (tidy_of_reached h) hcurrent drawing hleads

open Moment in
/-- A drawing is started, and while its robot turns, the settings get another power and ask for a
rehearsal from now on. -/
theorem Moment.supplied_of_reached_update :
    let ask (path : String) (body : Bytes) : Request :=
      ⟨Text.ofString "POST", Text.ofString "robot", Text.ofString path, [], body⟩
    let drawing := [Command.lineAt 0 1]
    let idle := Dashboard.new .standard (Text.ofString "config.json") [] ⟨[.accepted], []⟩
    let loaded := idle.answer (ask "/file" (Utf8.encode (Text.ofString "0 1 rlinerot")))
    let begun := loaded.2.1.engage.begin 0 drawing
    let update := Utf8.encode (Text.ofString "\x7b\"turn_power\": 30, \"dry_run\": true\x7d")
    let changed := begun.1.answer (ask "/config" update)
    ∃ run, changed.2.1.runs = [run] ∧
      let woken := changed.2.1.wake (.drawing run)
      let more := [.act (some 0) begun.2, .act (some 0) changed.2.2, .act (some 0) woken.2]
      Moment.Reached ⟨loaded.2.1, []⟩ [.act none loaded.2.2] ∧ loaded.2.1.current = none ∧
        loaded.2.1.drawing = some drawing ∧
        Leads ⟨loaded.2.1.engage, [⟨0, drawing⟩]⟩ more ⟨woken.1, []⟩ ∧
        begun.1.settings.turnPower.number? = some (.int 15) ∧
        changed.2.1.settings.turnPower.number? = some (.int 30) ∧
        (woken.1.controls 0).link.make = (Link.ofSettings .standard).make ∧
        ∃ stretches, Follows 0 ⟨loaded.2.1.engage, [⟨0, drawing⟩]⟩ more stretches ⟨woken.1, []⟩ ∧
          ∀ during : Nat → Settings,
            (∀ k stretch, stretches[k]? = some stretch → during k = stretch.before.settings) →
            stretches.map Stretch.seen =
              (Dashboard.stretches 0 drawing (some (suppliedPiece during drawing))
                (stretches.map fun stretch => stretch.before.withSettings .standard)).map
                  Stretch.seen := by
  intro ask drawing idle loaded begun update changed
  have hidle : loaded.2.1.current = none ∧ loaded.2.1.drawing = some drawing ∧
      loaded.2.1.sessions.length = 0 := by
    decide +kernel
  have hunderway : begun.1.current = some 0 ∧ changed.2.1.runs.map Run.session = [0] ∧
      begun.1.settings.turnPower.number? = some (.int 15) ∧
      changed.2.1.settings.turnPower.number? = some (.int 30) := by
    decide +kernel
  obtain ⟨hcurrent, hdrawing, hsessions⟩ := hidle
  obtain ⟨hbegun, hnumbers, hbefore, hafter⟩ := hunderway
  have hstandard : loaded.2.1.settings = .standard := rfl
  obtain ⟨run, hrun, hsession⟩ := List.map_eq_singleton_iff.mp hnumbers
  refine ⟨run, hrun, ?_⟩
  intro woken more
  have hload : Step ⟨idle, []⟩ (.act none loaded.2.2) ⟨loaded.2.1, []⟩ :=
    .answer_of_unloaded (ask "/file" (Utf8.encode (Text.ofString "0 1 rlinerot"))) rfl
  have hbegin : Step ⟨loaded.2.1.engage, [⟨0, drawing⟩]⟩ (.act (some 0) begun.2) ⟨begun.1, []⟩ :=
    .begin ⟨0, drawing⟩ []
  have hupdate : Step ⟨begun.1, []⟩ (.act (some 0) changed.2.2) ⟨changed.2.1, []⟩ := by
    have hanswer : changed = begun.1.answer (ask "/config" update) := rfl
    rw [hanswer]
    exact .answer_of_current (ask "/config" update) hbegun
  have hwake : Step ⟨changed.2.1, []⟩ (.act (some 0) woken.2) ⟨woken.1, []⟩ := by
    have hsleeper : Sleeper.drawing run ∈ changed.2.1.sleepers := by
      simp [Dashboard.sleepers, hrun]
    have hstep := @Step.wake changed.2.1 [] (.drawing run) hsleeper
    have hnumber : (Sleeper.drawing run).session = 0 := hsession
    rwa [hnumber] at hstep
  have hleads : Leads ⟨loaded.2.1.engage, [⟨0, drawing⟩]⟩ more ⟨woken.1, []⟩ :=
    ((Leads.single hbegin).snoc hupdate).snoc hwake
  have hreached : Moment.Reached ⟨loaded.2.1, []⟩ [.act none loaded.2.2] :=
    ⟨_, _, _, _, .single hload⟩
  clear_value more woken changed begun loaded
  obtain ⟨-, hlater⟩ := Moment.supplied_of_reached _ _ hreached drawing hcurrent hdrawing
  simp only [hsessions, hstandard, List.nil_append] at hlater
  obtain ⟨hmake, stretches, hfollows, hseen⟩ := hlater _ _ hleads
  exact ⟨hreached, hcurrent, hdrawing, hleads, hbefore, hafter, hmake, stretches, hfollows,
    fun during hduring => hseen during hduring .standard⟩

end PenRover
