import PenRover.Proofs.Dashboard.Frames
import PenRover.Proofs.Link.Ledger

/-!
# Instants of the dashboard

At a moment of the dashboard everything that was begun is done, except for runs that wait.  Three
things take longer than that: the bytes of an upload arrive some time after it was let in, a
connection attempt ends some time after it began, and a connection is hung up some time after its
run was over.  Whatever else can happen can happen in between: another request is answered, a stop
reaches a link that is being opened or closed, the background task of that link makes an attempt of
its own.  An instant of the dashboard is a moment with what is in suspense (`Instant`).

Sending does not take long here: a frame that is handed to a link is gone, or has failed, at once.

A run is *unfinished* from its start, when the session is made, until its link is closed, when the
session is put out of use.  That there is never more than one is an invariant of every step
(`Instant.Single`).
-/

namespace PenRover

open Script

/-! ### What is in suspense -/

/-- A run whose link is being opened, and how the attempt will end. -/
structure Opening where
  grant : Grant
  reply : Reply

/-- A run that is over and whose link is closing. -/
structure Closing where
  grant : Grant
  /-- The link still has the connection that is being closed. -/
  held : Bool

/-- The dashboard between two things that happen, and all that is in suspense. -/
structure Instant where
  dashboard : Dashboard
  /-- How many uploads were let in whose bytes have not arrived. -/
  uploads : Nat
  /-- The runs that have yet to begin. -/
  granted : List Grant
  opening : List Opening
  closing : List Closing

/-- The start that was granted to a run. -/
def Run.grant (run : Run) : Grant := ⟨run.session, run.drawing⟩

/-- The moment as an instant at which nothing is in suspense. -/
def Moment.instant (m : Moment) : Instant := ⟨m.dashboard, 0, m.granted, [], []⟩

namespace Dashboard

/-- The dashboard on which a run goes on: its alarm rings, and it is not waiting any more. -/
def roused (d : Dashboard) (run : Run) : Dashboard :=
  { d with
    runs := d.runs.filter fun other => other.session != run.session
    clock := d.clock.ring run.alarm }

/-- The request is an upload that is let in. -/
def Admits (d : Dashboard) (request : Request) : Prop := Asks request .upload ∧ d.current = none

/-- The connection of a link that is closing is given up without being hung up, and no session is in
use any more. -/
def abandon (d : Dashboard) (n : Nat) : Dashboard :=
  { (d.inSession n Session.forget).2.1 with current := none }

end Dashboard

namespace Instant

/-- The drawings that are unfinished: those that have yet to begin, those whose link is being
opened, those that are drawn, and those whose link is closing. -/
def unfinished (i : Instant) : List Grant :=
  i.granted ++ i.opening.map Opening.grant ++ i.dashboard.runs.map Run.grant ++
    i.closing.map Closing.grant

/-- A run goes on by one piece.  When that ends it, its link begins to close; a link that has no
connection is closed at once. -/
def proceed (i : Instant) (grant : Grant) (piece : Act Session (Session.Standing Outcome)) :
    Instant × Journal :=
  match i.dashboard.advance grant.session grant.drawing piece with
  | (none, d, journal) => ({ i with dashboard := d }, journal)
  | (some status, d, journal) =>
    let d := d.conclude grant.session status
    if (d.controls grant.session).link.connections = 0 then
      let (d, closing) := d.release grant.session
      ({ i with dashboard := d }, journal ++ closing)
    else ({ i with dashboard := d, closing := i.closing ++ [⟨grant, true⟩] }, journal)

/-- The end of a closing. -/
def finish (d : Dashboard) (closing : Closing) : Dashboard × Journal :=
  if closing.held then d.release closing.grant.session
  else (d.abandon closing.grant.session, [])

end Instant

/-! ### Steps -/

/-- What is done in one go. -/
inductive Incident where
  /-- An upload is let in. -/
  | enter
  /-- The bytes of an upload have arrived, and this is written. -/
  | receive (journal : Journal)
  /-- A start is granted, while so many uploads wait for their bytes. -/
  | grant (waiting : Nat)
  /-- Something is done in a session, if one is in use, and this is written. -/
  | act (session : Option Nat) (journal : Journal)
  /-- An attempt to open a link ends in a connection, which takes the place of another one. -/
  | replace (session : Nat) (journal : Journal)
  /-- A stop finds out that the connection which its session is closing is closed already. -/
  | late (session : Nat) (journal : Journal)

namespace Incident

/-- What is written. -/
def journal : Incident → Journal
  | enter => []
  | receive journal => journal
  | grant _ => []
  | act _ journal => journal
  | replace _ journal => journal
  | late _ journal => journal

/-- The session in which something is done. -/
def session? : Incident → Option Nat
  | act session _ => session
  | replace session _ => some session
  | late session _ => some session
  | _ => none

/-- What is written in the session with this number. -/
def journalOf (n : Nat) (incident : Incident) : Journal :=
  if incident.session? = some n then incident.journal else []

/-- What a number of incidents write in the session with this number. -/
def journalsOf (n : Nat) (incidents : List Incident) : Journal := incidents.flatMap (journalOf n)

/-- A connection of the session with this number gives way to another one. -/
def replaces (n : Nat) : Incident → Bool
  | replace session _ => session == n
  | _ => false

/-- A stop of the session with this number comes while its link is closing, and calls the background
task. -/
def isLate (n : Nat) : Incident → Bool
  | late session _ => session == n
  | _ => false

/-- A run goes on, in the session with this number and over this link.  With the reply an attempt to
open the link ends. -/
def ofTurn (reply : Option Reply) (link : Link) (n : Nat) (journal : Journal) : Incident :=
  if reply = some .accepted ∧ link.connections ≠ 0 then replace n journal
  else act (some n) journal

end Incident

namespace Instant

open Dashboard

/-- A run has its turn: the piece that follows, the reply with which an attempt to open its link
ends, if there was one, and what there is besides. -/
inductive Turn : Instant → Grant → Option Reply → Act Session (Session.Standing Outcome) →
    Instant → Prop
  /-- The run that was granted first begins.  It is a rehearsal, whose link need not be opened. -/
  | begin {d : Dashboard} {uploads : Nat} {granted : List Grant} {opening : List Opening}
      {closing : List Closing} (grant : Grant)
      (h : (d.session grant.session).IsRehearsal) :
    Turn ⟨d, uploads, grant :: granted, opening, closing⟩ grant none
      (Session.resume (draw grant.drawing)) ⟨d, uploads, granted, opening, closing⟩
  /-- An attempt to open a link ends. -/
  | opened {d : Dashboard} {uploads : Nat} {granted : List Grant} {before after : List Opening}
      {closing : List Closing} (grant : Grant) (reply : Reply) :
    Turn ⟨d, uploads, granted, before ++ ⟨grant, reply⟩ :: after, closing⟩ grant (some reply)
      (Session.opening reply grant.drawing) ⟨d, uploads, granted, before ++ after, closing⟩
  /-- The wait of a run is over. -/
  | wake {d : Dashboard} {uploads : Nat} {granted : List Grant} {opening : List Opening}
      {closing : List Closing} (run : Run) (h : run ∈ d.runs) :
    Turn ⟨d, uploads, granted, opening, closing⟩ run.grant none (Session.resume run.next)
      ⟨d.roused run, uploads, granted, opening, closing⟩

/-- What can happen at an instant. -/
inductive Step : Instant → Incident → Instant → Prop
  /-- A request is answered that is neither an upload that is let in nor a start that is granted. -/
  | answer {i : Instant} (request : Request) (hgrants : ¬ i.dashboard.Grants request)
      (hadmits : ¬ i.dashboard.Admits request)
      (hkeeps : ∀ closing ∈ i.closing,
        ((i.dashboard.answer request).2.1.controls closing.grant.session).link.connections =
          (i.dashboard.controls closing.grant.session).link.connections) :
    Step i (.act i.dashboard.current (i.dashboard.answer request).2.2)
      { i with dashboard := (i.dashboard.answer request).2.1 }
  /-- A request is answered that loses the connection of a link that is closing. -/
  | late {d : Dashboard} {uploads : Nat} {granted : List Grant} {opening : List Opening}
      {before after : List Closing} (closing : Closing) (request : Request)
      (hgrants : ¬ d.Grants request) (hadmits : ¬ d.Admits request)
      (hcurrent : d.current = some closing.grant.session)
      (hloses : ((d.answer request).2.1.controls closing.grant.session).link.connections <
        (d.controls closing.grant.session).link.connections) :
    Step ⟨d, uploads, granted, opening, before ++ closing :: after⟩
      (.late closing.grant.session (d.answer request).2.2)
      ⟨(d.answer request).2.1, uploads, granted, opening,
        before ++ { closing with held := false } :: after⟩
  /-- An upload is let in. -/
  | enter {i : Instant} (request : Request) (h : i.dashboard.Admits request) :
    Step i .enter { i with uploads := i.uploads + 1 }
  /-- The bytes of an upload arrive. -/
  | receive {d : Dashboard} {uploads : Nat} {granted : List Grant} {opening : List Opening}
      {closing : List Closing} (body : Bytes) :
    Step ⟨d, uploads + 1, granted, opening, closing⟩ (.receive (d.receive body).2.2)
      ⟨(d.receive body).2.1, uploads, granted, opening, closing⟩
  /-- A start is granted. -/
  | grant {d : Dashboard} {uploads : Nat} {granted : List Grant} {opening : List Opening}
      {closing : List Closing} (drawing : List Command) (hcurrent : d.current = none)
      (hdrawing : d.drawing = some drawing) :
    Step ⟨d, uploads, granted, opening, closing⟩ (.grant uploads)
      ⟨d.engage, uploads, granted ++ [⟨d.sessions.length, drawing⟩], opening, closing⟩
  /-- The run that was granted first begins: an attempt to open its link begins. -/
  | dial {d : Dashboard} {uploads : Nat} {granted : List Grant} {opening : List Opening}
      {closing : List Closing} (grant : Grant) (reply : Reply)
      (h : (d.inSession grant.session Session.dial).1 = .ok (some reply)) :
    Step ⟨d, uploads, grant :: granted, opening, closing⟩ (.act (some grant.session) [])
      ⟨(d.inSession grant.session Session.dial).2.1, uploads, granted,
        opening ++ [⟨grant, reply⟩], closing⟩
  /-- A run goes on. -/
  | advance {i rest : Instant} {grant : Grant} {reply : Option Reply}
      {piece : Act Session (Session.Standing Outcome)} (h : Turn i grant reply piece rest) :
    Step i (.ofTurn reply (i.dashboard.controls grant.session).link grant.session
      (rest.proceed grant piece).2) (rest.proceed grant piece).1
  /-- The background task of a link begins, if it was called. -/
  | settle {i : Instant} (n : Nat) (hn : n < i.dashboard.sessions.length)
      (hturn : ∀ grant ∈ i.granted, grant.session ≠ n) :
    Step i (.act (some n) (i.dashboard.inSession n Session.settle).2.2)
      { i with dashboard := (i.dashboard.inSession n Session.settle).2.1 }
  /-- The background task of a link wakes and begins an attempt. -/
  | redial {i : Instant} (n : Nat) (alarm : Alarm) (h : .link n alarm ∈ i.dashboard.sleepers) :
    Step i (.act (some n) (i.dashboard.inSession n (Session.redial alarm)).2.2)
      { i with dashboard := (i.dashboard.inSession n (Session.redial alarm)).2.1 }
  /-- The attempt of the background task of a link ends, if there is one. -/
  | redialed {i : Instant} (n : Nat) (hn : n < i.dashboard.sessions.length) :
    Step i (.act (some n) (i.dashboard.inSession n Session.redialed).2.2)
      { i with dashboard := (i.dashboard.inSession n Session.redialed).2.1 }
  /-- The link of a run that is over has closed. -/
  | closed {d : Dashboard} {uploads : Nat} {granted : List Grant} {opening : List Opening}
      {before after : List Closing} (closing : Closing) :
    Step ⟨d, uploads, granted, opening, before ++ closing :: after⟩
      (.act (some closing.grant.session) (finish d closing).2)
      ⟨(finish d closing).1, uploads, granted, opening, before ++ after⟩

/-- A number of incidents, one after another, lead from one instant to another. -/
inductive Leads : Instant → List Incident → Instant → Prop
  | refl (i : Instant) : Leads i [] i
  | snoc {a b c : Instant} {incidents : List Incident} {incident : Incident}
      (h : Leads a incidents b)
    (hstep : Step b incident c) : Leads a (incidents ++ [incident]) c

/-- The instant has come about by these incidents from a dashboard to which nothing had happened. -/
def Reached (i : Instant) (incidents : List Incident) : Prop :=
  ∃ settings settingsFile disk air,
    Leads (Moment.instant ⟨Dashboard.new settings settingsFile disk air, []⟩) incidents i

/-- While a session is in use and no link is closing, no answer lets anything in. -/
lemma Step.answer_of_current {d : Dashboard} {uploads : Nat} {granted : List Grant}
    {opening : List Opening} {n : Nat} (request : Request) (hcurrent : d.current = some n) :
    Step ⟨d, uploads, granted, opening, []⟩ (.act (some n) (d.answer request).2.2)
      ⟨(d.answer request).2.1, uploads, granted, opening, []⟩ := by
  have hsome : d.current ≠ none := by
    rw [hcurrent]
    exact Option.some_ne_none n
  rw [← hcurrent]
  exact .answer (i := ⟨d, uploads, granted, opening, []⟩) request
    (fun hgrants => hsome hgrants.2.1) (fun hadmits => hsome hadmits.2) (List.forall_mem_nil _)

section Background

variable (d : Dashboard) (opening : List Opening) {n : Nat}

/-- The background task of a link begins when no run has yet to begin. -/
lemma Step.settle_of_opening (hn : n < d.sessions.length) :
    Step ⟨d, 0, [], opening, []⟩ (.act (some n) (d.inSession n Session.settle).2.2)
      ⟨(d.inSession n Session.settle).2.1, 0, [], opening, []⟩ :=
  .settle (i := ⟨d, 0, [], opening, []⟩) n hn nofun

/-- The background task of a link may wake while nothing is in suspense but openings. -/
lemma Step.redial_of_opening {alarm : Alarm} (h : .link n alarm ∈ d.sleepers) :
    Step ⟨d, 0, [], opening, []⟩ (.act (some n) (d.inSession n (Session.redial alarm)).2.2)
      ⟨(d.inSession n (Session.redial alarm)).2.1, 0, [], opening, []⟩ :=
  .redial (i := ⟨d, 0, [], opening, []⟩) n alarm h

/-- The attempt of the background task may end while nothing is in suspense but openings. -/
lemma Step.redialed_of_opening (hn : n < d.sessions.length) :
    Step ⟨d, 0, [], opening, []⟩ (.act (some n) (d.inSession n Session.redialed).2.2)
      ⟨(d.inSession n Session.redialed).2.1, 0, [], opening, []⟩ :=
  .redialed (i := ⟨d, 0, [], opening, []⟩) n hn

end Background

/-- One incident leads from an instant to the next. -/
lemma Leads.single {a b : Instant} {incident : Incident} (h : Step a incident b) :
    Leads a [incident] b :=
  .snoc (.refl a) h

/-- Incidents lead on from where others have led. -/
lemma Leads.trans {a b c : Instant} {first second : List Incident} (h : Leads a first b)
    (hrest : Leads b second c) : Leads a (first ++ second) c := by
  induction hrest with
  | refl => rwa [List.append_nil]
  | snoc hrest hstep ih =>
    rw [← List.append_assoc]
    exact .snoc ih hstep

/-- An incident leads on from an instant that has come about. -/
lemma Reached.snoc {i j : Instant} {incidents : List Incident} {incident : Incident}
    (h : i.Reached incidents) (hstep : Step i incident j) :
    j.Reached (incidents ++ [incident]) := by
  obtain ⟨settings, settingsFile, disk, air, hleads⟩ := h
  exact ⟨settings, settingsFile, disk, air, hleads.snoc hstep⟩

/-- The connection of the only link that is closing is hung up. -/
lemma Step.hungUp (d : Dashboard) (uploads : Nat) (granted : List Grant) (opening : List Opening)
    (grant : Grant) :
    Step ⟨d, uploads, granted, opening, [⟨grant, true⟩]⟩
      (.act (some grant.session) (d.release grant.session).2)
      ⟨(d.release grant.session).1, uploads, granted, opening, []⟩ := by
  have hfinish : finish d ⟨grant, true⟩ = d.release grant.session := if_pos rfl
  rw [← hfinish]
  exact @Step.closed d uploads granted opening [] [] ⟨grant, true⟩

/-- A drawing is loaded into a new dashboard, and started. -/
lemma reached_engage {idle : Dashboard} (hidle : ∃ settings settingsFile disk air,
    idle = Dashboard.new settings settingsFile disk air) (body : Bytes) {drawing : List Command}
    (hdrawing : (idle.receive body).2.1.drawing = some drawing) :
    Reached ⟨(idle.receive body).2.1.engage, 0, [⟨0, drawing⟩], [], []⟩
      [.enter, .receive (idle.receive body).2.2, .grant 0] := by
  have hasks : Asks ⟨Text.ofString "POST", Text.ofString "robot", Text.ofString "/file", [], []⟩
      .upload := by
    unfold Asks
    decide +kernel
  obtain ⟨settings, settingsFile, disk, air, rfl⟩ := hidle
  have hframe : ((Dashboard.new settings settingsFile disk air).receive body).2.1.current = none ∧
      ((Dashboard.new settings settingsFile disk air).receive body).2.1.sessions.length = 0 := by
    obtain hsame | ⟨other, status, note, hloaded, -⟩ :=
      receive_cases (Dashboard.new settings settingsFile disk air) body
    · rw [hsame]
      exact ⟨rfl, rfl⟩
    · rw [hloaded]
      exact ⟨rfl, rfl⟩
  obtain ⟨hcurrent, hlength⟩ := hframe
  have hadmit : Step ⟨Dashboard.new settings settingsFile disk air, 0, [], [], []⟩ .enter
      ⟨Dashboard.new settings settingsFile disk air, 1, [], [], []⟩ :=
    .enter _ ⟨hasks, rfl⟩
  have hload := @Step.receive (Dashboard.new settings settingsFile disk air) 0 [] [] [] body
  have hgrant := @Step.grant _ 0 [] [] [] drawing hcurrent hdrawing
  rw [hlength] at hgrant
  exact ⟨settings, settingsFile, disk, air, ((Leads.single hadmit).snoc hload).snoc hgrant⟩

/-- After that the attempt to open its link begins. -/
lemma reached_dial {idle : Dashboard} (hidle : ∃ settings settingsFile disk air,
    idle = Dashboard.new settings settingsFile disk air) (body : Bytes) {drawing : List Command}
    {reply : Reply} (hdrawing : (idle.receive body).2.1.drawing = some drawing)
    (hreply : ((idle.receive body).2.1.engage.inSession 0 Session.dial).1 = .ok (some reply)) :
    Reached ⟨((idle.receive body).2.1.engage.inSession 0 Session.dial).2.1, 0, [],
        [⟨⟨0, drawing⟩, reply⟩], []⟩
      [.enter, .receive (idle.receive body).2.2, .grant 0, .act (some 0) []] :=
  (reached_engage hidle body hdrawing).snoc (.dial ⟨0, drawing⟩ reply hreply)

end Instant

/-! ### What a piece of a run comes to -/

namespace Dashboard

/-- The status that a run shows which ends like this. -/
def Shows (d : Dashboard) (result : Except Fault (Session.Standing Outcome)) (status : Status) :
    Prop :=
  (result = .ok (.ended .completed) ∧ status = .finished) ∨
    (result = .ok (.ended .cancelled) ∧ status = d.status) ∨ ∃ message, status = .failed message

/-- A piece of a run ends in a wait, or it ends the run and says so. -/
lemma advance_cases (d : Dashboard) (n : Nat) (drawing : List Command)
    (piece : Act Session (Session.Standing Outcome)) :
    (∃ alarm next, (d.inSession n piece).1 = .ok (.waiting alarm next) ∧
      d.advance n drawing piece = (none, { (d.inSession n piece).2.1 with
        runs := d.runs ++ [⟨n, drawing, alarm, next⟩] }, (d.inSession n piece).2.2)) ∨
    ∃ status note, d.Shows (d.inSession n piece).1 status ∧
      (∀ alarm next, (d.inSession n piece).1 ≠ .ok (.waiting alarm next)) ∧
      d.advance n drawing piece =
        (some status, (d.inSession n piece).2.1, (d.inSession n piece).2.2 ++ [.note note]) := by
  have hruns := runs_inSession d n piece
  have hstatus := status_inSession d n piece
  unfold advance
  generalize d.inSession n piece = reply at hruns hstatus ⊢
  obtain ⟨fault | ⟨_ | _⟩ | ⟨alarm, next⟩, after, journal⟩ := reply
  · exact .inr ⟨_, _, .inr (.inr ⟨_, rfl⟩), nofun, rfl⟩
  · exact .inr ⟨_, _, .inl ⟨rfl, rfl⟩, nofun, rfl⟩
  · exact .inr ⟨after.status, _, .inr (.inl ⟨rfl, hstatus⟩), nofun, rfl⟩
  · exact .inl ⟨alarm, next, rfl, by rw [← hruns]⟩

end Dashboard

namespace Instant

open Dashboard

section Proceed

variable {i : Instant} {grant : Grant} {piece : Act Session (Session.Standing Outcome)}
  {status : Status} {d : Dashboard} {journal : Journal}

/-- A run that is over while its link has no connection: the link is closed at once. -/
lemma proceed_of_released
    (h : i.dashboard.advance grant.session grant.drawing piece = (some status, d, journal))
    (hconnections :
      ((d.conclude grant.session status).controls grant.session).link.connections = 0) :
    i.proceed grant piece =
      ({ i with dashboard := ((d.conclude grant.session status).release grant.session).1 },
        journal ++ ((d.conclude grant.session status).release grant.session).2) := by
  simp only [proceed, h, if_pos hconnections]

/-- A run that is over while its link has a connection: the link begins to close. -/
lemma proceed_of_closing
    (h : i.dashboard.advance grant.session grant.drawing piece = (some status, d, journal))
    (hconnections :
      ((d.conclude grant.session status).controls grant.session).link.connections ≠ 0) :
    i.proceed grant piece =
      ({ i with
        dashboard := d.conclude grant.session status
        closing := i.closing ++ [⟨grant, true⟩] }, journal) := by
  simp only [proceed, h, if_neg hconnections]

/-- A run that goes on waits again, or it is over; then its link is closed at once, or begins to
close. -/
lemma proceed_cases (i : Instant) (grant : Grant)
    (piece : Act Session (Session.Standing Outcome))
    {result : Except Fault (Session.Standing Outcome)} {after : Dashboard}
    (h : i.dashboard.inSession grant.session piece = (result, after, journal)) :
    (∃ alarm next, result = .ok (.waiting alarm next) ∧ i.proceed grant piece =
      ({ i with dashboard := { after with
          runs := i.dashboard.runs ++ [⟨grant.session, grant.drawing, alarm, next⟩] } }, journal)) ∨
    ∃ status note, i.dashboard.Shows result status ∧
      (∀ alarm next, result ≠ .ok (.waiting alarm next)) ∧
      let concluded := after.conclude grant.session status
      (((concluded.controls grant.session).link.connections = 0 ∧ i.proceed grant piece =
        ({ i with dashboard := (concluded.release grant.session).1 },
          journal ++ [.note note] ++ (concluded.release grant.session).2)) ∨
      ((concluded.controls grant.session).link.connections ≠ 0 ∧ i.proceed grant piece =
        ({ i with dashboard := concluded, closing := i.closing ++ [⟨grant, true⟩] },
          journal ++ [.note note]))) := by
  obtain ⟨alarm, next, hresult, hadvance⟩ | ⟨status, note, hshows, hends, hadvance⟩ :=
    advance_cases i.dashboard grant.session grant.drawing piece <;> rw [h] at hadvance
  · rw [h] at hresult
    exact .inl ⟨alarm, next, hresult, by simp only [proceed, hadvance]⟩
  · rw [h] at hshows hends
    refine .inr ⟨status, note, hshows, hends, ?_⟩
    by_cases hconnections :
        ((after.conclude grant.session status).controls grant.session).link.connections = 0
    · exact .inl ⟨hconnections, proceed_of_released hadvance hconnections⟩
    · exact .inr ⟨hconnections, proceed_of_closing hadvance hconnections⟩

/-- The first piece of a run ends it, over a link that has a connection. -/
lemma Step.opened_of_closing {before : Dashboard} {uploads : Nat} {granted : List Grant}
    {opening : List Opening} {closing : List Closing} (grant : Grant) (reply : Reply)
    (h : before.advance grant.session grant.drawing (Session.opening reply grant.drawing) =
      (some status, d, journal))
    (hconnections :
      ((d.conclude grant.session status).controls grant.session).link.connections ≠ 0) :
    Step ⟨before, uploads, granted, ⟨grant, reply⟩ :: opening, closing⟩
      (.ofTurn (some reply) (before.controls grant.session).link grant.session journal)
      ⟨d.conclude grant.session status, uploads, granted, opening, closing ++ [⟨grant, true⟩]⟩ := by
  have hturn := @Turn.opened before uploads granted [] opening closing grant reply
  have hstep := Step.advance hturn
  rwa [proceed_of_closing h hconnections] at hstep

end Proceed

/-! ### One run at a time -/

/-- No session is in use and no run is unfinished, or one run is, and its session is in use. -/
def Single (i : Instant) : Prop :=
  (i.dashboard.current = none ∧ i.unfinished = []) ∨
    ∃ grant, i.unfinished = [grant] ∧ i.dashboard.current = some grant.session ∧
      grant.session < i.dashboard.sessions.length

/-- No drawing is unfinished when no run is granted, opening, in progress or closing. -/
lemma unfinished_eq_nil {i : Instant} : i.unfinished = [] ↔
    i.granted = [] ∧ i.opening = [] ∧ i.dashboard.runs = [] ∧ i.closing = [] := by
  simp [unfinished]

/-- What is the only element of a list that is split there. -/
private lemma eq_of_split_eq_singleton {α : Type} {before after : List α} {a b : α}
    (h : before ++ a :: after = [b]) : a = b ∧ before = [] ∧ after = [] := by
  obtain ⟨rfl, htail⟩ | ⟨-, hnone⟩ := List.append_eq_singleton_iff.mp h
  · obtain ⟨rfl, rfl⟩ := List.cons.inj htail
    exact ⟨rfl, rfl, rfl⟩
  · exact absurd hnone (List.cons_ne_nil _ _)

variable {i : Instant}

/-- When no session is in use no drawing is unfinished. -/
lemma Single.of_current_eq_none (h : i.Single) (hcurrent : i.dashboard.current = none) :
    i.unfinished = [] := by
  obtain ⟨-, hnone⟩ | ⟨grant, -, hsome, -⟩ := h
  · exact hnone
  · exact absurd (hsome.symm.trans hcurrent) (Option.some_ne_none _)

/-- When a session is in use its drawing is the only one that is unfinished. -/
lemma Single.of_current_eq_some (h : i.Single) {n : Nat} (hcurrent : i.dashboard.current = some n) :
    ∃ drawing, i.unfinished = [⟨n, drawing⟩] ∧ n < i.dashboard.sessions.length := by
  obtain ⟨hnone, -⟩ | ⟨⟨k, drawing⟩, honly, hsome, hlength⟩ := h
  · exact absurd (hcurrent.symm.trans hnone) (Option.some_ne_none _)
  · obtain rfl : k = n := Option.some.inj (hsome.symm.trans hcurrent)
    exact ⟨drawing, honly, hlength⟩

/-- A session is in use exactly while a run of its own is unfinished. -/
lemma Single.current_iff (h : i.Single) {n : Nat} :
    i.dashboard.current = some n ↔ ∃ drawing, i.unfinished = [⟨n, drawing⟩] := by
  constructor
  · intro hcurrent
    obtain ⟨drawing, honly, -⟩ := h.of_current_eq_some hcurrent
    exact ⟨drawing, honly⟩
  · rintro ⟨drawing, honly⟩
    obtain ⟨-, hnone⟩ | ⟨grant, hgrant, hcurrent, -⟩ := h
    · exact absurd (honly.symm.trans hnone) (List.cons_ne_nil _ _)
    · obtain rfl : ⟨n, drawing⟩ = grant := by simpa using honly.symm.trans hgrant
      exact hcurrent

/-- The end of a closing leaves no session in use, and touches neither the runs nor what is
shown. -/
lemma frame_finish (d : Dashboard) (closing : Closing) :
    (finish d closing).1.current = none ∧ (finish d closing).1.runs = d.runs ∧
      (finish d closing).1.status = d.status ∧ (finish d closing).1.drawing = d.drawing := by
  unfold finish
  split <;> exact ⟨rfl, rfl, rfl, rfl⟩

/-- An unfinished run is the only one, and its session is in use. -/
lemma Single.of_split (h : i.Single) {before after : List Grant} {grant : Grant}
    (hsplit : i.unfinished = before ++ grant :: after) :
    before = [] ∧ after = [] ∧ i.dashboard.current = some grant.session ∧
      grant.session < i.dashboard.sessions.length := by
  obtain ⟨-, hnone⟩ | ⟨only, honly, hcurrent, hlength⟩ := h
  · exact absurd (hsplit.symm.trans hnone) (by simp)
  · obtain ⟨rfl, hbefore, hafter⟩ := eq_of_split_eq_singleton (hsplit.symm.trans honly)
    exact ⟨hbefore, hafter, hcurrent, hlength⟩

/-- A run that has yet to begin is the only one that is unfinished. -/
lemma Single.of_granted {d : Dashboard} {uploads : Nat} {grant : Grant} {granted : List Grant}
    {opening : List Opening} {closing : List Closing}
    (h : Single ⟨d, uploads, grant :: granted, opening, closing⟩) :
    (granted = [] ∧ opening = [] ∧ d.runs = [] ∧ closing = []) ∧
      d.current = some grant.session ∧ grant.session < d.sessions.length := by
  have hsplit : unfinished ⟨d, uploads, grant :: granted, opening, closing⟩ =
      [] ++ grant :: unfinished ⟨d, uploads, granted, opening, closing⟩ := by
    simp [unfinished]
  obtain ⟨-, hnone, hcurrent, hlength⟩ := h.of_split hsplit
  exact ⟨unfinished_eq_nil.mp hnone, hcurrent, hlength⟩

/-- A step that leaves the session in use and the unfinished runs alone. -/
lemma Single.of_eq {j : Instant} (h : i.Single)
    (hcurrent : j.dashboard.current = i.dashboard.current)
    (hunfinished : j.unfinished = i.unfinished)
    (hlength : j.dashboard.sessions.length = i.dashboard.sessions.length) : j.Single := by
  unfold Single
  rw [hcurrent, hunfinished, hlength]
  exact h

/-- No run is added to those that wait when one has its turn. -/
lemma Turn.mem_runs {rest : Instant} {grant : Grant} {reply : Option Reply}
    {piece : Act Session (Session.Standing Outcome)} (hturn : Turn i grant reply piece rest)
    {run : Run} (hrun : run ∈ rest.dashboard.runs) : run ∈ i.dashboard.runs := by
  cases hturn with
  | begin grant hrehearsal => exact hrun
  | opened grant reply => exact hrun
  | wake waking hwaking => exact (List.mem_filter.mp hrun).1

/-- A run that has its turn is the only one that is unfinished, and its session is in use.  Nothing
else waits: but for the alarm that rang the dashboard is as it was. -/
lemma Turn.alone {rest : Instant} {grant : Grant} {reply : Option Reply}
    {piece : Act Session (Session.Standing Outcome)} (hturn : Turn i grant reply piece rest)
    (h : i.Single) :
    i.unfinished = [grant] ∧ rest.unfinished = [] ∧ i.closing = [] ∧
      i.dashboard.current = some grant.session ∧
      grant.session < i.dashboard.sessions.length ∧ rest.uploads = i.uploads ∧
      rest.dashboard =
        { i.dashboard with runs := rest.dashboard.runs, clock := rest.dashboard.clock } := by
  cases hturn with
  | @begin d uploads granted opening closing grant hrehearsal =>
    obtain ⟨⟨rfl, rfl, hruns, rfl⟩, hcurrent, hlength⟩ := h.of_granted
    refine ⟨?_, unfinished_eq_nil.mpr ⟨rfl, rfl, hruns, rfl⟩, rfl, hcurrent, hlength, rfl, rfl⟩
    simp [unfinished, hruns]
  | @opened d uploads granted before after closing grant reply =>
    have hsplit : unfinished ⟨d, uploads, granted, before ++ ⟨grant, reply⟩ :: after, closing⟩ =
        (granted ++ before.map Opening.grant) ++ grant ::
          (after.map Opening.grant ++ d.runs.map Run.grant ++ closing.map Closing.grant) := by
      simp [unfinished]
    obtain ⟨hbefore, hafter, hcurrent, hlength⟩ := h.of_split hsplit
    simp only [List.append_eq_nil_iff, List.map_eq_nil_iff] at hbefore hafter
    obtain ⟨⟨rfl, rfl⟩, ⟨⟨rfl, hruns⟩, rfl⟩⟩ := And.intro hbefore hafter
    refine ⟨?_, unfinished_eq_nil.mpr ⟨rfl, rfl, hruns, rfl⟩, rfl, hcurrent, hlength, rfl, rfl⟩
    simp [unfinished, hruns]
  | @wake d uploads granted opening closing run hrun =>
    obtain ⟨before, after, hruns⟩ := List.append_of_mem hrun
    have hsplit : unfinished ⟨d, uploads, granted, opening, closing⟩ =
        (granted ++ opening.map Opening.grant ++ before.map Run.grant) ++ run.grant ::
          (after.map Run.grant ++ closing.map Closing.grant) := by
      simp [unfinished, hruns]
    obtain ⟨hbefore, hafter, hcurrent, hlength⟩ := h.of_split hsplit
    simp only [List.append_eq_nil_iff, List.map_eq_nil_iff] at hbefore hafter
    obtain ⟨⟨⟨rfl, rfl⟩, rfl⟩, ⟨rfl, rfl⟩⟩ := And.intro hbefore hafter
    have hnone : (d.roused run).runs = [] := by simp [roused, hruns]
    refine ⟨hsplit, unfinished_eq_nil.mpr ⟨rfl, rfl, hnone, rfl⟩, rfl, hcurrent, hlength, rfl, rfl⟩

/-- The run that goes on is unfinished until its link is closed. -/
lemma single_proceed {grant : Grant} (hnone : i.unfinished = [])
    (hcurrent : i.dashboard.current = some grant.session)
    (hlength : grant.session < i.dashboard.sessions.length)
    (piece : Act Session (Session.Standing Outcome)) : (i.proceed grant piece).1.Single := by
  obtain ⟨hgranted, hopening, hruns, hclosing⟩ := unfinished_eq_nil.mp hnone
  rcases hafter : i.dashboard.inSession grant.session piece with ⟨result, after, journal⟩
  obtain ⟨hcurrent', hruns', -, -, hlength'⟩ := frame_inSession _ _ _ hafter
  obtain ⟨alarm, next, -, hproceed⟩ | ⟨status, note, -, -, ⟨-, hproceed⟩ | ⟨-, hproceed⟩⟩ :=
    i.proceed_cases grant piece hafter <;> rw [hproceed]
  · -- it waits, and is in progress
    refine .inr ⟨grant, ?_, hcurrent'.trans hcurrent, hlength.trans_eq hlength'.symm⟩
    simp [unfinished, hgranted, hopening, hruns, hclosing, Run.grant]
  · -- it is over, and its link with it
    refine .inl ⟨rfl, unfinished_eq_nil.mpr ⟨hgranted, hopening, ?_, hclosing⟩⟩
    exact hruns'.trans hruns
  · -- it is over, and its link is closing
    have hruns'' : (after.conclude grant.session status).runs = [] := hruns'.trans hruns
    refine .inr ⟨grant, ?_, hcurrent'.trans hcurrent, hlength.trans_eq ?_⟩
    · simp [unfinished, hgranted, hopening, hruns'', hclosing]
    · rw [← hlength']
      exact (length_sessions_inSession after grant.session Session.leave).symm

/-- Whatever is done, there is at most one unfinished drawing, and its session is in use. -/
lemma Single.step {a b : Instant} {incident : Incident} (h : a.Single)
    (hstep : Step a incident b) : b.Single := by
  cases hstep with
  | answer request hgrants hadmits hkeeps =>
    obtain ⟨hcurrent, hruns, hlength⟩ := frame_answer hgrants
    exact h.of_eq hcurrent (by simp only [unfinished, hruns]) hlength
  | late closing request hgrants hadmits hcurrent hloses =>
    obtain ⟨hsame, hruns, hlength⟩ := frame_answer hgrants
    exact h.of_eq hsame (by simp [unfinished, hruns]) hlength
  | enter request hadmits => exact h.of_eq rfl rfl rfl
  | @receive d uploads granted opening closing body =>
    obtain hsame | ⟨drawing, status, note, hloaded, -⟩ := receive_cases d body
    · rw [hsame]
      exact h.of_eq rfl rfl rfl
    · rw [hloaded]
      exact h.of_eq rfl rfl rfl
  | @grant d uploads granted opening closing drawing hcurrent hdrawing =>
    obtain ⟨rfl, rfl, hruns, rfl⟩ := unfinished_eq_nil.mp (h.of_current_eq_none hcurrent)
    refine .inr ⟨⟨d.sessions.length, drawing⟩, ?_, rfl, ?_⟩
    · have hruns' : d.engage.runs = [] := hruns
      simp [unfinished, hruns']
    · simp [engage]
  | @dial d uploads granted opening closing grant reply hreply =>
    obtain ⟨⟨rfl, rfl, hruns, rfl⟩, hcurrent, hlength⟩ := h.of_granted
    refine .inr ⟨grant, ?_, hcurrent, ?_⟩
    · have hruns' : d.runs = [] := hruns
      simp [unfinished, hruns']
    · exact hlength.trans_eq (length_sessions_inSession d grant.session Session.dial).symm
  | @advance i rest grant reply piece hturn =>
    obtain ⟨-, hnone, -, hcurrent, hlength, -, hrest⟩ := hturn.alone h
    refine single_proceed hnone ?_ ?_ piece
    · rw [hrest]
      exact hcurrent
    · rw [hrest]
      exact hlength
  | settle n hn hturn =>
    exact h.of_eq rfl rfl (length_sessions_inSession a.dashboard n Session.settle)
  | redial n alarm hsleeper =>
    exact h.of_eq rfl rfl (length_sessions_inSession a.dashboard n (Session.redial alarm))
  | redialed n hn =>
    exact h.of_eq rfl rfl (length_sessions_inSession a.dashboard n Session.redialed)
  | @closed d uploads granted opening before after closing =>
    have hsplit : unfinished ⟨d, uploads, granted, opening, before ++ closing :: after⟩ =
        (granted ++ opening.map Opening.grant ++ d.runs.map Run.grant ++
          before.map Closing.grant) ++ closing.grant :: after.map Closing.grant := by
      simp [unfinished]
    obtain ⟨hbefore, hafter, -, -⟩ := h.of_split hsplit
    simp only [List.append_eq_nil_iff, List.map_eq_nil_iff] at hbefore hafter
    obtain ⟨⟨⟨⟨rfl, rfl⟩, hruns⟩, rfl⟩, rfl⟩ := And.intro hbefore hafter
    obtain ⟨hcurrent, hsame, -, -⟩ := frame_finish d closing
    exact .inl ⟨hcurrent, unfinished_eq_nil.mpr ⟨rfl, rfl, hsame.trans hruns, rfl⟩⟩

/-- There is never more than one unfinished run. -/
lemma Single.leads {a b : Instant} {incidents : List Incident} (h : a.Single)
    (hleads : Leads a incidents b) : b.Single := by
  induction hleads with
  | refl => exact h
  | snoc hleads hstep ih => exact ih.step hstep

/-- At every instant there is at most one unfinished drawing, and its session is in use. -/
lemma single_of_reached {incidents : List Incident} (h : i.Reached incidents) : i.Single := by
  obtain ⟨settings, settingsFile, disk, air, hleads⟩ := h
  exact Single.leads (.inl ⟨rfl, rfl⟩) hleads

end Instant

end PenRover
