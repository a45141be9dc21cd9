import PenRover.Proofs.Link.Ledger

/-!
# Phases of a session

A session is made by a start that is granted.  Then its link is opened, its run goes on from wait to
wait, its link is closed, and it is not used any more.  How far it has come tells what its link can
be like (`Phase.Allows`), and neither a stop nor the background task of the link changes that: a
stop, a task that begins, one that wakes and one whose attempt ends each have a lemma here, which
also counts the connections.
-/

namespace PenRover

/-- How far a session has come. -/
inductive Phase where
  /-- Its run has yet to begin. -/
  | granted
  /-- Its link is being opened. -/
  | opening
  /-- Its run waits. -/
  | running
  /-- Its link is closing, and still has the connection that is being closed or not. -/
  | closing (held : Bool)
  /-- It is not in use. -/
  | idle

/-- What the link of a session that has come so far is like. -/
def Phase.Allows (aborted : Bool) (link : Link) : Phase → Prop
  | .granted => Session.Unopened aborted link
  | .opening => Session.Opening aborted link
  | .running => link.IsAlone
  | .closing held => held = true ∧ link.IsStill ∧ link.connections ≠ 0
  | .idle => link.IsClosed

namespace Phase

open Session

variable {phase : Phase} {s t : Session} {result : Except Fault Unit} {journal : Journal}

/-- However far a session has come, a connection leaves the background task nothing to do. -/
lemma Allows.isAlone {aborted : Bool} {link : Link} (h : phase.Allows aborted link) :
    link.IsAlone := by
  cases phase with
  | granted => exact (Unopened.opening h).1
  | opening => exact h.1
  | running => exact h
  | closing held => exact Link.IsStill.isAlone h.2.1
  | idle => exact Link.IsClosed.isAlone h

/-- A stop leaves a session where it is, as long as it loses no connection that is being closed. -/
lemma Allows.stop (h : phase.Allows s.aborted s.link) (hidle : phase ≠ .idle)
    (hkeeps : ∀ held, phase = .closing held → t.link.connections = s.link.connections)
    (hstop : Session.stop s = (result, t, journal)) :
    phase.Allows t.aborted t.link ∧ s.link.Balances journal t.link := by
  obtain ⟨halone, hbalance⟩ := accounts_stop.of_eq h.isAlone hstop
  refine ⟨?_, hbalance⟩
  cases phase with
  | granted => exact Unopened.of_stop h hstop
  | opening => exact Opening.of_stop h hstop
  | running => exact halone
  | idle => exact absurd rfl hidle
  | closing held =>
    obtain ⟨hheld, hstill, hconnections⟩ := h
    have hkept := hkeeps held rfl
    refine ⟨hheld, isStill_of_stop hstill hconnections hkept hstop, ?_⟩
    rw [hkept]
    exact hconnections

/-- The background task of a session that was granted begins only after its run. -/
lemma Allows.settle (h : phase.Allows s.aborted s.link) (hgranted : phase ≠ .granted)
    (hsettle : Session.settle s = (result, t, journal)) :
    phase.Allows t.aborted t.link ∧ s.link.Balances journal t.link := by
  obtain ⟨halone, hbalance⟩ := accounts_settle.of_eq h.isAlone hsettle
  refine ⟨?_, hbalance⟩
  have hnothing (hstill : s.link.IsStill) : t = s :=
    congrArg (fun x => x.2.1) (hsettle.symm.trans (settle_of_isStill hstill))
  cases phase with
  | granted => exact absurd rfl hgranted
  | opening =>
    exact Opening.of_steady h hsettle steady_settle halone fun hclosed => hnothing hclosed.isStill
  | running => exact halone
  | closing held =>
    rw [hnothing h.2.1]
    exact h
  | idle =>
    rw [hnothing (Link.IsClosed.isStill h)]
    exact h

/-- Only in a session with a run that is underway, or whose link is being opened, somebody wakes. -/
lemma Allows.redial {alarm : Alarm} (h : phase.Allows s.aborted s.link)
    (halarm : s.link.alarm? = some alarm)
    (hredial : Session.redial alarm s = (result, t, journal)) :
    phase.Allows t.aborted t.link ∧ s.link.Balances journal t.link := by
  obtain ⟨halone, hbalance⟩ := accounts_redial h.isAlone halarm hredial
  have hsilent {p : Prop} (hnone : s.link.alarm? = none) : p :=
    absurd (hnone.symm.trans halarm) (Option.some_ne_none alarm).symm
  refine ⟨?_, hbalance⟩
  cases phase with
  | granted => exact hsilent (Unopened.alarm? h)
  | opening =>
    exact Opening.of_steady h hredial (steady_redial alarm) halone
      fun hclosed => hsilent hclosed.alarm?
  | running => exact halone
  | closing held => exact hsilent (Link.IsStill.alarm? h.2.1)
  | idle => exact hsilent (Link.IsClosed.alarm? h)

/-- And only there an attempt of a background task can end. -/
lemma Allows.redialed (h : phase.Allows s.aborted s.link)
    (hredialed : Session.redialed s = (result, t, journal)) :
    phase.Allows t.aborted t.link ∧ s.link.Balances journal t.link := by
  obtain ⟨halone, hbalance⟩ := accounts_redialed.of_eq h.isAlone hredialed
  refine ⟨?_, hbalance⟩
  have hnothing (hstill : s.link.IsStill) : t = s :=
    congrArg (fun x => x.2.1) (hredialed.symm.trans (redialed_of_isStill hstill))
  cases phase with
  | granted =>
    rw [show t = s from congrArg (fun x => x.2.1) (hredialed.symm.trans (Unopened.redialed h))]
    exact h
  | opening =>
    exact Opening.of_steady h hredialed steady_redialed halone
      fun hclosed => hnothing hclosed.isStill
  | running => exact halone
  | closing held =>
    rw [hnothing h.2.1]
    exact h
  | idle =>
    rw [hnothing (Link.IsClosed.isStill h)]
    exact h

end Phase

end PenRover
