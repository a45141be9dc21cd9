import PenRover.Proofs.Link.History
import PenRover.Proofs.Motion.Pieces

/-!
# Connections counted

A journal says how many connections were opened, and how many came to an end because they were
closed from here or turned out closed.  What is left is what the link has: every action that a run,
a stop or the background task performs on a link keeps the count (`Session.Accounts`).

An attempt that ends in a connection while there is another one loses the older one, so the count
needs that a background task never makes an attempt while there is a connection.  This is the
invariant `Link.IsAlone`.  It does not help against an attempt to open the link that takes so long
that a background task, called by a stop meanwhile, is there first (`Radio.replaces_opened`).
-/

namespace PenRover

namespace Journal

/-- How many connections were opened. -/
def opened (journal : Journal) : Nat :=
  journal.countP fun
    | .event (.connect _ .accepted) => true
    | _ => false

/-- How many connections were closed from here or turned out closed. -/
def ended (journal : Journal) : Nat :=
  journal.countP fun
    | .event .hangUp => true
    | .event (.transmit _ .closed) => true
    | _ => false

/-- In an empty journal no connection was opened. -/
@[simp] lemma opened_nil : opened [] = 0 := rfl

/-- In an empty journal no connection ended. -/
@[simp] lemma ended_nil : ended [] = 0 := rfl

/-- The connections opened in two journals add up. -/
@[simp] lemma opened_append (first second : Journal) :
    opened (first ++ second) = opened first + opened second := by
  simp [opened]

/-- The connections ended in two journals add up. -/
@[simp] lemma ended_append (first second : Journal) :
    ended (first ++ second) = ended first + ended second := by
  simp [ended]

/-- Notes open and end nothing. -/
lemma opened_eq_zero {journal : Journal} (h : journal.events = []) : opened journal = 0 := by
  rw [opened, List.countP_eq_zero]
  intro entry hentry
  have hnone := List.filterMap_eq_nil_iff.mp h entry hentry
  cases entry with
  | event event => nomatch hnone
  | note note => exact Bool.false_ne_true

/-- Where there are no events, no connection ended. -/
lemma ended_eq_zero {journal : Journal} (h : journal.events = []) : ended journal = 0 := by
  rw [ended, List.countP_eq_zero]
  intro entry hentry
  have hnone := List.filterMap_eq_nil_iff.mp h entry hentry
  cases entry with
  | event event => nomatch hnone
  | note note => exact Bool.false_ne_true

end Journal

/-! ### Links -/

namespace Link

/-- How many connections the link has. -/
def connections : Link → Nat
  | .rehearsal _ => 0
  | .radio r => r.connected.toNat

/-- The link has neither a connection nor an unfinished background task. -/
def IsClosed : Link → Prop
  | .rehearsal _ => True
  | .radio r => r.connected = false ∧ r.retry = .idle

/-- The link has no unfinished background task. -/
def IsStill : Link → Prop
  | .rehearsal _ => True
  | .radio r => r.retry = .idle

/-- While the link has a connection it has no unfinished background task. -/
def IsAlone : Link → Prop
  | .rehearsal _ => True
  | .radio r => r.connected = true → r.retry = .idle

/-- The journal tells how the link came from so many connections to its own. -/
def Balances (before : Link) (journal : Journal) (after : Link) : Prop :=
  before.connections + journal.opened = journal.ended + after.connections

/-- The journal tells how the link came from so many connections to its own, except for one that it
lost on the way. -/
def Replaces (before : Link) (journal : Journal) (after : Link) : Prop :=
  before.connections + journal.opened = journal.ended + after.connections + 1

variable {link before between after : Link} {journal first second : Journal}

/-- A link has at most one connection. -/
lemma connections_le_one (link : Link) : link.connections ≤ 1 := by
  cases link with
  | rehearsal frames => exact Nat.zero_le 1
  | radio r => exact Bool.toNat_le r.connected

/-- A closed link has no connection. -/
lemma IsClosed.connections (h : link.IsClosed) : link.connections = 0 := by
  cases link with
  | rehearsal frames => rfl
  | radio r => rw [Link.connections, h.1, Bool.toNat_false]

/-- A link is closed when it has no connection and no unfinished background task. -/
lemma isClosed_iff : link.IsClosed ↔ link.connections = 0 ∧ link.IsStill := by
  cases link with
  | rehearsal frames => exact iff_of_true trivial ⟨rfl, trivial⟩
  | radio r => exact and_congr_left' (by rw [connections, Bool.toNat_eq_zero])

/-- A link with no background task leaves none beside its connection. -/
lemma IsStill.isAlone (h : link.IsStill) : link.IsAlone := by
  cases link with
  | rehearsal frames => trivial
  | radio r => exact fun _ => h

/-- A closed link has no background task. -/
lemma IsClosed.isStill (h : link.IsClosed) : link.IsStill := (isClosed_iff.mp h).2

/-- A closed link has neither a connection nor a task beside it. -/
lemma IsClosed.isAlone (h : link.IsClosed) : link.IsAlone := h.isStill.isAlone

/-- A link that begins to close keeps its connection and loses its background task. -/
lemma leave_cases (link : Link) :
    link.leave.IsStill ∧ link.leave.connections = link.connections := by
  cases link with
  | rehearsal frames => exact ⟨trivial, rfl⟩
  | radio r => exact ⟨rfl, rfl⟩

/-- Nobody waits where there is no background task. -/
lemma IsStill.alarm? (h : link.IsStill) : link.alarm? = none := by
  cases link with
  | rehearsal frames => rfl
  | radio r =>
    have hidle : r.retry = .idle := h
    simp [Link.alarm?, Radio.alarm?, hidle]

/-- A closed link has no alarm. -/
lemma IsClosed.alarm? (h : link.IsClosed) : link.alarm? = none := h.isStill.alarm?

/-- The link that the settings ask for is closed at first. -/
lemma isClosed_ofSettings (settings : Settings) : (Link.ofSettings settings).IsClosed := by
  unfold Link.ofSettings
  split
  · trivial
  · exact ⟨rfl, rfl⟩

/-- A journal without openings and endings balances what does not change. -/
lemma Balances.refl (link : Link) (hopened : journal.opened = 0) (hended : journal.ended = 0) :
    link.Balances journal link := by
  rw [Balances, hopened, hended, Nat.add_comm]

/-- A journal without events balances what does not change. -/
lemma Balances.of_events (link : Link) (h : journal.events = []) : link.Balances journal link :=
  .refl link (Journal.opened_eq_zero h) (Journal.ended_eq_zero h)

/-- What comes after a connection was lost. -/
lemma Replaces.trans (h : before.Replaces first between) (hrest : between.Balances second after) :
    before.Replaces (first ++ second) after := by
  unfold Replaces Balances at *
  rw [Journal.opened_append, Journal.ended_append]
  omega

/-- Journals that balance one after another balance together. -/
lemma Balances.trans (h : before.Balances first between) (hrest : between.Balances second after) :
    before.Balances (first ++ second) after := by
  unfold Balances at *
  rw [Journal.opened_append, Journal.ended_append]
  omega

end Link

/-! ### The radio -/

namespace Radio

variable {radio : Radio}

/-- An attempt to open the link that ends in no second connection is accounted for. -/
lemma balances_opened {reply : Reply} (h : radio.connected = false ∨ reply ≠ .accepted) :
    (Link.radio radio).Balances (radio.opened reply).2.2 (.radio (radio.opened reply).2.1) := by
  unfold Link.Balances
  obtain ⟨rfl, hopened⟩ | ⟨rfl, hopened⟩ | ⟨fault, hreply, -, hopened⟩ :=
    opened_cases radio reply <;> rw [hopened]
  · have hdown : radio.connected = false := h.resolve_right fun hother => hother rfl
    simp [Link.connections, hdown, Journal.opened, Journal.ended]
  · simp [Link.connections, Journal.opened, Journal.ended]
  · have hrefused : reply ≠ .accepted := by
      rintro rfl
      nomatch hreply
    simp [Link.connections, Journal.opened, Journal.ended, hrefused]

/-- A second connection takes the place of the first one, which is nobody's from then on. -/
lemma replaces_opened (h : radio.connected = true) :
    (Link.radio radio).Replaces (radio.opened .accepted).2.2
      (.radio (radio.opened .accepted).2.1) := by
  simp [Link.Replaces, Link.connections, opened, Reply.fault?, h, Journal.opened, Journal.ended]

/-- Sending bytes is accounted for: a connection that turns out closed has ended. -/
lemma balances_send (radio : Radio) (air : Air) (bytes : Bytes) :
    (Link.radio radio).Balances (radio.send air bytes).2.2.2
      (.radio (radio.send air bytes).2.1) := by
  unfold Link.Balances
  obtain ⟨-, hsend⟩ | ⟨-, -, hsend⟩ | ⟨hup, -, hsend⟩ | ⟨fault, -, hreply, hother, hsend⟩ :=
    sending_cases radio air bytes <;> rw [hsend]
  · simp [Link.connections, Journal.opened, Journal.ended]
  · simp [Link.connections, Journal.opened, Journal.ended]
  · simp [Link.connections, hup, Journal.opened, Journal.ended]
  · have hopen : air.nextTransmission.1 ≠ .closed := by
      intro hclosed
      rw [hclosed] at hreply
      exact hother (Option.some.inj hreply).symm
    simp [Link.connections, Journal.opened, Journal.ended, hopen]

/-- The connection that is hung up is accounted for. -/
lemma balances_hangUp (radio : Radio) :
    (Link.radio radio).Balances radio.hangUp.2 (.radio radio.hangUp.1) := by
  unfold Link.Balances
  cases hup : radio.connected <;>
    simp [Link.connections, hangUp, forget, hup, Journal.opened, Journal.ended]

/-- A background task that goes to rest opens and ends nothing. -/
lemma balances_rest (radio : Radio) (clock : Clock) :
    (Link.radio radio).Balances (radio.rest clock).2.2 (.radio (radio.rest clock).1) := by
  unfold Link.Balances
  obtain ⟨hrest, hjournal | hjournal⟩ | ⟨alarm, -, -, hrest, hjournal⟩ := rest_cases radio clock <;>
    rw [hrest, hjournal] <;> simp [Link.connections, Journal.opened, Journal.ended]

/-- An attempt of the background task while there is no connection is accounted for. -/
lemma balances_redialed (h : radio.connected = false) {reply : Reply}
    (hretry : radio.retry = .dialing reply) (clock : Clock) :
    (Link.radio radio).Balances (radio.redialed clock).2.2
      (.radio (radio.redialed clock).1) := by
  obtain ⟨-, hredialed⟩ | ⟨-, hredialed⟩ | ⟨fault, hreply, -, hredialed⟩ :=
    redialed_cases radio clock hretry <;> rw [hredialed]
  · simp [Link.Balances, Link.connections, h, Journal.opened, Journal.ended]
  · simp [Link.Balances, Link.connections, Journal.opened, Journal.ended]
  · have hrefused : reply ≠ .accepted := by
      rintro rfl
      nomatch hreply
    refine Link.Balances.trans (Link.Balances.refl _ ?_ rfl) (balances_rest radio clock)
    simp [Journal.opened, hrefused]

/-- Where there is no attempt of a background task, none ends. -/
lemma redialed_of_ne_dialing (h : ∀ reply, radio.retry ≠ .dialing reply) (clock : Clock) :
    radio.redialed clock = (radio, clock, []) := by
  unfold redialed
  split
  next reply hdialing => exact absurd hdialing (h reply)
  next => rfl

/-! A connection leaves the background task nothing to do. -/

/-- A background task that is called for without a connection is beside none. -/
lemma isAlone_call (h : radio.connected = false) : (Link.radio radio.call).IsAlone := by
  intro hup
  rw [connected_call, h] at hup
  nomatch hup

/-- When an attempt on an idle link ends, no background task is beside a connection. -/
lemma isAlone_opened (hidle : radio.retry = .idle) (hdown : radio.connected = false)
    (reply : Reply) : (Link.radio (radio.opened reply).2.1).IsAlone := by
  obtain ⟨-, hopened⟩ | ⟨-, hopened⟩ | ⟨fault, -, -, hopened⟩ := opened_cases radio reply <;>
    rw [hopened]
  · exact fun _ => hidle
  · exact fun _ => hidle
  · exact isAlone_call hdown

/-- Sending bytes leaves no background task beside a connection. -/
lemma isAlone_send (h : (Link.radio radio).IsAlone) (air : Air) (bytes : Bytes) :
    (Link.radio (radio.send air bytes).2.1).IsAlone := by
  obtain ⟨hdown, hsend⟩ | ⟨-, -, hsend⟩ | ⟨-, -, hsend⟩ | ⟨fault, -, -, -, hsend⟩ :=
    sending_cases radio air bytes <;> rw [hsend]
  · exact isAlone_call hdown
  · exact h
  · exact isAlone_call rfl
  · exact h

/-- A background task that goes to rest does so beside no connection. -/
lemma isAlone_rest (radio : Radio) (clock : Clock) : (Link.radio (radio.rest clock).1).IsAlone := by
  obtain ⟨hrest, -⟩ | ⟨alarm, hdown, -, hrest, -⟩ := rest_cases radio clock <;> rw [hrest]
  · exact fun _ => rfl
  · intro hup
    exact absurd (hdown.symm.trans hup) Bool.false_ne_true

/-- When the attempt of a background task ends, the task is not beside a connection. -/
lemma isAlone_redialed {reply : Reply} (hretry : radio.retry = .dialing reply) (clock : Clock) :
    (Link.radio (radio.redialed clock).1).IsAlone := by
  obtain ⟨-, hredialed⟩ | ⟨-, hredialed⟩ | ⟨fault, -, -, hredialed⟩ :=
    redialed_cases radio clock hretry <;> rw [hredialed]
  · exact fun _ => rfl
  · exact fun _ => rfl
  · exact isAlone_rest radio clock

end Radio

/-! ### Sessions -/

namespace Session

open Script

variable {α β : Type}

/-- The journal of the action accounts for what it did to the link, and a connection goes on to
leave the background task nothing to do. -/
def Accounts (act : Act Session α) : Prop :=
  ∀ s, s.link.IsAlone →
    (act s).2.1.link.IsAlone ∧ s.link.Balances (act s).2.2 (act s).2.1.link

/-- What an action that accounts for itself does to a link that is alone, given its result. -/
lemma Accounts.of_eq {act : Act Session α} (h : Accounts act) {s t : Session}
    {result : Except Fault α} {journal : Journal} (hs : s.link.IsAlone)
    (hact : act s = (result, t, journal)) :
    t.link.IsAlone ∧ s.link.Balances journal t.link := by
  have hkept := h s hs
  rwa [hact] at hkept

/-- An action that leaves the link alone accounts for it when it writes of no connection. -/
lemma Accounts.of_link_eq {act : Act Session α} (hlink : ∀ s, (act s).2.1.link = s.link)
    (hopened : ∀ s, (act s).2.2.opened = 0) (hended : ∀ s, (act s).2.2.ended = 0) :
    Accounts act := by
  intro s h
  rw [hlink]
  exact ⟨h, .refl _ (hopened s) (hended s)⟩

/-- Actions that account for themselves do so one after another. -/
lemma Accounts.bind {act : Act Session α} {next : α → Act Session β} (h : Accounts act)
    (hnext : ∀ a, Accounts (next a)) : Accounts (act >>= next) := by
  intro s hs
  obtain ⟨halone, hbalance⟩ := h s hs
  rcases hact : act s with ⟨_ | a, t, journal⟩ <;> rw [hact] at halone hbalance
  · rw [Act.bind_error hact]
    exact ⟨halone, hbalance⟩
  · obtain ⟨halone', hbalance'⟩ := hnext a t halone
    rw [Act.bind_ok hact]
    exact ⟨halone', hbalance.trans hbalance'⟩

/-- A note has nothing to account for. -/
lemma accounts_write_note (n : Note) : Accounts (Act.write [.note n]) :=
  .of_link_eq (fun _ => rfl) (fun _ => rfl) (fun _ => rfl)

/-- A computation has nothing to account for. -/
lemma accounts_ofExcept (result : Except Fault α) :
    Accounts (Act.ofExcept result : Act Session α) :=
  .of_link_eq (fun _ => rfl) (fun _ => rfl) (fun _ => rfl)

/-- Sending bytes accounts for a connection that turns out closed. -/
lemma accounts_send (bytes : Bytes) : Accounts (Session.send bytes) := by
  intro s hs
  cases hlink : s.link with
  | rehearsal frames =>
    simp only [Session.send, hlink, Link.send]
    cases Frame.ofBytes bytes with
    | error fault => exact ⟨trivial, .refl _ rfl rfl⟩
    | ok frame => exact ⟨trivial, rfl⟩
  | radio radio =>
    rw [hlink] at hs
    simp only [Session.send, hlink, Link.send]
    exact ⟨Radio.isAlone_send hs s.air bytes, Radio.balances_send radio s.air bytes⟩

/-- A request for powers accounts for what sending its frame does. -/
lemma accounts_drive (left right : Value) : Accounts (Session.drive left right) := by
  unfold Session.drive
  split
  · refine (accounts_write_note _).bind fun _ => (accounts_ofExcept _).bind ?_
    intro frame
    cases frame with
    | none => exact accounts_write_note _
    | some frame =>
      refine Accounts.bind (.of_link_eq (fun _ => rfl) (fun _ => rfl) fun _ => rfl) fun s => ?_
      split
      · exact .of_link_eq (fun _ => rfl) (fun _ => rfl) fun _ => rfl
      · exact accounts_send _
  · exact .of_link_eq (fun _ => rfl) (fun _ => rfl) fun _ => rfl

/-- A stop accounts for what sending its frame does. -/
lemma accounts_stop : Accounts Session.stop :=
  (accounts_drive _ _).bind fun _ => .of_link_eq (fun _ => rfl) (fun _ => rfl) fun _ => rfl

/-- A piece of a run accounts for its frames. -/
lemma accounts_resume (script : Script α) : Accounts (resume script) := by
  induction script with
  | finish a => exact .of_link_eq (fun _ => rfl) (fun _ => rfl) fun _ => rfl
  | fail fault => exact .of_link_eq (fun _ => rfl) (fun _ => rfl) fun _ => rfl
  | note n script ih => exact (accounts_write_note n).bind fun _ => ih
  | consult script ih => exact fun s => ih s.settings s
  | poll script ih => exact fun s => ih s.aborted s
  | drive left right script ih => exact (accounts_drive left right).bind fun _ => ih
  | wait time script ih =>
    have hbegin : Accounts (beginWait time) :=
      (accounts_ofExcept _).bind fun _ =>
        Accounts.bind (.of_link_eq (fun _ => rfl) (fun _ => rfl) fun _ => rfl) fun _ =>
          Accounts.bind (.of_link_eq (fun _ => rfl) (fun _ => rfl) fun _ => rfl) fun _ =>
            .of_link_eq (fun _ => rfl) (fun _ => rfl) fun _ => rfl
    refine hbegin.bind fun length => Accounts.bind ?_ ?_
    · exact .of_link_eq (fun _ => rfl) (fun _ => rfl) fun _ => rfl
    · intro _
      exact .of_link_eq (fun _ => rfl) (fun _ => rfl) fun _ => rfl

/-- A background task that has its turn accounts for what it does. -/
lemma accounts_settle : Accounts Session.settle := by
  intro s hs
  cases hlink : s.link with
  | rehearsal frames =>
    simp only [Session.settle, hlink, Link.settle]
    exact ⟨trivial, .refl _ rfl rfl⟩
  | radio radio =>
    rw [hlink] at hs
    simp only [Session.settle, hlink, Link.settle, Radio.settle]
    split
    · exact ⟨Radio.isAlone_rest radio s.clock, Radio.balances_rest radio s.clock⟩
    · exact ⟨hs, .refl _ rfl rfl⟩

/-- Where there is no background task, none begins. -/
lemma settle_of_isStill {s : Session} (h : s.link.IsStill) :
    Session.settle s = (.ok (), s, []) := by
  obtain ⟨settings, link, aborted, air, clock⟩ := s
  cases link with
  | rehearsal frames => rfl
  | radio radio =>
    have hidle : radio.retry = .idle := h
    simp only [Session.settle, Link.settle, Radio.settle, hidle]

/-- A background task that wakes finds no connection, and makes none until its attempt ends. -/
lemma accounts_redial {s t : Session} {alarm : Alarm} {result : Except Fault Unit}
    {journal : Journal} (hs : s.link.IsAlone) (halarm : s.link.alarm? = some alarm)
    (hredial : Session.redial alarm s = (result, t, journal)) :
    t.link.IsAlone ∧ s.link.Balances journal t.link := by
  cases hlink : s.link with
  | rehearsal frames =>
    rw [hlink] at halarm
    nomatch halarm
  | radio radio =>
    rw [hlink] at hs halarm
    have hdown : radio.connected = false := by
      rw [Bool.eq_false_iff]
      intro hup
      rw [Link.alarm?, Radio.alarm?, hs hup] at halarm
      nomatch halarm
    simp only [Session.redial, hlink, Link.redial, Prod.mk.injEq] at hredial
    obtain ⟨-, rfl, rfl⟩ := hredial
    refine ⟨?_, .refl _ rfl rfl⟩
    intro hup
    exact absurd (hdown.symm.trans hup) Bool.false_ne_true

/-- The attempt of a background task ends while there is no connection. -/
lemma accounts_redialed : Accounts Session.redialed := by
  intro s hs
  cases hlink : s.link with
  | rehearsal frames =>
    simp only [Session.redialed, hlink, Link.redialed]
    exact ⟨trivial, .refl _ rfl rfl⟩
  | radio radio =>
    rw [hlink] at hs
    simp only [Session.redialed, hlink, Link.redialed]
    by_cases hretry : ∃ reply, radio.retry = .dialing reply
    · obtain ⟨reply, hretry⟩ := hretry
      have hdown : radio.connected = false := by
        rw [Bool.eq_false_iff]
        intro hup
        rw [hs hup] at hretry
        exact Retry.noConfusion hretry
      exact ⟨Radio.isAlone_redialed hretry s.clock,
        Radio.balances_redialed hdown hretry s.clock⟩
    · rw [Radio.redialed_of_ne_dialing fun reply hdialing => hretry ⟨reply, hdialing⟩]
      exact ⟨hs, .refl _ rfl rfl⟩

/-- No attempt ends on a link with no background task. -/
lemma redialed_of_isStill {s : Session} (h : s.link.IsStill) :
    Session.redialed s = (.ok (), s, []) := by
  obtain ⟨settings, link, aborted, air, clock⟩ := s
  cases link with
  | rehearsal frames => rfl
  | radio radio =>
    have hidle : radio.retry = .idle := h
    simp only [Session.redialed, Link.redialed, Radio.redialed, hidle]

/-- A link without a background task is closed once its connection is hung up. -/
lemma balances_hangUp {s t : Session} {result : Except Fault Unit} {journal : Journal}
    (hstill : s.link.IsStill) (hhangUp : Session.hangUp s = (result, t, journal)) :
    t.link.IsClosed ∧ s.link.Balances journal t.link := by
  cases hlink : s.link with
  | rehearsal frames =>
    simp only [Session.hangUp, hlink, Link.hangUp, Prod.mk.injEq] at hhangUp
    obtain ⟨-, rfl, rfl⟩ := hhangUp
    exact ⟨trivial, .refl _ rfl rfl⟩
  | radio radio =>
    rw [hlink] at hstill
    simp only [Session.hangUp, hlink, Link.hangUp, Prod.mk.injEq] at hhangUp
    obtain ⟨-, rfl, rfl⟩ := hhangUp
    exact ⟨⟨rfl, hstill⟩, Radio.balances_hangUp radio⟩

/-! ### Before the first piece of a run -/

/-- The link was not opened yet.  It may have been given bytes to send already, namely those of a
stop, and then the flag is up. -/
def Unopened (aborted : Bool) : Link → Prop
  | .rehearsal _ => True
  | .radio r => r.connected = false ∧ (r.retry = .idle ∨ r.retry = .called ∧ aborted = true)

/-- The link is being opened.  Only a stop, which raises the flag, has given it bytes to send in the
meantime, and only then can there be a background task or a connection. -/
def Opening (aborted : Bool) (link : Link) : Prop :=
  link.IsAlone ∧ (aborted = false → link.IsClosed)

/-- A closed link was not opened yet, whatever the flag. -/
lemma Unopened.of_isClosed {link : Link} (h : link.IsClosed) (aborted : Bool) :
    Unopened aborted link := by
  cases link with
  | rehearsal frames => trivial
  | radio r => exact ⟨h.1, .inl h.2⟩

/-- A link that was not opened yet has no connection. -/
lemma Unopened.connections {link : Link} {aborted : Bool} (h : Unopened aborted link) :
    link.connections = 0 := by
  cases link with
  | rehearsal frames => rfl
  | radio r => rw [Link.connections, h.1, Bool.toNat_false]

/-- Nobody has begun to wait on a link that was not opened yet. -/
lemma Unopened.alarm? {link : Link} {aborted : Bool} (h : Unopened aborted link) :
    link.alarm? = none := by
  cases link with
  | rehearsal frames => rfl
  | radio r =>
    obtain ⟨-, hidle | ⟨hcalled, -⟩⟩ := h
    · simp [Link.alarm?, Radio.alarm?, hidle]
    · simp [Link.alarm?, Radio.alarm?, hcalled]

/-- No attempt of a background task was begun on a link that was not opened yet. -/
lemma Unopened.redialed {s : Session} (h : Unopened s.aborted s.link) :
    Session.redialed s = (.ok (), s, []) := by
  obtain ⟨settings, link, aborted, air, clock⟩ := s
  cases link with
  | rehearsal frames => rfl
  | radio radio =>
    obtain ⟨-, hretry⟩ := h
    have hnothing : radio.redialed clock = (radio, clock, []) := by
      refine Radio.redialed_of_ne_dialing (fun reply hdialing => ?_) clock
      obtain hidle | ⟨hcalled, -⟩ := hretry
      · exact Retry.noConfusion (hidle.symm.trans hdialing)
      · exact Retry.noConfusion (hcalled.symm.trans hdialing)
    simp only [Session.redialed, Link.redialed, hnothing]

/-- A link that was not opened yet can be opened. -/
lemma Unopened.opening {link : Link} {aborted : Bool} (h : Unopened aborted link) :
    Opening aborted link := by
  cases link with
  | rehearsal frames => exact ⟨trivial, fun _ => trivial⟩
  | radio r =>
    obtain ⟨hdown, hretry⟩ := h
    refine ⟨fun hup => absurd (hdown.symm.trans hup) Bool.false_ne_true, fun hlow => ⟨hdown, ?_⟩⟩
    obtain hidle | ⟨-, hup⟩ := hretry
    · exact hidle
    · exact absurd (hlow.symm.trans hup) Bool.false_ne_true

/-- What a stop comes to while there is no connection: nothing when the flag is up, and otherwise it
calls the background task and raises the flag. -/
lemma stop_of_not_connected {s : Session} {radio : Radio} (hlink : s.link = .radio radio)
    (hdown : radio.connected = false) :
    ∃ t journal, Session.stop s = (.ok (), t, journal) ∧ t.aborted = true ∧
      t.link = .radio (if s.aborted then radio else radio.call) := by
  rcases Bool.eq_false_or_eq_true s.aborted with hup | hup
  · exact ⟨s, _, stop_of_up hup, hup, by rw [hup, if_pos rfl, hlink]⟩
  · have hsend : Session.send Frame.stop.toBytes s = (.ok (), { s with link := .radio radio.call },
        [.note (.droppedOffline radio.url Frame.stop.toBytes)]) := by
      simp only [Session.send, hlink, Link.send, Radio.send, hdown]
      rfl
    have hdrive := drive_zero_of_down hup
    rw [hsend] at hdrive
    refine ⟨{ s with link := .radio radio.call, aborted := true }, [.note (.powers (.int 0)
      (.int 0)), .note (.droppedOffline radio.url Frame.stop.toBytes)], ?_, rfl, ?_⟩
    · rw [Session.stop, Act.bind_ok hdrive]
      rfl
    · rw [hup, if_neg Bool.false_ne_true]

/-- A stop hands its frame to the link, unless the flag is up. -/
lemma link_of_stop (s : Session) :
    (Session.stop s).2.1.link =
      if s.aborted then s.link else (Session.send Frame.stop.toBytes s).2.1.link := by
  rcases Bool.eq_false_or_eq_true s.aborted with hup | hdown
  · rw [stop_of_up hup, hup, if_pos rfl]
  · rw [hdown, if_neg Bool.false_ne_true]
    have hdrive := drive_zero_of_down hdown
    rcases hsend : Session.send Frame.stop.toBytes s with ⟨fault | _, t, journal⟩ <;>
      rw [hsend] at hdrive
    · rw [Session.stop, Act.bind_error hdrive]
    · rw [Session.stop, Act.bind_ok hdrive]
      rfl

/-- A stop that leaves the connection in place calls no background task. -/
lemma isStill_of_stop {s t : Session} {result : Except Fault Unit} {journal : Journal}
    (hstill : s.link.IsStill) (hconnections : s.link.connections ≠ 0)
    (hkept : t.link.connections = s.link.connections)
    (hstop : Session.stop s = (result, t, journal)) : t.link.IsStill := by
  have hlink : t.link = _ := hstop ▸ link_of_stop s
  rcases Bool.eq_false_or_eq_true s.aborted with hup | hdown
  · rw [hlink, hup, if_pos rfl]
    exact hstill
  · rw [hdown, if_neg Bool.false_ne_true] at hlink
    cases hkind : s.link with
    | rehearsal frames =>
      rw [hkind] at hconnections
      exact absurd rfl hconnections
    | radio radio =>
      simp only [Session.send, hkind, Link.send] at hlink
      rw [hkind] at hstill hconnections hkept
      obtain ⟨hnone, -⟩ | ⟨-, -, hsend⟩ | ⟨-, -, hsend⟩ | ⟨fault, -, -, -, hsend⟩ :=
        Radio.sending_cases radio s.air Frame.stop.toBytes
      · rw [Link.connections, hnone] at hconnections
        exact absurd rfl hconnections
      · rw [hlink, hsend]
        exact hstill
      · -- the connection was lost
        have hlost : t.link.connections = 0 := by
          rw [hlink, hsend, Link.connections, Radio.connected_call]
          rfl
        exact absurd (hkept.symm.trans hlost) hconnections
      · rw [hlink, hsend]
        exact hstill

/-- A stop of a rehearsal raises the flag. -/
lemma stop_of_isRehearsal {s t : Session} {result : Except Fault Unit} {journal : Journal}
    (hs : s.IsRehearsal) (hstop : Session.stop s = (result, t, journal)) :
    t.IsRehearsal ∧ t.aborted = true := by
  have hrehearses : s.Rehearses s.settings s.progress := ⟨hs, rfl, rfl⟩
  obtain ⟨t', journal', hstop', ht', -⟩ := stop_rehearsal s _ _ hrehearses
  obtain rfl : t' = t := congrArg (fun x => x.2.1) (hstop'.symm.trans hstop)
  exact ⟨ht'.isRehearsal, congrArg Progress.aborted ht'.progress_eq⟩

/-- A stop before the opening leaves the link unopened. -/
lemma Unopened.of_stop {s t : Session} {result : Except Fault Unit} {journal : Journal}
    (hs : Unopened s.aborted s.link) (hstop : Session.stop s = (result, t, journal)) :
    Unopened t.aborted t.link := by
  cases hlink : s.link with
  | rehearsal frames =>
    obtain ⟨⟨frames', hlink'⟩, -⟩ := stop_of_isRehearsal ⟨frames, hlink⟩ hstop
    rw [hlink']
    trivial
  | radio radio =>
    rw [hlink] at hs
    obtain ⟨hdown, hretry⟩ := hs
    obtain ⟨t', journal', hstop', hup, hlink'⟩ := stop_of_not_connected hlink hdown
    obtain rfl : t' = t := congrArg (fun x => x.2.1) (hstop'.symm.trans hstop)
    rw [hup, hlink']
    split
    · obtain hidle | ⟨hcalled, -⟩ := hretry
      · exact ⟨hdown, .inl hidle⟩
      · exact ⟨hdown, .inr ⟨hcalled, rfl⟩⟩
    · refine ⟨by rw [Radio.connected_call, hdown], .inr ⟨?_, rfl⟩⟩
      obtain hidle | ⟨hcalled, -⟩ := hretry
      · rw [Radio.call_of_idle hidle]
      · rw [Radio.call_of_ne_idle (by rw [hcalled]; nofun), hcalled]

/-- A stop during the opening raises the flag. -/
lemma Opening.of_stop {s t : Session} {result : Except Fault Unit} {journal : Journal}
    (hs : Opening s.aborted s.link) (hstop : Session.stop s = (result, t, journal)) :
    Opening t.aborted t.link := by
  obtain ⟨halone, hclosed⟩ := hs
  refine ⟨(accounts_stop.of_eq halone hstop).1, fun hlow => absurd hlow ?_⟩
  rw [Bool.not_eq_false]
  rcases Bool.eq_false_or_eq_true s.aborted with hup | hup
  · obtain rfl : s = t := congrArg (fun x => x.2.1) ((stop_of_up hup).symm.trans hstop)
    exact hup
  · have hlink := hclosed hup
    cases hkind : s.link with
    | rehearsal frames => exact (stop_of_isRehearsal ⟨frames, hkind⟩ hstop).2
    | radio radio =>
      rw [hkind] at hlink
      obtain ⟨t', journal', hstop', hraised, -⟩ := stop_of_not_connected hkind hlink.1
      obtain rfl : t' = t := congrArg (fun x => x.2.1) (hstop'.symm.trans hstop)
      exact hraised

/-- What the background task does during the opening it does while the flag is up. -/
lemma Opening.of_steady {act : Act Session α} {s t : Session} {result : Except Fault α}
    {journal : Journal} (hs : Opening s.aborted s.link) (hact : act s = (result, t, journal))
    (hsteady : Steady act) (halone : t.link.IsAlone) (hclosed : s.link.IsClosed → t = s) :
    Opening t.aborted t.link := by
  refine ⟨halone, ?_⟩
  intro hlow
  have hbefore := hs.2 ((hsteady.aborted_eq hact).symm.trans hlow)
  rw [hclosed hbefore]
  exact hbefore

/-! ### The first piece of a run -/

/-- A drawing whose flag is up ends at once. -/
lemma resume_draw_of_aborted {s : Session} (hup : s.aborted = true) (drawing : List Command) :
    resume (draw drawing) s =
      (.ok (.ended .cancelled), s, [.note (.stoppedAt Pose.start)]) := by
  cases drawing with
  | nil =>
    change resume ((if s.aborted then _ else _ : Script Outcome)) s = _
    rw [if_pos hup]
    rfl
  | cons command rest =>
    change resume ((if s.aborted then _ else _ : Script Outcome)) s = _
    rw [if_pos hup]
    rfl

/-- The first piece of the run of a drawing whose link is opened by an attempt that ends like
this. -/
def opening (reply : Reply) (drawing : List Command) : Act Session (Standing Outcome) := do
  Session.opened reply
  resume (draw drawing)

/-- What comes after the end of the attempt keeps the count. -/
lemma exists_rest_of_opening {s t : Session} {radio : Radio} {reply : Reply}
    {drawing : List Command} {result : Except Fault (Standing Outcome)} {journal : Journal}
    (hlink : s.link = .radio radio) (hs : Opening s.aborted s.link)
    (hpiece : opening reply drawing s = (result, t, journal)) :
    ∃ rest, journal = (radio.opened reply).2.2 ++ rest ∧
      (Link.radio (radio.opened reply).2.1).Balances rest t.link ∧
      ((∃ alarm next, result = .ok (.waiting alarm next)) → t.link.IsAlone) := by
  have hopened : Session.opened reply s = ((radio.opened reply).1,
      { s with link := .radio (radio.opened reply).2.1 }, (radio.opened reply).2.2) := by
    simp only [Session.opened, Link.opened, hlink]
  have halone (hlow : s.aborted = false) : (Link.radio (radio.opened reply).2.1).IsAlone := by
    have hclosed := hs.2 hlow
    rw [hlink] at hclosed
    exact Radio.isAlone_opened hclosed.2 hclosed.1 reply
  rw [opening] at hpiece
  rcases hresult : radio.opened reply with ⟨fault | _, after, first⟩ <;>
    rw [hresult] at hopened halone
  · rw [Act.bind_error hopened] at hpiece
    simp only [Prod.mk.injEq] at hpiece
    obtain ⟨rfl, rfl, rfl⟩ := hpiece
    refine ⟨[], (List.append_nil _).symm, .refl _ rfl rfl, ?_⟩
    rintro ⟨alarm, next, hwaiting⟩
    cases hwaiting
  · rw [Act.bind_ok hopened] at hpiece
    rcases Bool.eq_false_or_eq_true s.aborted with hup | hlow
    · -- a run that was stopped ends at once
      have hended := resume_draw_of_aborted (s := { s with link := .radio after }) hup drawing
      rw [hended] at hpiece
      simp only [Prod.mk.injEq] at hpiece
      obtain ⟨rfl, rfl, rfl⟩ := hpiece
      refine ⟨_, rfl, .refl _ rfl rfl, ?_⟩
      rintro ⟨alarm, next, hwaiting⟩
      cases hwaiting
    · obtain ⟨hkept, hrest⟩ :=
        accounts_resume (draw drawing) { s with link := .radio after } (halone hlow)
      simp only [Prod.mk.injEq] at hpiece
      obtain ⟨-, rfl, rfl⟩ := hpiece
      exact ⟨_, rfl, hrest, fun _ => hkept⟩

/-- The first piece of a run accounts for the connection that it brings, and for the one that it
takes the place of.  When it ends in a wait, a connection leaves the background task nothing to do:
a run that was stopped before does not come so far. -/
lemma accounts_opening {s t : Session} {reply : Reply} {drawing : List Command}
    {result : Except Fault (Standing Outcome)} {journal : Journal}
    (hs : Opening s.aborted s.link) (hpiece : opening reply drawing s = (result, t, journal)) :
    (reply = .accepted → s.link.connections ≠ 0 → s.link.Replaces journal t.link) ∧
      (reply ≠ .accepted ∨ s.link.connections = 0 → s.link.Balances journal t.link) ∧
      ((∃ alarm next, result = .ok (.waiting alarm next)) → t.link.IsAlone) := by
  obtain ⟨halone, hclosed⟩ := hs
  cases hlink : s.link with
  | rehearsal frames =>
    have hopened : Session.opened reply s = (.ok (), s, []) := by
      simp only [Session.opened, Link.opened, hlink, withLink_self hlink]
    rw [opening, Act.bind_ok hopened] at hpiece
    obtain ⟨hkept, hbalance⟩ := accounts_resume (draw drawing) s halone
    obtain ⟨-, rfl, rfl⟩ := by simpa only [Prod.mk.injEq] using hpiece
    rw [← hlink]
    refine ⟨fun _ hup => absurd ?_ hup, fun _ => hbalance, fun _ => hkept⟩
    rw [hlink]
    rfl
  | radio radio =>
    have hopened : Session.opened reply s = ((radio.opened reply).1,
        { s with link := .radio (radio.opened reply).2.1 }, (radio.opened reply).2.2) := by
      simp only [Session.opened, Link.opened, hlink]
    have hreplaces : reply = .accepted → (Link.radio radio).connections ≠ 0 →
        (Link.radio radio).Replaces (radio.opened reply).2.2
          (.radio (radio.opened reply).2.1) := by
      rintro rfl hup
      exact Radio.replaces_opened (by simpa [Link.connections] using hup)
    have hbalances : reply ≠ .accepted ∨ (Link.radio radio).connections = 0 →
        (Link.radio radio).Balances (radio.opened reply).2.2
          (.radio (radio.opened reply).2.1) :=
      fun h => Radio.balances_opened (h.symm.imp_left (by simp [Link.connections]))
    obtain ⟨rest, rfl, hrest, hwaits⟩ := exists_rest_of_opening hlink ⟨halone, hclosed⟩ hpiece
    exact ⟨fun haccepted hup => (hreplaces haccepted hup).trans hrest,
      fun h => (hbalances h).trans hrest, hwaits⟩

end Session

end PenRover
