import PenRover.Proofs.Motion.Rehearsal

/-!
# The history of a radio link

A link is opened and is given bytes to send, and meanwhile its background task begins and wakes.
The history of a link is the list of these steps in any order: each step has its own radio
conditions and its own time, so connections and transmissions end as they like, and the task wakes
at any moment.

What a step does to the link is said once, by one case analysis for each kind of step
(`opening_cases`, `sending_cases`, `beginning_cases` and `waking_cases`).  The statements about
whole histories are inductions that use these and do not open the link again.
-/

namespace PenRover

/-- The value can be waited for: it is a number, and no integer above the range of doubles. -/
def Value.IsLength (v : Value) : Prop :=
  ∃ time seconds, Clock.checkTime v = .ok time ∧ Clock.seconds time = .ok seconds

namespace Journal

/-- The transmissions of a journal, with the bytes and the end of each. -/
def transmissions (journal : Journal) : List (Bytes × Reply) :=
  journal.filterMap fun
    | .event (.transmit bytes reply) => some (bytes, reply)
    | _ => none

/-- How many connections are attempted. -/
def attempts (journal : Journal) : Nat :=
  journal.countP fun
    | .event (.connect ..) => true
    | _ => false

/-- How many waits begin. -/
def waits (journal : Journal) : Nat :=
  journal.countP fun
    | .event (.wait _) => true
    | _ => false

/-- The transmissions of two journals come one after another. -/
@[simp] lemma transmissions_append (first second : Journal) :
    transmissions (first ++ second) = transmissions first ++ transmissions second := by
  simp [transmissions]

/-- The attempts of two journals add up. -/
@[simp] lemma attempts_append (first second : Journal) :
    attempts (first ++ second) = attempts first + attempts second := by
  simp [attempts]

/-- The waits of two journals add up. -/
@[simp] lemma waits_append (first second : Journal) :
    waits (first ++ second) = waits first + waits second := by
  simp [waits]

end Journal

namespace Radio

/-! ### Steps -/

/-- What happens to a link. -/
inductive Deed where
  /-- It is opened. -/
  | opening
  /-- It is given bytes to send. -/
  | sending (bytes : Bytes)
  /-- Its background task begins, if it was called. -/
  | beginning
  /-- Its background task wakes, if it waits. -/
  | waking
  deriving DecidableEq

/-- A deed, the radio conditions and the time. -/
structure Occasion where
  deed : Deed
  air : Air
  clock : Clock

/-- One step in the history of a link. -/
structure Step where
  deed : Deed
  before : Radio
  result : Except Fault Unit
  after : Radio
  journal : Journal

/-- The step that a link takes on an occasion. -/
def step (radio : Radio) (occasion : Occasion) : Step :=
  match occasion.deed with
  | .opening =>
    let (result, after, _, journal) := radio.open occasion.air
    ⟨.opening, radio, result, after, journal⟩
  | .sending bytes =>
    let (result, after, _, journal) := radio.send occasion.air bytes
    ⟨.sending bytes, radio, result, after, journal⟩
  | .beginning =>
    let (after, _, journal) := radio.settle occasion.clock
    ⟨.beginning, radio, .ok (), after, journal⟩
  | .waking =>
    match radio.alarm? with
    | none => ⟨.waking, radio, .ok (), radio, []⟩
    | some alarm =>
      let (after, _, _, journal) := radio.wake occasion.air (occasion.clock.ring alarm)
      ⟨.waking, radio, .ok (), after, journal⟩

/-- A step does what the occasion asks for. -/
lemma deed_step (radio : Radio) (occasion : Occasion) :
    (radio.step occasion).deed = occasion.deed := by
  unfold step
  cases occasion.deed with
  | opening => rfl
  | sending bytes => rfl
  | beginning => rfl
  | waking =>
    dsimp only
    split <;> rfl

/-- A step starts from the link as it was. -/
lemma before_step (radio : Radio) (occasion : Occasion) :
    (radio.step occasion).before = radio := by
  unfold step
  cases occasion.deed with
  | opening => rfl
  | sending bytes => rfl
  | beginning => rfl
  | waking =>
    dsimp only
    split <;> rfl

/-- The steps of a link on these occasions, one after another. -/
def history (radio : Radio) : List Occasion → List Step
  | [] => []
  | occasion :: rest => radio.step occasion :: (radio.step occasion).after.history rest

/-- The link after these occasions. -/
def afterAll (radio : Radio) : List Occasion → Radio
  | [] => radio
  | occasion :: rest => (radio.step occasion).after.afterAll rest

/-- A property of links that every step keeps holds before and after all steps of a history.  The
steps need only be those of some kinds of occasions. -/
lemma history_induction {inv : Radio → Prop} {allowed : Occasion → Prop}
    (hstep : ∀ radio occasion, inv radio → allowed occasion → inv (radio.step occasion).after)
    {radio : Radio} {occasions : List Occasion} (hradio : inv radio)
    (hallowed : ∀ occasion ∈ occasions, allowed occasion) :
    ∀ step ∈ radio.history occasions, ∃ start occasion,
      inv start ∧ occasion ∈ occasions ∧ step = start.step occasion := by
  induction occasions generalizing radio with
  | nil => simp [history]
  | cons occasion rest ih =>
    intro step hmem
    have hallowed' := hallowed occasion List.mem_cons_self
    rcases List.mem_cons.mp hmem with rfl | hmem
    · exact ⟨radio, occasion, hradio, List.mem_cons_self, rfl⟩
    · obtain ⟨start, other, hstart, hother, rfl⟩ :=
        ih (hstep radio occasion hradio hallowed')
          (fun other hother => hallowed other (List.mem_cons_of_mem _ hother)) step hmem
      exact ⟨start, other, hstart, List.mem_cons_of_mem _ hother, rfl⟩

/-! ### Calls for the background task -/

/-- A link with no background task gets one. -/
lemma call_of_idle {radio : Radio} (h : radio.retry = .idle) :
    radio.call = { radio with retry := .called } := by
  simp only [call, h]

/-- An unfinished task is left alone. -/
lemma call_of_ne_idle {radio : Radio} (h : radio.retry ≠ .idle) : radio.call = radio := by
  unfold call
  split
  next hidle => exact absurd hidle h
  next => rfl

/-- Calling for the background task does not connect the link. -/
@[simp] lemma connected_call (radio : Radio) : radio.call.connected = radio.connected := by
  unfold call
  split <;> rfl

/-- Calling for the background task keeps the delay of the link. -/
@[simp] lemma delay_call (radio : Radio) : radio.call.delay = radio.delay := by
  unfold call
  split <;> rfl

/-- After a call there is an unfinished task. -/
lemma retry_call_ne_idle (radio : Radio) : radio.call.retry ≠ .idle := by
  by_cases h : radio.retry = .idle
  · rw [call_of_idle h]
    exact nofun
  · rwa [call_of_ne_idle h]

/-! ### What one step does -/

section Cases

variable (radio : Radio) (air : Air) (clock : Clock)

/-- The attempt to open a link ends in a connection, or in a failure that is not provided for, or it
leaves the rest to the background task. -/
lemma opened_cases (reply : Reply) :
    (reply = .accepted ∧ radio.opened reply = (.ok (), { radio with connected := true },
      [.event (.connect radio.url .accepted), .note (.connected radio.url)])) ∨
    (reply = .unexpected ∧ radio.opened reply =
      (.error .unexpected, radio, [.event (.connect radio.url .unexpected)])) ∨
    ∃ fault, reply.fault? = some fault ∧ fault ≠ .unexpected ∧
      radio.opened reply = (.ok (), radio.call,
        [.event (.connect radio.url reply), .note (.notConnected radio.url fault)]) := by
  cases reply <;> simp [opened, Reply.fault?]

/-- An opening connects, or fails in a way that is not provided for, or leaves the rest to the
background task. -/
lemma opening_cases :
    (air.nextConnect.1 = .accepted ∧
      radio.open air = (.ok (), { radio with connected := true }, air.nextConnect.2,
        [.event (.connect radio.url .accepted), .note (.connected radio.url)])) ∨
    (air.nextConnect.1 = .unexpected ∧
      radio.open air = (.error .unexpected, radio, air.nextConnect.2,
        [.event (.connect radio.url .unexpected)])) ∨
    ∃ fault, air.nextConnect.1.fault? = some fault ∧ fault ≠ .unexpected ∧
      radio.open air = (.ok (), radio.call, air.nextConnect.2,
        [.event (.connect radio.url air.nextConnect.1),
          .note (.notConnected radio.url fault)]) := by
  simp only [Radio.open]
  obtain ⟨hreply, hopened⟩ | ⟨hreply, hopened⟩ | ⟨fault, hfault, hprovided, hopened⟩ :=
    opened_cases radio air.nextConnect.1 <;> rw [hopened]
  · exact .inl ⟨hreply, rfl⟩
  · exact .inr (.inl ⟨hreply, rfl⟩)
  · exact .inr (.inr ⟨fault, hfault, hprovided, rfl⟩)

/-- Bytes are dropped for lack of a connection, or delivered, or dropped because the connection
turned out closed, or their transmission fails in a way that is not provided for. -/
lemma sending_cases (bytes : Bytes) :
    (radio.connected = false ∧
      radio.send air bytes =
        (.ok (), radio.call, air, [.note (.droppedOffline radio.url bytes)])) ∨
    (radio.connected = true ∧ air.nextTransmission.1 = .accepted ∧
      radio.send air bytes = (.ok (), radio, air.nextTransmission.2,
        [.event (.transmit bytes .accepted)])) ∨
    (radio.connected = true ∧ air.nextTransmission.1 = .closed ∧
      radio.send air bytes = (.ok (), { radio with connected := false }.call,
        air.nextTransmission.2, [.event (.transmit bytes .closed),
          .note (.droppedClosed radio.url .connectionClosed bytes)])) ∨
    ∃ fault, radio.connected = true ∧ air.nextTransmission.1.fault? = some fault ∧
      fault ≠ .connectionClosed ∧
      radio.send air bytes = (.error fault, radio, air.nextTransmission.2,
        [.event (.transmit bytes air.nextTransmission.1)]) := by
  unfold Radio.send
  cases radio.connected with
  | false => exact .inl ⟨rfl, rfl⟩
  | true =>
    right
    rcases air.nextTransmission with ⟨reply, air⟩
    cases reply <;> simp [Reply.fault?]

/-- With a connection the background task ends. -/
lemma rest_of_connected (h : radio.connected = true) :
    radio.rest clock = ({ radio with retry := .idle }, clock, []) := by
  rw [rest, if_pos h]

/-- Without a connection it falls asleep, when its delay can be waited for. -/
lemma rest_of_isLength (h : radio.connected = false) (hdelay : radio.delay.IsLength) :
    ∃ alarm later, radio.rest clock =
      ({ radio with retry := .asleep alarm }, later, [.event (.wait radio.delay)]) := by
  obtain ⟨time, seconds, hcheck, hdouble⟩ := hdelay
  refine ⟨⟨clock.begin.now + seconds, clock.begin.alarms⟩, (clock.begin.set time).2, ?_⟩
  simp [rest, h, hcheck, Clock.set, hdouble, Except.map]

/-- A delay that cannot be waited for ends the background task: no wait begins, or the wait that has
begun is found too long. -/
lemma rest_of_not_isLength (h : radio.connected = false) (hdelay : ¬ radio.delay.IsLength) :
    ∃ later journal, radio.rest clock = ({ radio with retry := .idle }, later, journal) ∧
      (journal = [] ∨ journal = [.event (.wait radio.delay)]) := by
  cases hcheck : Clock.checkTime radio.delay with
  | error fault =>
    refine ⟨clock, [], ?_, .inl rfl⟩
    simp [rest, h, hcheck]
  | ok time =>
    cases hdouble : Clock.seconds time with
    | ok seconds => exact absurd ⟨time, seconds, hcheck, hdouble⟩ hdelay
    | error fault =>
      refine ⟨(clock.begin.set time).2, [.event (.wait radio.delay)], ?_, .inr rfl⟩
      simp [rest, h, hcheck, Clock.set, hdouble, Except.map]

/-- The background task that begins its wait ends, or falls asleep; nothing else changes. -/
lemma rest_cases :
    ((radio.rest clock).1 = { radio with retry := .idle } ∧
      ((radio.rest clock).2.2 = [] ∨ (radio.rest clock).2.2 = [.event (.wait radio.delay)])) ∨
    ∃ alarm, radio.connected = false ∧ radio.delay.IsLength ∧
      (radio.rest clock).1 = { radio with retry := .asleep alarm } ∧
      (radio.rest clock).2.2 = [.event (.wait radio.delay)] := by
  rcases Bool.eq_false_or_eq_true radio.connected with h | h
  · left
    rw [rest_of_connected radio clock h]
    exact ⟨rfl, .inl rfl⟩
  · by_cases hdelay : radio.delay.IsLength
    · right
      obtain ⟨alarm, later, hrest⟩ := rest_of_isLength radio clock h hdelay
      exact ⟨alarm, h, hdelay, by rw [hrest], by rw [hrest]⟩
    · left
      obtain ⟨later, journal, hrest, hjournal⟩ := rest_of_not_isLength radio clock h hdelay
      rw [hrest]
      exact ⟨rfl, hjournal⟩

/-- The background task keeps the address of the link when it goes to rest. -/
@[simp] lemma url_rest : (radio.rest clock).1.url = radio.url := by
  obtain ⟨h, -⟩ | ⟨alarm, -, -, h, -⟩ := rest_cases radio clock <;> rw [h]

/-- How the background task begins its wait does not depend on what it did before. -/
lemma rest_withRetry (retry : Retry) :
    Radio.rest { radio with retry } clock = radio.rest clock := by
  simp only [rest]

/-- A background task that was called begins. -/
lemma settle_of_called (h : radio.retry = .called) : radio.settle clock = radio.rest clock := by
  simp only [settle, h]

/-- Any other is left alone. -/
lemma settle_of_ne_called (h : radio.retry ≠ .called) :
    radio.settle clock = (radio, clock, []) := by
  unfold settle
  split
  next hcalled => exact absurd hcalled h
  next => rfl

/-- The attempt of the background task ends in a connection, or in a failure that is not provided
for, or the task begins its wait anew. -/
lemma redialed_cases {reply : Reply} (h : radio.retry = .dialing reply) :
    (reply = .accepted ∧ radio.redialed clock =
      ({ radio with connected := true, retry := .idle }, clock,
        [.event (.connect radio.url .accepted), .note (.connected radio.url)])) ∨
    (reply = .unexpected ∧ radio.redialed clock =
      ({ radio with retry := .idle }, clock, [.event (.connect radio.url .unexpected)])) ∨
    ∃ fault, reply.fault? = some fault ∧ fault ≠ .unexpected ∧
      radio.redialed clock = ((radio.rest clock).1, (radio.rest clock).2.1,
        [.event (.connect radio.url reply), .note (.notConnected radio.url fault)] ++
          (radio.rest clock).2.2) := by
  cases reply <;> simp [redialed, h, Reply.fault?]

/-- A background task that wakes connects, or dies of a failure that is not provided for, or begins
its wait anew. -/
lemma waking_cases :
    (air.nextConnect.1 = .accepted ∧
      radio.wake air clock = ({ radio with connected := true, retry := .idle }, air.nextConnect.2,
        clock, [.event (.connect radio.url .accepted), .note (.connected radio.url)])) ∨
    (air.nextConnect.1 = .unexpected ∧
      radio.wake air clock = ({ radio with retry := .idle }, air.nextConnect.2, clock,
        [.event (.connect radio.url .unexpected)])) ∨
    ∃ fault, air.nextConnect.1.fault? = some fault ∧ fault ≠ .unexpected ∧
      radio.wake air clock = ((radio.rest clock).1, air.nextConnect.2, (radio.rest clock).2.1,
        [.event (.connect radio.url air.nextConnect.1), .note (.notConnected radio.url fault)] ++
          (radio.rest clock).2.2) := by
  simp only [Radio.wake, redial]
  obtain ⟨hreply, hredialed⟩ | ⟨hreply, hredialed⟩ | ⟨fault, hfault, hprovided, hredialed⟩ :=
    redialed_cases { radio with retry := .dialing air.nextConnect.1 } clock rfl <;> rw [hredialed]
  · exact .inl ⟨hreply, rfl⟩
  · exact .inr (.inl ⟨hreply, rfl⟩)
  · rw [rest_withRetry]
    exact .inr (.inr ⟨fault, hfault, hprovided, rfl⟩)

/-! ### What one step writes -/

/-- An opening is one attempt, and neither transmits nor waits. -/
lemma journal_open :
    Journal.attempts (radio.open air).2.2.2 = 1 ∧
      Journal.transmissions (radio.open air).2.2.2 = [] ∧
      Journal.waits (radio.open air).2.2.2 = 0 := by
  obtain ⟨-, h⟩ | ⟨-, h⟩ | ⟨fault, -, -, h⟩ := opening_cases radio air <;> rw [h] <;>
    exact ⟨rfl, rfl, rfl⟩

/-- Bytes are sent without an attempt and without a wait. -/
lemma journal_send (bytes : Bytes) :
    Journal.attempts (radio.send air bytes).2.2.2 = 0 ∧
      Journal.waits (radio.send air bytes).2.2.2 = 0 := by
  obtain ⟨-, h⟩ | ⟨-, -, h⟩ | ⟨-, -, h⟩ | ⟨fault, -, -, -, h⟩ := sending_cases radio air bytes <;>
    rw [h] <;> exact ⟨rfl, rfl⟩

/-- The background task that begins its wait uses neither the radio nor a connection. -/
lemma journal_rest :
    Journal.attempts (radio.rest clock).2.2 = 0 ∧
      Journal.transmissions (radio.rest clock).2.2 = [] := by
  obtain ⟨-, h | h⟩ | ⟨alarm, -, -, -, h⟩ := rest_cases radio clock <;> rw [h] <;>
    exact ⟨rfl, rfl⟩

/-- A background task that has its turn begins no attempt and transmits nothing. -/
lemma journal_settle :
    Journal.attempts (radio.settle clock).2.2 = 0 ∧
      Journal.transmissions (radio.settle clock).2.2 = [] := by
  unfold settle
  split
  · exact journal_rest radio clock
  · exact ⟨rfl, rfl⟩

/-- A background task that wakes makes one attempt and transmits nothing. -/
lemma journal_wake :
    Journal.attempts (radio.wake air clock).2.2.2 = 1 ∧
      Journal.transmissions (radio.wake air clock).2.2.2 = [] := by
  obtain ⟨-, h⟩ | ⟨-, h⟩ | ⟨fault, -, -, h⟩ := waking_cases radio air clock
  · rw [h]
    exact ⟨rfl, rfl⟩
  · rw [h]
    exact ⟨rfl, rfl⟩
  · obtain ⟨hattempts, htransmissions⟩ := journal_rest radio clock
    rw [h, Journal.attempts_append, Journal.transmissions_append, hattempts, htransmissions]
    exact ⟨rfl, rfl⟩

end Cases

end Radio

end PenRover
