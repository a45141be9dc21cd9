import Mathlib.Algebra.Ring.Int.Defs
import PenRover.Proofs.Link.History

/-!
# Connections and the background task

A link that was opened has a connection, or a background task that is to make one, and never both.
The invariant is `Watch`: it says that a connection leaves the task nothing to do, and that a task
that sleeps has a delay that can be waited for.  It holds from the first opening on, whatever
follows short of a second opening, which would call the robot over a connection that may be there.

A delay that cannot be waited for ends the task at its first wait.  The link is then left without
a connection and without a task, until the next bytes are sent.
-/

namespace PenRover

namespace Radio

/-- There is a connection or an unfinished background task, and not both. -/
def Attended (radio : Radio) : Prop :=
  (radio.connected = true ∧ radio.retry = .idle) ∨ (radio.connected = false ∧ radio.retry ≠ .idle)

/-- The background task waits. -/
def asleep (radio : Radio) : Bool := radio.alarm?.isSome

/-- The background task begins a wait in this step, and does not die of it. -/
def Step.fallsAsleep (step : Step) : Bool := step.journal.waits ≠ 0 ∧ step.after.asleep = true

/-- A wait of the background task is over in this step. -/
def Step.wakes (step : Step) : Bool := step.deed = .waking ∧ step.before.asleep = true

/-- What always holds of a link with this delay once it was opened. -/
structure Watch (delay : Value) (radio : Radio) : Prop where
  delay_eq : radio.delay = delay
  /-- With a connection there is no unfinished task. -/
  alone : radio.connected = true → radio.retry = .idle
  /-- A task that has begun could wait for the delay. -/
  isLength : radio.retry ≠ .idle → radio.retry ≠ .called → delay.IsLength

/-- What every step does from the first opening on. -/
structure Step.Kept (delay : Value) (step : Step) : Prop where
  /-- The robot is called only while there is no connection. -/
  attempts_le : step.journal.attempts ≤ if step.before.connected then 0 else 1
  watch : Watch delay step.after
  /-- An opening or a transmission that returns leaves a connection or a task behind. -/
  attended : (step.deed = .opening ∨ ∃ bytes, step.deed = .sending bytes) →
    step.result = .ok () → step.after.Attended

variable {delay : Value} {radio : Radio}

/-! ### The invariant -/

/-- Where there is no background task, none sleeps. -/
lemma asleep_eq_false_of_idle (h : radio.retry = .idle) : radio.asleep = false := by
  simp [asleep, alarm?, h]

/-- A background task that is called for does not sleep yet. -/
lemma asleep_call (radio : Radio) : radio.call.asleep = radio.asleep := by
  by_cases h : radio.retry = .idle
  · rw [call_of_idle h, asleep_eq_false_of_idle h]
    rfl
  · rw [call_of_ne_idle h]

/-- A link that was not opened yet may be watched. -/
lemma watch_new (url delay : Value) : Watch delay (Radio.new url delay) :=
  ⟨rfl, nofun, fun hbusy => absurd rfl hbusy⟩

namespace Watch

/-- A background task may be done. -/
lemma idle (h : Watch delay radio) : Watch delay { radio with retry := .idle } :=
  ⟨h.delay_eq, fun _ => rfl, fun hbusy => absurd rfl hbusy⟩

/-- A link with no connection may call for its background task. -/
lemma call (h : Watch delay radio) (hdown : radio.connected = false) :
    Watch delay radio.call where
  delay_eq := by rw [delay_call, h.delay_eq]
  alone hup := by
    rw [connected_call, hdown] at hup
    nomatch hup
  isLength hbusy hbegun := by
    by_cases hidle : radio.retry = .idle
    · rw [call_of_idle hidle] at hbegun
      exact absurd rfl hbegun
    · rw [call_of_ne_idle hidle] at hbusy hbegun
      exact h.isLength hbusy hbegun

/-- A connection may be lost. -/
lemma disconnect (h : Watch delay radio) : Watch delay { radio with connected := false } :=
  ⟨h.delay_eq, nofun, h.isLength⟩

/-- A background task may go to rest. -/
lemma rest (h : Watch delay radio) (clock : Clock) : Watch delay (radio.rest clock).1 := by
  obtain ⟨hrest, -⟩ | ⟨alarm, hdown, hlength, hrest, -⟩ := rest_cases radio clock
  · rw [hrest]
    exact h.idle
  · rw [hrest]
    refine ⟨h.delay_eq, fun hup => ?_, fun _ _ => ?_⟩
    · rw [hdown] at hup
      nomatch hup
    · rwa [h.delay_eq] at hlength

/-- A background task may have its turn. -/
lemma settle (h : Watch delay radio) (clock : Clock) : Watch delay (radio.settle clock).1 := by
  unfold Radio.settle
  split
  · exact h.rest clock
  · exact h

/-- A background task may wake. -/
lemma wake (h : Watch delay radio) (air : Air) (clock : Clock) :
    Watch delay (radio.wake air clock).1 := by
  obtain ⟨-, hwake⟩ | ⟨-, hwake⟩ | ⟨fault, -, -, hwake⟩ := waking_cases radio air clock <;>
    rw [hwake]
  · exact ⟨h.delay_eq, fun _ => rfl, fun hbusy => absurd rfl hbusy⟩
  · exact h.idle
  · exact h.rest clock

/-- Bytes may be sent. -/
lemma send (h : Watch delay radio) (air : Air) (bytes : Bytes) :
    Watch delay (radio.send air bytes).2.1 := by
  obtain ⟨hdown, hsend⟩ | ⟨-, -, hsend⟩ | ⟨-, -, hsend⟩ | ⟨fault, -, -, -, hsend⟩ :=
    sending_cases radio air bytes <;> rw [hsend]
  · exact h.call hdown
  · exact h
  · exact h.disconnect.call rfl
  · exact h

/-- The first opening finds neither a connection nor a task. -/
lemma «open» (h : Watch delay radio) (hdown : radio.connected = false)
    (hidle : radio.retry = .idle) (air : Air) : Watch delay (radio.open air).2.1 := by
  obtain ⟨-, hopen⟩ | ⟨-, hopen⟩ | ⟨fault, -, -, hopen⟩ := opening_cases radio air <;> rw [hopen]
  · exact ⟨h.delay_eq, fun _ => hidle, h.isLength⟩
  · exact h
  · exact h.call hdown

/-- After the first opening every step keeps the invariant. -/
lemma step (h : Watch delay radio) {occasion : Occasion} (hdeed : occasion.deed ≠ .opening) :
    Watch delay (radio.step occasion).after := by
  obtain ⟨deed, air, clock⟩ := occasion
  cases deed with
  | opening => exact absurd rfl hdeed
  | sending bytes => exact h.send air bytes
  | beginning => exact h.settle clock
  | waking =>
    cases halarm : radio.alarm? with
    | none => simpa only [Radio.step, halarm] using h
    | some alarm => simpa only [Radio.step, halarm] using h.wake air (clock.ring alarm)

end Watch

/-! ### Connection attempts -/

/-- A task that wakes finds no connection, so it calls the robot only while there is none. -/
lemma Watch.attempts_step (h : Watch delay radio) {occasion : Occasion}
    (hdeed : occasion.deed ≠ .opening) :
    (radio.step occasion).journal.attempts ≤ if radio.connected then 0 else 1 := by
  obtain ⟨deed, air, clock⟩ := occasion
  cases deed with
  | opening => exact absurd rfl hdeed
  | sending bytes =>
    have hnone := (journal_send radio air bytes).1
    exact Nat.le_trans (Nat.le_of_eq hnone) (Nat.zero_le _)
  | beginning =>
    have hnone := (journal_settle radio clock).1
    exact Nat.le_trans (Nat.le_of_eq hnone) (Nat.zero_le _)
  | waking =>
    cases halarm : radio.alarm? with
    | none =>
      simp only [Radio.step, halarm]
      exact Nat.zero_le _
    | some alarm =>
      -- a connection would have ended the task before it could wake
      have hdown : radio.connected = false := by
        rw [Bool.eq_false_iff]
        intro hup
        rw [alarm?, h.alone hup] at halarm
        nomatch halarm
      simp only [Radio.step, halarm, hdown]
      exact Nat.le_of_eq (journal_wake radio air _).1

/-! ### Waits -/

/-- An opening neither puts a background task to sleep nor wakes it. -/
lemma asleep_open (radio : Radio) (air : Air) : (radio.open air).2.1.asleep = radio.asleep := by
  obtain ⟨-, h⟩ | ⟨-, h⟩ | ⟨fault, -, -, h⟩ := opening_cases radio air <;> rw [h]
  · rfl
  · exact asleep_call radio

/-- Sending bytes neither puts a background task to sleep nor wakes it. -/
lemma asleep_send (radio : Radio) (air : Air) (bytes : Bytes) :
    (radio.send air bytes).2.1.asleep = radio.asleep := by
  obtain ⟨-, h⟩ | ⟨-, -, h⟩ | ⟨-, -, h⟩ | ⟨fault, -, -, -, h⟩ := sending_cases radio air bytes <;>
    rw [h]
  · exact asleep_call radio
  · exact asleep_call { radio with connected := false }

/-- The task that begins its wait sleeps afterwards exactly when it does not die of the wait. -/
lemma fallsAsleep_rest (radio : Radio) (clock : Clock) :
    (Journal.waits (radio.rest clock).2.2 ≠ 0 ∧ (radio.rest clock).1.asleep = true) ↔
      (radio.rest clock).1.asleep = true := by
  obtain ⟨hrest, -⟩ | ⟨alarm, -, -, -, hjournal⟩ := rest_cases radio clock
  · rw [hrest]
    simp [asleep, alarm?]
  · rw [hjournal]
    simp [Journal.waits]

/-- The same holds of a task that wakes and may begin another wait. -/
lemma fallsAsleep_wake (radio : Radio) (air : Air) (clock : Clock) :
    (Journal.waits (radio.wake air clock).2.2.2 ≠ 0 ∧ (radio.wake air clock).1.asleep = true) ↔
      (radio.wake air clock).1.asleep = true := by
  obtain ⟨-, h⟩ | ⟨-, h⟩ | ⟨fault, -, -, h⟩ := waking_cases radio air clock
  · rw [h]
    simp [asleep, alarm?]
  · rw [h]
    simp [asleep, alarm?]
  · rw [h]
    constructor
    · exact fun hboth => hboth.2
    · intro hasleep
      have hwaits := ((fallsAsleep_rest radio clock).mpr hasleep).1
      refine ⟨?_, hasleep⟩
      rw [Journal.waits_append]
      exact Nat.pos_iff_ne_zero.mp (Nat.lt_add_left _ (Nat.pos_of_ne_zero hwaits))

/-- In one step the task falls asleep when it was awake, and wakes when it was asleep. -/
lemma fallsAsleep_step (radio : Radio) (occasion : Occasion) :
    (radio.step occasion).fallsAsleep.toNat + radio.asleep.toNat =
      (radio.step occasion).wakes.toNat + (radio.step occasion).after.asleep.toNat := by
  obtain ⟨deed, air, clock⟩ := occasion
  cases deed with
  | opening => simp [step, Step.fallsAsleep, Step.wakes, journal_open, asleep_open]
  | sending bytes => simp [step, Step.fallsAsleep, Step.wakes, journal_send, asleep_send]
  | beginning =>
    by_cases hretry : radio.retry = .called
    · have hawake : radio.asleep = false := by simp [asleep, alarm?, hretry]
      simp only [step, Step.fallsAsleep, settle_of_called radio clock hretry, fallsAsleep_rest]
      simp [Step.wakes, hawake]
    · simp [step, Step.fallsAsleep, Step.wakes, settle_of_ne_called radio clock hretry,
        Journal.waits]
  | waking =>
    cases halarm : radio.alarm? with
    | none =>
      have hawake : radio.asleep = false := by rw [asleep, halarm]; rfl
      simp [step, halarm, Step.fallsAsleep, Step.wakes, hawake]
    | some alarm =>
      have hasleep : radio.asleep = true := by rw [asleep, halarm]; rfl
      simp only [step, halarm, Step.fallsAsleep, Step.wakes, hasleep, fallsAsleep_wake]
      simp [Nat.add_comm]

/-- Over a history the task falls asleep as often as it wakes, up to the last wait. -/
lemma countP_fallsAsleep_history (radio : Radio) (occasions : List Occasion) :
    (radio.history occasions).countP Step.fallsAsleep + radio.asleep.toNat =
      (radio.history occasions).countP Step.wakes + (radio.afterAll occasions).asleep.toNat := by
  have hcons (p : Step → Bool) (step : Step) (rest : List Step) :
      (step :: rest).countP p = rest.countP p + (p step).toNat := by
    rw [List.countP_cons]
    cases p step <;> rfl
  induction occasions generalizing radio with
  | nil => rfl
  | cons occasion rest ih =>
    have hstep := fallsAsleep_step radio occasion
    have hrest := ih (radio.step occasion).after
    rw [history, afterAll, hcons, hcons]
    omega

/-! ### Openings and transmissions -/

/-- A link with no connection is attended once the background task is called for. -/
lemma attended_call (hdown : radio.connected = false) : radio.call.Attended :=
  .inr ⟨by rw [connected_call, hdown], retry_call_ne_idle radio⟩

/-- The first opening that returns leaves a connection or a task behind. -/
lemma attended_open (hidle : radio.retry = .idle) (hdown : radio.connected = false) {air : Air}
    (hok : (radio.open air).1 = .ok ()) : (radio.open air).2.1.Attended := by
  obtain ⟨-, hopen⟩ | ⟨-, hopen⟩ | ⟨fault, -, -, hopen⟩ := opening_cases radio air <;>
    rw [hopen] at hok ⊢
  · exact .inl ⟨rfl, hidle⟩
  · nomatch hok
  · exact attended_call hdown

/-- So does a transmission that returns. -/
lemma Watch.attended_send (h : Watch delay radio) {air : Air} {bytes : Bytes}
    (hok : (radio.send air bytes).1 = .ok ()) : (radio.send air bytes).2.1.Attended := by
  obtain ⟨hdown, hsend⟩ | ⟨hup, -, hsend⟩ | ⟨-, -, hsend⟩ | ⟨fault, -, -, -, hsend⟩ :=
    sending_cases radio air bytes <;> rw [hsend] at hok ⊢
  · exact attended_call hdown
  · exact .inl ⟨hup, h.alone hup⟩
  · exact attended_call rfl
  · nomatch hok

/-- The task goes on to be there once it began, when its delay can be waited for, and only then. -/
lemma Watch.attended_settle_iff (h : Watch delay radio) (hatt : radio.Attended) (clock : Clock) :
    (radio.settle clock).1.Attended ↔ radio.connected = true ∨ delay.IsLength := by
  obtain ⟨hup, hidle⟩ | ⟨hdown, hbusy⟩ := hatt
  · rw [settle_of_ne_called radio clock (by rw [hidle]; nofun)]
    exact iff_of_true (.inl ⟨hup, hidle⟩) (.inl hup)
  · cases hretry : radio.retry with
    | idle => exact absurd hretry hbusy
    | asleep alarm =>
      rw [settle_of_ne_called radio clock (by rw [hretry]; nofun)]
      exact iff_of_true (.inr ⟨hdown, hbusy⟩) (.inr (h.isLength hbusy (by rw [hretry]; nofun)))
    | dialing reply =>
      rw [settle_of_ne_called radio clock (by rw [hretry]; nofun)]
      exact iff_of_true (.inr ⟨hdown, hbusy⟩) (.inr (h.isLength hbusy (by rw [hretry]; nofun)))
    | called =>
      rw [settle_of_called radio clock hretry, hdown, ← h.delay_eq]
      by_cases hlength : radio.delay.IsLength
      · obtain ⟨alarm, later, hrest⟩ := rest_of_isLength radio clock hdown hlength
        rw [hrest]
        exact iff_of_true (.inr ⟨hdown, nofun⟩) (.inr hlength)
      · -- the task dies here, and nobody is left to connect
        obtain ⟨later, journal, hrest, -⟩ := rest_of_not_isLength radio clock hdown hlength
        rw [hrest]
        simp [Attended, hdown, hlength]

/-! ### Histories from the first opening on -/

/-- The first opening is a step like those that follow it. -/
lemma kept_opening (url delay : Value) (air : Air) (clock : Clock) :
    ((Radio.new url delay).step ⟨.opening, air, clock⟩).Kept delay where
  attempts_le := Nat.le_of_eq (journal_open (Radio.new url delay) air).1
  watch := (watch_new url delay).open rfl rfl air
  attended _ hok := attended_open rfl rfl hok

/-- Whatever happens to a watched link, other than an opening, is done as it should be. -/
lemma Watch.kept_step (h : Watch delay radio) {occasion : Occasion}
    (hdeed : occasion.deed ≠ .opening) : (radio.step occasion).Kept delay where
  attempts_le := by
    rw [before_step]
    exact h.attempts_step hdeed
  watch := h.step hdeed
  attended hasked hok := by
    obtain ⟨deed, air, clock⟩ := occasion
    rw [deed_step] at hasked
    obtain rfl | ⟨bytes, rfl⟩ := hasked
    · exact absurd rfl hdeed
    · exact h.attended_send hok

/-- From the first opening on, every step is done as it should be. -/
lemma kept_of_mem_history {url : Value} {air : Air} {clock : Clock} {later : List Occasion}
    (hlater : ∀ occasion ∈ later, occasion.deed ≠ .opening) :
    ∀ step ∈ (Radio.new url delay).history (⟨.opening, air, clock⟩ :: later),
      step.Kept delay := by
  intro step hstep
  have hfirst := kept_opening url delay air clock
  rcases List.mem_cons.mp hstep with rfl | hstep
  · exact hfirst
  · obtain ⟨start, occasion, hstart, hmem, rfl⟩ :=
      history_induction (fun _ _ h hdeed => h.step hdeed) hfirst.watch hlater step hstep
    exact hstart.kept_step (hlater occasion hmem)

end Radio

open Radio in
/-- Of every history of a link that begins with its only opening.  The robot is called only while
there is no connection.  The waits of the background task do not overlap: all of them are over, but
for the last one while the task sleeps.  A connection and an unfinished task are never there
together.  And an opening or a transmission that returns leaves one of them behind; the task goes on
to be there once it began, when its delay can be waited for, and only then. -/
theorem Radio.watch_of_history (url delay : Value) (air : Air) (clock : Clock)
    (later : List Occasion) (hlater : ∀ occasion ∈ later, occasion.deed ≠ .opening) :
    let occasions : List Occasion := ⟨.opening, air, clock⟩ :: later
    let steps := (Radio.new url delay).history occasions
    (∀ step ∈ steps, step.journal.attempts ≤ if step.before.connected then 0 else 1) ∧
    steps.countP Step.fallsAsleep =
      steps.countP Step.wakes + ((Radio.new url delay).afterAll occasions).asleep.toNat ∧
    (∀ step ∈ steps, step.after.connected = true → step.after.retry = .idle) ∧
    ∀ step ∈ steps, (step.deed = .opening ∨ ∃ bytes, step.deed = .sending bytes) →
      step.result = .ok () → step.after.Attended ∧
        ∀ clock, (step.after.settle clock).1.Attended ↔
          step.after.connected = true ∨ delay.IsLength := by
  intro occasions steps
  have hkept : ∀ step ∈ steps, step.Kept delay := kept_of_mem_history hlater
  refine ⟨fun step hstep => (hkept step hstep).attempts_le, ?_,
    fun step hstep => (hkept step hstep).watch.alone, ?_⟩
  · exact countP_fallsAsleep_history (Radio.new url delay) occasions
  · intro step hstep hasked hok
    have hatt := (hkept step hstep).attended hasked hok
    exact ⟨hatt, (hkept step hstep).watch.attended_settle_iff hatt⟩

open Radio in
/-- A connection is lost while bytes are being sent, and made again by the background task. -/
theorem Radio.watch_of_history_lost :
    let later : List Occasion := [⟨.sending [0, 0, 0], ⟨[], [.closed]⟩, .start⟩,
      ⟨.beginning, ⟨[], []⟩, .start⟩, ⟨.waking, ⟨[.accepted], []⟩, .start⟩]
    let occasions : List Occasion := ⟨.opening, ⟨[.accepted], []⟩, .start⟩ :: later
    let steps := (Radio.new (.text "ws://robot") (.int 1)).history occasions
    (∀ occasion ∈ later, occasion.deed ≠ .opening) ∧
      steps.map (fun step => step.after.connected) = [true, false, false, true] ∧
      (∀ step ∈ steps, step.journal.attempts ≤ if step.before.connected then 0 else 1) ∧
      steps.countP Step.fallsAsleep = steps.countP Step.wakes := by
  intro later occasions steps
  have hlater : ∀ occasion ∈ later, occasion.deed ≠ .opening := by decide
  obtain ⟨hattempts, hwaits, -, -⟩ :=
    Radio.watch_of_history (.text "ws://robot") (.int 1) ⟨[.accepted], []⟩ .start later hlater
  refine ⟨hlater, by decide +kernel, hattempts, ?_⟩
  rw [hwaits]
  have hawake : ((Radio.new (.text "ws://robot") (.int 1)).afterAll occasions).asleep = false := by
    decide +kernel
  rw [hawake]
  rfl

open Radio in
/-- An update accepts a delay that no clock can wait for.  The robot refuses the first call, the
opening returns, and the background task dies of its first wait: the link has neither a connection
nor a task. -/
theorem Radio.not_attended_of_update :
    ∃ settings radio,
      Settings.standard.update [(Text.ofString "reconnect_delay", .int (10 ^ 400))] =
        .ok settings ∧
      Link.ofSettings settings = .radio radio ∧
      (radio.open ⟨[.refused], []⟩).1 = .ok () ∧
      ¬ (radio.afterAll [⟨.opening, ⟨[.refused], []⟩, .start⟩,
        ⟨.beginning, ⟨[], []⟩, .start⟩]).Attended := by
  refine ⟨Settings.standard.set .reconnectDelay (.int (10 ^ 400)), _, rfl, rfl, rfl, ?_⟩
  unfold Attended
  decide +kernel

end PenRover
