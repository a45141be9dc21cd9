import PenRover.Proofs.Dashboard.Instants
import PenRover.Proofs.Dashboard.Phases

/-!
# Whose connections they are

Every incident is written down with its session, so that the connections of each session can be
counted.  How far a session has come (`Phase`) tells what its link can be like: `Instant.Tidy` says
this of every session and carries the count, through every step (`Tidy.step`).

There are two ways in which a connection or a background task is lost track of.

* A stop while a link is being opened calls the background task, whose attempt can end first.  Then
  the first attempt brings a second connection, which takes the place of the other one; nobody hangs
  that up any more (`Instant.leaks_of_replaced`).
* A stop while a link is closing, after its run came to its end without one, can find the connection
  closed already.  It is *late*: it calls the background task after that of the link was ended, and
  nobody ends this one (`Instant.leaks_of_late`).

The count says that there is no third one.  It includes the connections that another one took the
place of, and nothing is said of a session with a late stop.
-/

namespace PenRover

open Script

/-! ### Incidents -/

namespace Incident

/-- No stop of the session with this number was late. -/
def Punctual (n : Nat) (incidents : List Incident) : Prop :=
  ∀ incident ∈ incidents, incident.isLate n = false

/-- No stop was late up to an incident and in it. -/
lemma punctual_append_singleton {n : Nat} {incidents : List Incident} {incident : Incident} :
    Punctual n (incidents ++ [incident]) ↔
      Punctual n incidents ∧ incident.isLate n = false := by
  simp [Punctual, or_imp, forall_and]

/-- In how many cases a connection of the session with this number gave way to another one. -/
def replacedIn (n : Nat) (incidents : List Incident) : Nat := incidents.countP (replaces n)

variable {incident : Incident} {n k : Nat}

/-- What an incident writes belongs to its session. -/
lemma journalOf_self (h : incident.session? = some n) : incident.journalOf n = incident.journal :=
  if_pos h

/-- An incident writes nothing in another session. -/
lemma journalOf_of_ne (h : incident.session? ≠ some n) : incident.journalOf n = [] := if_neg h

/-- Only in its own session something is replaced. -/
lemma replaces_of_ne (h : incident.session? ≠ some n) : incident.replaces n = false := by
  cases incident with
  | replace session journal =>
    rw [replaces, beq_eq_false_iff_ne]
    rintro rfl
    exact h rfl
  | _ => rfl

/-- An incident without events has none in any session. -/
lemma events_journalOf (h : incident.journal.events = []) (n : Nat) :
    (incident.journalOf n).events = [] := by
  unfold journalOf
  split
  · exact h
  · rfl

end Incident

namespace Instant

open Dashboard Incident

variable {i a b : Instant} {incidents : List Incident} {incident : Incident} {n k : Nat}

/-- The session with this number has come so far. -/
def In (i : Instant) (n : Nat) : Phase → Prop
  | .granted => ∃ grant ∈ i.granted, grant.session = n
  | .opening => ∃ opening ∈ i.opening, opening.grant.session = n
  | .running => ∃ run ∈ i.dashboard.runs, run.session = n
  | .closing held => ∃ closing ∈ i.closing, closing.grant.session = n ∧ closing.held = held
  | .idle => i.dashboard.current ≠ some n

/-- A session is not in use, or its run is unfinished. -/
lemma Single.exists_in (h : i.Single) (n : Nat) : ∃ phase, i.In n phase := by
  by_cases hcurrent : i.dashboard.current = some n
  · obtain ⟨drawing, honly⟩ := h.current_iff.mp hcurrent
    have hmem : (⟨n, drawing⟩ : Grant) ∈ i.unfinished := by
      rw [honly]
      exact List.mem_singleton_self _
    simp only [unfinished, List.mem_append, List.mem_map] at hmem
    obtain ((hgrant | ⟨opening, hopening, heq⟩) | ⟨run, hrun, heq⟩) | ⟨closing, hclosing, heq⟩ :=
      hmem
    · exact ⟨.granted, ⟨n, drawing⟩, hgrant, rfl⟩
    · exact ⟨.opening, opening, hopening, congrArg Grant.session heq⟩
    · exact ⟨.running, run, hrun, congrArg Grant.session heq⟩
    · exact ⟨.closing closing.held, closing, hclosing, congrArg Grant.session heq, rfl⟩
  · exact ⟨.idle, hcurrent⟩

/-- A session that is not in use is idle. -/
lemma Single.eq_idle (h : i.Single) (hcurrent : i.dashboard.current ≠ some n) {phase : Phase}
    (hin : i.In n phase) : phase = .idle := by
  have hnone (drawing : List Command) : (⟨n, drawing⟩ : Grant) ∉ i.unfinished := by
    intro hmem
    obtain ⟨before, after, hsplit⟩ := List.append_of_mem hmem
    exact hcurrent (h.of_split hsplit).2.2.1
  cases phase with
  | idle => rfl
  | granted =>
    obtain ⟨grant, hgrant, rfl⟩ := hin
    exact absurd (by simp [unfinished, hgrant]) (hnone grant.drawing)
  | opening =>
    obtain ⟨opening, hopening, rfl⟩ := hin
    refine absurd ?_ (hnone opening.grant.drawing)
    exact List.mem_append_left _ (List.mem_append_left _ (List.mem_append_right _
      (List.mem_map_of_mem hopening)))
  | running =>
    obtain ⟨run, hrun, rfl⟩ := hin
    refine absurd ?_ (hnone run.drawing)
    exact List.mem_append_left _ (List.mem_append_right _ (List.mem_map_of_mem hrun))
  | closing held =>
    obtain ⟨closing, hclosing, rfl, -⟩ := hin
    refine absurd ?_ (hnone closing.grant.drawing)
    exact List.mem_append_right _ (List.mem_map_of_mem hclosing)

/-! ### The invariant -/

/-- The link of the session with this number is as its phase has it. -/
def Allows (i : Instant) (n : Nat) : Prop :=
  ∀ phase, i.In n phase →
    phase.Allows (i.dashboard.controls n).aborted (i.dashboard.controls n).link

/-- The link of every session without a late stop is as its phase has it, and its connections are
accounted for: they came to an end, or gave way to another one, or the link has them. -/
structure Tidy (i : Instant) (incidents : List Incident) : Prop where
  allows : ∀ n, Punctual n incidents → i.Allows n
  balance : ∀ n, Punctual n incidents → (journalsOf n incidents).opened =
    (journalsOf n incidents).ended + replacedIn n incidents +
      (i.dashboard.controls n).link.connections

/-- Nothing has to be accounted for on a new dashboard. -/
lemma tidy_new (settings : Settings) (settingsFile : Text) (disk : Disk) (air : Air) :
    Tidy (Moment.instant ⟨Dashboard.new settings settingsFile disk air, []⟩) [] where
  allows n _ phase hin := by
    obtain rfl : phase = .idle := Single.eq_idle (.inl ⟨rfl, rfl⟩) (Option.some_ne_none n).symm hin
    trivial
  balance _ _ := rfl

/-- However far a session has come, a connection leaves its background task nothing to do. -/
lemma Tidy.isAlone (h : i.Tidy incidents) (hi : i.Single) (hn : Punctual n incidents) :
    (i.dashboard.controls n).link.IsAlone := by
  obtain ⟨phase, hin⟩ := hi.exists_in n
  exact (h.allows n hn phase hin).isAlone

/-- The incident tells how the link of the session with this number came to be like this. -/
def Settles (before : Link) (incident : Incident) (n : Nat) (after : Link) : Prop :=
  before.connections + (incident.journalOf n).opened =
    (incident.journalOf n).ended + (incident.replaces n).toNat + after.connections

/-- What balances settles. -/
lemma Settles.of_balances {before after : Link} {journal : Journal}
    (h : before.Balances journal after) : Settles before (.act (some n) journal) n after := by
  rw [Settles, journalOf_self rfl]
  exact h

/-- What holds of every session after a step: it is enough to look at one session, if in all others
nothing is done. -/
lemma Tidy.of_step (h : a.Tidy incidents)
    (hothers : ∀ k, incident.session? ≠ some k → a.Allows k → b.Allows k ∧
      (b.dashboard.controls k).link.connections = (a.dashboard.controls k).link.connections)
    (hself : ∀ n, incident.session? = some n → incident.isLate n = false → a.Allows n →
      b.Allows n ∧ Settles (a.dashboard.controls n).link incident n
        (b.dashboard.controls n).link) :
    b.Tidy (incidents ++ [incident]) := by
  have hboth (k : Nat) (hk : Punctual k (incidents ++ [incident])) :
      b.Allows k ∧
        Settles (a.dashboard.controls k).link incident k (b.dashboard.controls k).link := by
    obtain ⟨hpunctual, hlate⟩ := punctual_append_singleton.mp hk
    have hallows := h.allows k hpunctual
    by_cases hsession : incident.session? = some k
    · exact hself k hsession hlate hallows
    · obtain ⟨hnext, hlinks⟩ := hothers k hsession hallows
      refine ⟨hnext, ?_⟩
      rw [Settles, journalOf_of_ne hsession, replaces_of_ne hsession, hlinks]
      simp
  refine ⟨fun k hk => (hboth k hk).1, ?_⟩
  intro k hk
  have hbefore := h.balance k (punctual_append_singleton.mp hk).1
  have hstep := (hboth k hk).2
  have hjournals : journalsOf k (incidents ++ [incident]) =
      journalsOf k incidents ++ incident.journalOf k := by
    simp [journalsOf]
  have hreplaced : replacedIn k (incidents ++ [incident]) =
      replacedIn k incidents + (incident.replaces k).toNat := by
    rw [replacedIn, replacedIn, List.countP_append, List.countP_singleton]
    cases incident.replaces k <;> rfl
  rw [Settles] at hstep
  rw [hjournals, hreplaced, Journal.opened_append, Journal.ended_append]
  omega

/-! ### One step -/

/-- Phases are read off the runs, the session in use and what is in suspense. -/
lemma in_congr {after : Dashboard} (hruns : after.runs = a.dashboard.runs)
    (hcurrent : after.current = a.dashboard.current) (n : Nat) (phase : Phase) :
    In { a with dashboard := after } n phase ↔ a.In n phase := by
  cases phase <;> simp only [In, hruns, hcurrent]

/-- A step that touches no session and shows nothing. -/
lemma Tidy.of_sessions_eq (h : a.Tidy incidents) (hincident : ∀ n, incident.replaces n = false)
    (hevents : incident.journal.events = [])
    (hin : ∀ n phase, b.In n phase → a.In n phase)
    (hsessions : b.dashboard.sessions = a.dashboard.sessions) :
    b.Tidy (incidents ++ [incident]) := by
  have hcontrols := controls_congr hsessions
  have hallows (n : Nat) (hn : a.Allows n) : b.Allows n := by
    intro phase hphase
    rw [hcontrols]
    exact hn phase (hin n phase hphase)
  refine h.of_step (fun k _ hk => ⟨hallows k hk, by rw [hcontrols]⟩)
    fun n _ _ hn => ⟨hallows n hn, ?_⟩
  have hnone := events_journalOf hevents n
  rw [Settles, hcontrols, hincident, Journal.opened_eq_zero hnone, Journal.ended_eq_zero hnone]
  simp

/-- An action in one session, and perhaps a note. -/
lemma Tidy.inSession {α : Type} {act : Act Session α} {result : Except Fault α} {t : Session}
    {journal more : Journal} {after : Dashboard} (h : a.Tidy incidents) (ha : a.Single)
    (hn : n < a.dashboard.sessions.length)
    (hact : act (a.dashboard.session n) = (result, t, journal)) (hmore : more.events = [])
    (hsessions : after.sessions = (a.dashboard.inSession n act).2.1.sessions)
    (hruns : after.runs = a.dashboard.runs) (hcurrent : after.current = a.dashboard.current)
    (hkeeps : ∀ phase, a.In n phase →
      phase.Allows (a.dashboard.session n).aborted (a.dashboard.session n).link →
      phase.Allows t.aborted t.link ∧ (a.dashboard.session n).link.Balances journal t.link) :
    Tidy { a with dashboard := after } (incidents ++ [.act (some n) (journal ++ more)]) := by
  have hcontrols := controls_congr (d := (a.dashboard.inSession n act).2.1) hsessions
  obtain ⟨-, -, hself⟩ := inSession_eq hn hact
  refine h.of_step ?_ ?_
  · intro k hk hallows
    have hnk : n ≠ k := by
      rintro rfl
      exact hk rfl
    have hsame : after.controls k = a.dashboard.controls k := by
      rw [hcontrols, controls_inSession_of_ne _ _ _ hnk]
    refine ⟨fun phase hin => ?_, by rw [hsame]⟩
    rw [hsame]
    exact hallows phase ((in_congr hruns hcurrent k phase).mp hin)
  · intro k hk _ hallows
    obtain rfl : n = k := Option.some.inj hk
    have hlink : after.controls n = ⟨t.link, t.aborted⟩ := (hcontrols n).trans hself
    refine ⟨?_, ?_⟩
    · intro phase hin
      have hbefore := (in_congr hruns hcurrent n phase).mp hin
      rw [hlink]
      exact (hkeeps phase hbefore (hallows phase hbefore)).1
    · obtain ⟨phase, hbefore⟩ := ha.exists_in n
      have hbalance := (hkeeps phase hbefore (hallows phase hbefore)).2
      rw [hlink]
      exact .of_balances (hbalance.trans (.of_events t.link hmore))

/-- A request that is no late stop leaves every session where it is. -/
lemma Tidy.answer (h : a.Tidy incidents) (ha : a.Single) {request : Request}
    (hgrants : ¬ a.dashboard.Grants request)
    (hkeeps : ∀ closing ∈ a.closing,
      ((a.dashboard.answer request).2.1.controls closing.grant.session).link.connections =
        (a.dashboard.controls closing.grant.session).link.connections) :
    Tidy { a with dashboard := (a.dashboard.answer request).2.1 }
      (incidents ++ [.act a.dashboard.current (a.dashboard.answer request).2.2]) := by
  obtain ⟨hcurrent, hruns, -⟩ := frame_answer hgrants
  obtain ⟨n, hsome, hstop⟩ | ⟨hsessions, -, -, hevents, -⟩ := answer_cases hgrants
  · obtain ⟨hsessions, -, -, more, hmore, -, hjournal⟩ := stop_of_current hsome
    obtain ⟨-, -, hn⟩ := ha.of_current_eq_some hsome
    rcases hresult : Session.stop (a.dashboard.session n) with ⟨result, t, journal⟩
    obtain ⟨-, hwritten, hself⟩ := inSession_eq hn hresult
    rw [hstop] at hruns hcurrent hkeeps ⊢
    rw [hsome, hjournal, hwritten]
    have hlink : a.dashboard.stop.2.1.controls n = ⟨t.link, t.aborted⟩ :=
      (controls_congr hsessions n).trans hself
    refine h.inSession ha hn hresult hmore hsessions hruns hcurrent fun phase hin hallows => ?_
    refine hallows.stop ?_ ?_ hresult
    · rintro rfl
      exact hin hsome
    · intro held hheld
      obtain ⟨closing, hclosing, rfl, -⟩ := hheld ▸ hin
      have hkept := hkeeps closing hclosing
      rwa [hlink] at hkept
  · refine h.of_sessions_eq (fun _ => rfl) hevents ?_ hsessions
    intro k phase hin
    exact (in_congr hruns hcurrent k phase).mp hin

/-- What the background task of a link does leaves every session where it is. -/
lemma Tidy.background {act : Act Session Unit} (h : a.Tidy incidents) (ha : a.Single)
    (hn : n < a.dashboard.sessions.length)
    (hkeeps : ∀ {phase result t journal}, a.In n phase →
      phase.Allows (a.dashboard.session n).aborted (a.dashboard.session n).link →
      act (a.dashboard.session n) = (result, t, journal) →
      phase.Allows t.aborted t.link ∧ (a.dashboard.session n).link.Balances journal t.link) :
    Tidy { a with dashboard := (a.dashboard.inSession n act).2.1 }
      (incidents ++ [.act (some n) (a.dashboard.inSession n act).2.2]) := by
  rcases hact : act (a.dashboard.session n) with ⟨result, t, journal⟩
  obtain ⟨-, hwritten, -⟩ := inSession_eq hn hact
  have hnothing : Journal.events [] = [] := rfl
  have hkept := h.inSession ha hn hact hnothing rfl rfl rfl
    fun phase hin hallows => hkeeps hin hallows hact
  rwa [List.append_nil, ← hwritten] at hkept

/-- A start that is granted makes a session whose link was not opened yet. -/
lemma tidy_engage {uploads : Nat} {granted : List Grant} {opening : List Opening}
    {closing : List Closing} {d : Dashboard}
    (h : Tidy ⟨d, uploads, granted, opening, closing⟩ incidents)
    (ha : Single ⟨d, uploads, granted, opening, closing⟩) (drawing : List Command)
    (hcurrent : d.current = none) :
    Tidy ⟨d.engage, uploads, granted ++ [⟨d.sessions.length, drawing⟩], opening, closing⟩
      (incidents ++ [.grant uploads]) := by
  obtain ⟨rfl, rfl, hruns, rfl⟩ := unfinished_eq_nil.mp (ha.of_current_eq_none hcurrent)
  have hruns' : d.engage.runs = [] := hruns
  refine h.of_step (fun k _ hallows => ?_) nofun
  by_cases hk : k = d.sessions.length
  · subst hk
    have hold : d.controls d.sessions.length = ⟨.rehearsal [], false⟩ := by
      simp [controls, List.getD]
    have hclosed := Link.isClosed_ofSettings d.settings
    dsimp only
    rw [controls_engage_self, hold]
    refine ⟨?_, hclosed.connections⟩
    intro phase hin
    dsimp only
    rw [controls_engage_self]
    cases phase with
    | granted => exact .of_isClosed hclosed false
    | opening => simp [In] at hin
    | running => simp [In, hruns'] at hin
    | closing held => simp [In] at hin
    | idle => exact hclosed
  · have hsame := controls_engage_of_ne hk
    dsimp only
    rw [hsame]
    refine ⟨?_, rfl⟩
    intro phase hin
    dsimp only
    rw [hsame]
    cases phase with
    | granted =>
      obtain ⟨grant, hgrant, rfl⟩ := hin
      obtain rfl : grant = ⟨d.sessions.length, drawing⟩ := by simpa using hgrant
      exact absurd rfl hk
    | opening => simp [In] at hin
    | running => simp [In, hruns'] at hin
    | closing held => simp [In] at hin
    | idle =>
      apply hallows .idle
      rw [In, hcurrent]
      exact (Option.some_ne_none k).symm

/-- A step of a session in use leaves all others where they are. -/
lemma Allows.of_ne (h : a.Allows k) (hb : b.Single) (hbefore : a.dashboard.current = some n)
    (hafter : b.dashboard.current = some n ∨ b.dashboard.current = none) (hk : n ≠ k)
    (hcontrols : b.dashboard.controls k = a.dashboard.controls k) : b.Allows k := by
  have hne {d : Dashboard} (hd : d.current = some n ∨ d.current = none) : d.current ≠ some k := by
    obtain hd | hd := hd <;> rw [hd]
    · exact fun hsome => hk (Option.some.inj hsome)
    · exact (Option.some_ne_none k).symm
  intro phase hin
  obtain rfl := hb.eq_idle (hne hafter) hin
  rw [hcontrols]
  exact h .idle (hne (.inl hbefore))

/-- What holds after a step of the session in use. -/
lemma Tidy.of_current (h : a.Tidy incidents) (hb : b.Single)
    (hbefore : a.dashboard.current = some n)
    (hafter : b.dashboard.current = some n ∨ b.dashboard.current = none)
    (hsession : incident.session? = some n)
    (hcontrols : ∀ k, n ≠ k → b.dashboard.controls k = a.dashboard.controls k)
    (hself : incident.isLate n = false → a.Allows n → b.Allows n ∧
      Settles (a.dashboard.controls n).link incident n (b.dashboard.controls n).link) :
    b.Tidy (incidents ++ [incident]) := by
  refine h.of_step ?_ ?_
  · intro k hk hallows
    have hnk : n ≠ k := by
      rintro rfl
      exact hk hsession
    exact ⟨hallows.of_ne hb hbefore hafter hnk (hcontrols k hnk), by rw [hcontrols k hnk]⟩
  · intro k hk hlate hallows
    obtain rfl : n = k := Option.some.inj (hsession.symm.trans hk)
    exact hself hlate hallows

/-- An attempt to open a link begins. -/
lemma tidy_dial {uploads : Nat} {granted : List Grant} {opening : List Opening}
    {closing : List Closing} {d : Dashboard} {grant : Grant} (reply : Reply)
    (h : Tidy ⟨d, uploads, grant :: granted, opening, closing⟩ incidents)
    (ha : Single ⟨d, uploads, grant :: granted, opening, closing⟩)
    (hb : Single ⟨(d.inSession grant.session Session.dial).2.1, uploads, granted,
      opening ++ [⟨grant, reply⟩], closing⟩) :
    Tidy ⟨(d.inSession grant.session Session.dial).2.1, uploads, granted,
      opening ++ [⟨grant, reply⟩], closing⟩ (incidents ++ [.act (some grant.session) []]) := by
  obtain ⟨⟨rfl, rfl, hruns, rfl⟩, hcurrent, hlength⟩ := ha.of_granted
  have hdial : Session.dial (d.session grant.session) =
      (_, (Session.dial (d.session grant.session)).2.1, _) := rfl
  have hself : (d.inSession grant.session Session.dial).2.1.controls grant.session =
      d.controls grant.session := (inSession_eq hlength hdial).2.2
  refine h.of_current hb hcurrent (.inl hcurrent) rfl
    (fun k hk => controls_inSession_of_ne d grant.session Session.dial hk)
    fun _ hallows => ⟨?_, ?_⟩
  · intro phase hin
    have hgranted := hallows .granted ⟨grant, List.mem_cons_self, rfl⟩
    dsimp only
    rw [hself]
    cases phase with
    | granted => simp [In] at hin
    | opening => exact Session.Unopened.opening hgranted
    | running =>
      obtain ⟨run, hrun, -⟩ := hin
      rw [show (d.inSession grant.session Session.dial).2.1.runs = d.runs from rfl, hruns] at hrun
      exact absurd hrun List.not_mem_nil
    | closing held => simp [In] at hin
    | idle => exact absurd hcurrent hin
  · dsimp only
    rw [hself]
    exact .of_balances (.refl _ rfl rfl)

/-! ### A run goes on -/

/-- What a turn of a run comes to for its link. -/
def Turns (reply : Option Reply) (before : Link) (journal : Journal) (after : Link) : Prop :=
  if reply = some .accepted ∧ before.connections ≠ 0 then before.Replaces journal after
  else before.Balances journal after

/-- A turn goes on with what balances. -/
lemma Turns.trans {reply : Option Reply} {before between after : Link} {first second : Journal}
    (h : Turns reply before first between) (hrest : between.Balances second after) :
    Turns reply before (first ++ second) after := by
  unfold Turns at *
  split at h
  next hreplaces =>
    rw [if_pos hreplaces]
    exact h.trans hrest
  next hbalances =>
    rw [if_neg hbalances]
    exact h.trans hrest

/-- A turn of a run settles for its link. -/
lemma Turns.settles {reply : Option Reply} {before after : Link} {journal : Journal}
    (h : Turns reply before journal after) :
    Settles before (.ofTurn reply before n journal) n after := by
  unfold Turns at h
  unfold ofTurn
  split
  next hreplaces =>
    rw [if_pos hreplaces] at h
    rw [Settles, journalOf_self rfl]
    have hself : (Incident.replace n journal).replaces n = true := by simp [replaces]
    rw [hself]
    unfold Link.Replaces at h
    simp only [Incident.journal, Bool.toNat_true]
    omega
  next hbalances =>
    rw [if_neg hbalances] at h
    exact .of_balances h

variable {rest : Instant} {grant : Grant} {reply : Option Reply}
  {piece : Act Session (Session.Standing Outcome)}
  {result : Except Fault (Session.Standing Outcome)} {t : Session} {journal : Journal}

/-- A piece of a run accounts for its link, and leaves it to a wait as a run needs it. -/
lemma Turn.accounts (hturn : Turn a grant reply piece rest) (hallows : a.Allows grant.session)
    (hpiece : piece (rest.dashboard.session grant.session) = (result, t, journal)) :
    Turns reply (a.dashboard.controls grant.session).link journal t.link ∧
      ((∃ alarm next, result = .ok (.waiting alarm next)) → t.link.IsAlone) := by
  have hwithout {s : Session} {script : Script Outcome} {before : Link}
      (hlink : s.link = before) (halone : before.IsAlone)
      (hresume : Session.resume script s = (result, t, journal)) :
      Turns none before journal t.link ∧
        ((∃ alarm next, result = .ok (.waiting alarm next)) → t.link.IsAlone) := by
    subst hlink
    obtain ⟨hkept, hbalance⟩ := (Session.accounts_resume script).of_eq halone hresume
    refine ⟨?_, fun _ => hkept⟩
    rw [Turns, if_neg (fun hboth => absurd hboth.1.symm (Option.some_ne_none _))]
    exact hbalance
  cases hturn with
  | @begin d uploads granted opening closing grant hrehearsal =>
    have hgranted := hallows .granted ⟨grant, List.mem_cons_self, rfl⟩
    exact hwithout rfl (Session.Unopened.opening hgranted).1 hpiece
  | wake run hrun =>
    have hrunning := hallows .running ⟨run, hrun, rfl⟩
    exact hwithout rfl hrunning hpiece
  | @opened d uploads granted before after closing grant reply =>
    have hopening := hallows .opening ⟨⟨grant, reply⟩, by simp, rfl⟩
    obtain ⟨hreplaces, hbalances, hwaits⟩ :=
      Session.accounts_opening (s := d.session grant.session) hopening hpiece
    refine ⟨?_, hwaits⟩
    unfold Turns
    split
    next hboth => exact hreplaces (Option.some.inj hboth.1) hboth.2
    next hneither =>
      apply hbalances
      by_contra hother
      rw [not_or, ne_eq, not_not] at hother
      exact hneither ⟨congrArg some hother.1, hother.2⟩

/-- The link of a run that is over has no background task any more, and its connection still. -/
lemma controls_conclude {d : Dashboard} (hn : n < d.sessions.length) (status : Status) :
    (d.conclude n status).controls n =
      ⟨(d.controls n).link.leave, (d.controls n).aborted⟩ := by
  have hleave : Session.leave (d.session n) =
      (.ok (), { d.session n with link := (d.controls n).link.leave }, []) := rfl
  exact (inSession_eq hn hleave).2.2

/-- A link without a background task is closed when it is released, and what is hung up was its
connection. -/
lemma release_of_isStill {d : Dashboard} (hn : n < d.sessions.length)
    (hstill : (d.controls n).link.IsStill) :
    ((d.release n).1.controls n).link.IsClosed ∧
      (d.controls n).link.Balances (d.release n).2 ((d.release n).1.controls n).link := by
  rcases hhangUp : Session.hangUp (d.session n) with ⟨result, t, journal⟩
  obtain ⟨-, hwritten, hself⟩ := inSession_eq hn hhangUp
  obtain ⟨hclosed, hbalance⟩ := Session.balances_hangUp hstill hhangUp
  have hlink : (d.release n).1.controls n = ⟨t.link, t.aborted⟩ := hself
  have hjournal : (d.release n).2 = journal := hwritten
  rw [hlink, hjournal]
  exact ⟨hclosed, hbalance⟩

/-- A run goes on until its next wait, or until its link is closed or closes. -/
lemma tidy_advance (h : a.Tidy incidents) (ha : a.Single)
    (hturn : Turn a grant reply piece rest) (hb : (rest.proceed grant piece).1.Single) :
    (rest.proceed grant piece).1.Tidy (incidents ++
      [.ofTurn reply (a.dashboard.controls grant.session).link grant.session
        (rest.proceed grant piece).2]) := by
  obtain ⟨-, hnone, -, hcurrent, hlength, -, hrest⟩ := hturn.alone ha
  obtain ⟨hgranted, hopening, hruns, hclosing⟩ := unfinished_eq_nil.mp hnone
  have hsame (k : Nat) : rest.dashboard.controls k = a.dashboard.controls k :=
    controls_congr (by rw [hrest]) k
  have hn : grant.session < rest.dashboard.sessions.length := by rwa [hrest]
  have hinUse : rest.dashboard.current = some grant.session := by rwa [hrest]
  rcases hpiece : piece (rest.dashboard.session grant.session) with ⟨result, t, journal⟩
  obtain ⟨hresult, hwritten, hself⟩ := inSession_eq hn hpiece
  have hother {k : Nat} (hk : grant.session ≠ k) :=
    controls_inSession_of_ne rest.dashboard grant.session piece hk
  rcases hafter : rest.dashboard.inSession grant.session piece with ⟨result', after, journal'⟩
  obtain ⟨hcurrent', hruns', -, -, hlength'⟩ := frame_inSession _ _ _ hafter
  rw [hafter] at hresult hwritten hself hother
  dsimp only at hresult hwritten hself hother
  subst hresult hwritten
  have hsession : (ofTurn reply (a.dashboard.controls grant.session).link grant.session
      (rest.proceed grant piece).2).session? = some grant.session := by
    unfold ofTurn
    split <;> rfl
  have hconcluded (status : Status) : (after.conclude grant.session status).controls grant.session =
      ⟨t.link.leave, t.aborted⟩ := by
    rw [controls_conclude (hn.trans_eq hlength'.symm), hself]
  have hleft {k : Nat} (hk : grant.session ≠ k) (status : Status) :
      (after.conclude grant.session status).controls k = a.dashboard.controls k :=
    (controls_inSession_of_ne after grant.session Session.leave hk).trans
      ((hother hk).trans (hsame k))
  obtain ⟨hstill, hconnections⟩ := t.link.leave_cases
  have hleave (note : Note) : t.link.Balances [.note note] t.link.leave := by
    rw [Link.Balances, hconnections]
    exact Nat.add_comm _ _
  obtain ⟨alarm, next, hwaits, hproceed⟩ | ⟨status, note, -, -,
      ⟨-, hproceed⟩ | ⟨hopen, hproceed⟩⟩ :=
    rest.proceed_cases grant piece hafter <;> rw [hproceed] at hb hsession ⊢
  · -- the run waits: only the phase `running` is left, and a connection is alone there
    refine h.of_current hb hcurrent (.inl (hcurrent'.trans hinUse)) hsession
      (fun k hk => (hother hk).trans (hsame k)) fun _ hallows => ?_
    obtain ⟨hturns, halone⟩ := hturn.accounts hallows hpiece
    have hlink : ({ after with runs := rest.dashboard.runs ++
        [⟨grant.session, grant.drawing, alarm, next⟩] } : Dashboard).controls grant.session =
        ⟨t.link, t.aborted⟩ := hself
    refine ⟨?_, ?_⟩
    · intro phase hin
      dsimp only
      rw [hlink]
      cases phase with
      | granted => simp [In, hgranted] at hin
      | opening => simp [In, hopening] at hin
      | running => exact halone ⟨alarm, next, hwaits⟩
      | closing held => simp [In, hclosing] at hin
      | idle => exact absurd (hcurrent'.trans hinUse) hin
    · dsimp only
      rw [hlink]
      exact hturns.settles
  · -- the run is over without a connection, so its link is released at once
    refine h.of_current hb hcurrent (.inr rfl) hsession (fun k hk => ?_) fun _ hallows => ?_
    · exact (controls_inSession_of_ne (after.conclude grant.session status) grant.session
        Session.hangUp hk).trans (hleft hk status)
    obtain ⟨hturns, -⟩ := hturn.accounts hallows hpiece
    have hthere : grant.session < (after.conclude grant.session status).sessions.length :=
      hn.trans_eq (hlength'.symm.trans
        (length_sessions_inSession after grant.session Session.leave).symm)
    obtain ⟨hclosed, hrelease⟩ := release_of_isStill hthere (by rwa [hconcluded])
    rw [hconcluded] at hrelease
    refine ⟨?_, ((hturns.trans (hleave note)).trans hrelease).settles⟩
    intro phase hin
    obtain rfl := hb.eq_idle (Option.some_ne_none _).symm hin
    exact hclosed
  · -- the run is over and its connection is still there: the session stays in use while it closes
    refine h.of_current hb hcurrent (.inl (hcurrent'.trans hinUse)) hsession
      (fun k hk => hleft hk status) fun _ hallows => ?_
    obtain ⟨hturns, -⟩ := hturn.accounts hallows hpiece
    rw [hconcluded] at hopen
    refine ⟨?_, ?_⟩
    · intro phase hin
      dsimp only
      rw [hconcluded]
      cases phase with
      | granted => simp [In, hgranted] at hin
      | opening => simp [In, hopening] at hin
      | running =>
        obtain ⟨run, hrun, -⟩ := hin
        have hnobody : (after.conclude grant.session status).runs = [] := hruns'.trans hruns
        rw [hnobody] at hrun
        exact absurd hrun List.not_mem_nil
      | closing held =>
        obtain ⟨closing, hmem, -, rfl⟩ := hin
        obtain rfl : closing = ⟨grant, true⟩ := by simpa [hclosing] using hmem
        exact ⟨rfl, hstill, hopen⟩
      | idle => exact absurd (hcurrent'.trans hinUse) hin
    · dsimp only
      rw [hconcluded]
      exact (hturns.trans (hleave note)).settles

/-- The link of a run that is over has closed. -/
lemma tidy_closed {uploads : Nat} {granted : List Grant} {opening : List Opening}
    {before after : List Closing} {d : Dashboard} {closing : Closing}
    (h : Tidy ⟨d, uploads, granted, opening, before ++ closing :: after⟩ incidents)
    (ha : Single ⟨d, uploads, granted, opening, before ++ closing :: after⟩)
    (hb : Single ⟨(finish d closing).1, uploads, granted, opening, before ++ after⟩) :
    Tidy ⟨(finish d closing).1, uploads, granted, opening, before ++ after⟩
      (incidents ++ [.act (some closing.grant.session) (finish d closing).2]) := by
  have hmem : closing ∈ before ++ closing :: after := by simp
  have hcurrent : d.current = some closing.grant.session := by
    by_contra hother
    have hin : In ⟨d, uploads, granted, opening, before ++ closing :: after⟩ closing.grant.session
        (.closing closing.held) := ⟨closing, hmem, rfl, rfl⟩
    nomatch ha.eq_idle hother hin
  obtain ⟨-, -, hn⟩ := ha.of_current_eq_some hcurrent
  refine h.of_current hb hcurrent (.inr (frame_finish d closing).1) rfl ?_ ?_
  · intro k hk
    dsimp only
    unfold finish
    split
    · exact controls_inSession_of_ne d closing.grant.session Session.hangUp hk
    · exact controls_inSession_of_ne d closing.grant.session Session.forget hk
  · intro _ hallows
    obtain ⟨hheld, hstill, -⟩ := hallows (.closing closing.held) ⟨closing, hmem, rfl, rfl⟩
    obtain ⟨hclosed, hrelease⟩ := release_of_isStill hn hstill
    have hfinish : finish d closing = d.release closing.grant.session := by
      rw [finish, if_pos hheld]
    rw [hfinish] at hb ⊢
    refine ⟨?_, .of_balances hrelease⟩
    intro phase hin
    obtain rfl := hb.eq_idle (Option.some_ne_none _).symm hin
    exact hclosed

/-- Every step keeps the invariant. -/
lemma Tidy.step (h : a.Tidy incidents) (ha : a.Single) (hstep : Step a incident b) :
    b.Tidy (incidents ++ [incident]) := by
  have hb := ha.step hstep
  cases hstep with
  | answer request hgrants hadmits hkeeps => exact h.answer ha hgrants hkeeps
  | @late d uploads granted opening before after closing request hgrants hadmits hcurrent hloses =>
    -- nothing is said of this session any more
    refine h.of_current hb hcurrent (.inl ((frame_answer hgrants).1.trans hcurrent)) rfl ?_ ?_
    · intro k hk
      refine controls_answer_of_ne hgrants fun hsome => hk ?_
      exact Option.some.inj (hcurrent.symm.trans hsome)
    · intro hlate _
      simp [isLate] at hlate
  | enter request hadmits =>
    exact h.of_sessions_eq (fun _ => rfl) rfl (fun _ _ hin => hin) rfl
  | @receive d uploads granted opening closing body =>
    obtain hsame | ⟨drawing, status, note, hloaded, -, -⟩ := receive_cases d body
    · rw [hsame]
      exact h.of_sessions_eq (fun _ => rfl) rfl
        (fun _ phase hin => by cases phase <;> exact hin) rfl
    · rw [hloaded]
      exact h.of_sessions_eq (fun _ => rfl) rfl
        (fun _ phase hin => by cases phase <;> exact hin) rfl
  | grant drawing hcurrent hdrawing => exact tidy_engage h ha drawing hcurrent
  | dial grant reply hreply => exact tidy_dial reply h ha hb
  | advance hturn => exact tidy_advance h ha hturn hb
  | settle n hn hturn =>
    refine h.background ha hn fun {phase} _ _ _ hin hallows hsettle => hallows.settle ?_ hsettle
    rintro rfl
    obtain ⟨grant, hgrant, hsession⟩ := hin
    exact hturn grant hgrant hsession
  | redial n alarm hsleeper =>
    obtain ⟨hn, halarm⟩ := mem_sleepers_link.mp hsleeper
    exact h.background ha hn fun _ hallows hredial => hallows.redial halarm hredial
  | redialed n hn =>
    exact h.background ha hn fun _ hallows hredialed => hallows.redialed hredialed
  | closed closing => exact tidy_closed h ha hb

/-! ### Many steps -/

/-- Accounts stay in order, whatever is done. -/
lemma Tidy.leads {more : List Incident} (h : a.Tidy incidents) (ha : a.Single)
    (hleads : Leads a more b) : b.Tidy (incidents ++ more) := by
  induction hleads with
  | refl => rwa [List.append_nil]
  | snoc hleads hstep ih =>
    rw [← List.append_assoc]
    exact ih.step (ha.leads hleads) hstep

/-- Accounts are in order at every instant. -/
lemma tidy_of_reached (h : i.Reached incidents) : i.Tidy incidents := by
  obtain ⟨settings, settingsFile, disk, air, hleads⟩ := h
  exact (tidy_new settings settingsFile disk air).leads (.inl ⟨rfl, rfl⟩) hleads

/-- While no session is in use nothing is shown until a start is granted, unless a stop was late. -/
lemma Tidy.silent_step (h : a.Tidy incidents) (ha : a.Single)
    (hpunctual : ∀ n, Punctual n incidents) (hcurrent : a.dashboard.current = none)
    (hstep : Step a incident b) (hgrant : ∀ waiting, incident ≠ .grant waiting) :
    b.dashboard.current = none ∧ incident.journal.events = [] ∧
      ∀ n, incident.isLate n = false := by
  have hclosed (n : Nat) : (a.dashboard.controls n).link.IsClosed := by
    apply h.allows n (hpunctual n) .idle
    rw [In, hcurrent]
    exact (Option.some_ne_none n).symm
  obtain ⟨hgranted, -, -, hclosing⟩ := unfinished_eq_nil.mp (ha.of_current_eq_none hcurrent)
  cases hstep with
  | answer request hgrants hadmits hkeeps =>
    obtain ⟨n, hsome, -⟩ | ⟨-, -, hsame, hevents, -⟩ := answer_cases hgrants
    · exact absurd (hsome.symm.trans hcurrent) (Option.some_ne_none n)
    · exact ⟨hsame.trans hcurrent, hevents, fun _ => rfl⟩
  | late closing request hgrants hadmits hsome hloses =>
    -- a late stop finds its session in use
    exact absurd (hsome.symm.trans hcurrent) (Option.some_ne_none _)
  | enter request hadmits => exact ⟨hcurrent, rfl, fun _ => rfl⟩
  | @receive d uploads granted opening closing body =>
    obtain hsame | ⟨drawing, status, note, hloaded, -, -⟩ := receive_cases d body
    · rw [hsame]
      exact ⟨hcurrent, rfl, fun _ => rfl⟩
    · rw [hloaded]
      exact ⟨hcurrent, rfl, fun _ => rfl⟩
  | @grant d uploads granted opening closing drawing hnone hdrawing =>
    exact absurd rfl (hgrant uploads)
  | dial grant reply hreply => exact absurd hgranted (List.cons_ne_nil _ _)
  | advance hturn =>
    obtain ⟨-, -, -, hsome, -⟩ := hturn.alone ha
    exact absurd (hsome.symm.trans hcurrent) (Option.some_ne_none _)
  | settle n hn hturn =>
    have hnothing := Session.settle_of_isStill (s := a.dashboard.session n) (hclosed n).isStill
    rw [inSession_eq_self hn hnothing]
    exact ⟨hcurrent, rfl, fun _ => rfl⟩
  | redial n alarm hsleeper =>
    obtain ⟨-, halarm⟩ := mem_sleepers_link.mp hsleeper
    exact absurd ((hclosed n).alarm?.symm.trans halarm) (Option.some_ne_none alarm).symm
  | redialed n hn =>
    have hnothing := Session.redialed_of_isStill (s := a.dashboard.session n) (hclosed n).isStill
    rw [inSession_eq_self hn hnothing]
    exact ⟨hcurrent, rfl, fun _ => rfl⟩
  | closed closing => exact absurd hclosing (by simp)

/-- When no session is in use and no start is granted, nothing that is done has any events. -/
lemma Tidy.silent_leads {more : List Incident} (h : a.Tidy incidents) (ha : a.Single)
    (hpunctual : ∀ n, Punctual n incidents) (hcurrent : a.dashboard.current = none)
    (hleads : Leads a more b) (hmore : ∀ waiting, .grant waiting ∉ more) :
    ∀ incident ∈ more, incident.journal.events = [] := by
  have hall : b.dashboard.current = none ∧ (∀ n, Punctual n (incidents ++ more)) ∧
      ∀ incident ∈ more, incident.journal.events = [] := by
    induction hleads with
    | refl => exact ⟨hcurrent, by simpa using hpunctual, List.forall_mem_nil _⟩
    | @snoc b c more incident hleads hstep ih =>
      have hfirst (waiting : Nat) : .grant waiting ∉ more :=
        fun hmem => hmore waiting (List.mem_append_left _ hmem)
      have hlast (waiting : Nat) : incident ≠ .grant waiting := by
        rintro rfl
        exact hmore waiting (by simp)
      obtain ⟨hnone, hsofar, hevents⟩ := ih hfirst
      obtain ⟨hnext, hshown, hlate⟩ :=
        (h.leads ha hleads).silent_step (ha.leads hleads) hsofar hnone hstep hlast
      refine ⟨hnext, ?_, ?_⟩
      · intro n
        rw [← List.append_assoc]
        exact punctual_append_singleton.mpr ⟨hsofar n, hlate n⟩
      · intro other hother
        obtain hother | hother := List.mem_append.mp hother
        · exact hevents other hother
        · obtain rfl := List.mem_singleton.mp hother
          exact hshown
  exact hall.2.2

/-- Only the session in use has somebody who sleeps. -/
lemma Tidy.current_of_mem_sleepers (h : i.Tidy incidents) (hi : i.Single)
    (hpunctual : ∀ n, Punctual n incidents) {sleeper : Sleeper}
    (hsleeper : sleeper ∈ i.dashboard.sleepers) :
    i.dashboard.current = some sleeper.session := by
  by_contra hother
  cases sleeper with
  | drawing run =>
    have hrunning : i.In run.session .running := ⟨run, mem_sleepers_drawing hsleeper, rfl⟩
    nomatch hi.eq_idle hother hrunning
  | link n alarm =>
    obtain ⟨-, halarm⟩ := mem_sleepers_link.mp hsleeper
    have hclosed : (i.dashboard.controls n).link.IsClosed := h.allows n (hpunctual n) .idle hother
    exact absurd (hclosed.alarm?.symm.trans halarm) (Option.some_ne_none alarm).symm

/-- At most one background task sleeps. -/
lemma Tidy.length_sleepers_le (h : i.Tidy incidents)
    (hpunctual : ∀ n, Punctual n incidents) :
    (i.dashboard.sleepers.filter Sleeper.isLink).length ≤ 1 := by
  have hruns : (i.dashboard.runs.map Sleeper.drawing).filter Sleeper.isLink = [] := by
    simp [List.filter_eq_nil_iff, Sleeper.isLink]
  rw [sleepers, List.filter_append, hruns, List.nil_append]
  apply (List.length_filter_le _ _).trans
  rw [List.length_filterMap_eq_countP]
  have halarm (k : Nat) (hk : i.dashboard.current ≠ some k) :
      (i.dashboard.controls k).link.alarm? = none :=
    Link.IsClosed.alarm? (h.allows k (hpunctual k) .idle hk)
  calc _ ≤ (List.range i.dashboard.sessions.length).countP
        (fun k => decide (i.dashboard.current = some k)) := by
        apply List.countP_mono_left
        intro k _ hk
        by_contra hne
        rw [halarm k (by simpa using hne)] at hk
        simp at hk
    _ ≤ 1 := by
        cases hcurrent : i.dashboard.current with
        | none => simp
        | some n =>
          have hcount : (List.range i.dashboard.sessions.length).count n ≤ 1 :=
            List.nodup_iff_count_le_one.mp List.nodup_range n
          refine le_trans (List.countP_mono_left ?_) hcount
          intro k _ hk
          exact beq_iff_eq.mpr (Option.some.inj (of_decide_eq_true hk)).symm

end Instant

open Instant Incident in
/-- Of every instant, whoever asked for what, however long attempts to open and to close a link took
and what happened meanwhile, and however connections and transmissions ended; what the sessions
wrote is all there is to count.  Of a session without a late stop every connection that was opened
has come to an end, or gave way to another one, or is that of its link, which has at most one; and
when it is not in use, its link has neither a connection nor a background task.  As long as no stop
was late, it is only in the session in use that anybody sleeps, at most one background task sleeps,
and while no session is in use nothing is shown, let alone connected or sent, until a start is
granted. -/
theorem Instant.connections_of_reached (i : Instant) (incidents : List Incident)
    (h : i.Reached incidents) :
    (∀ n, Punctual n incidents →
      (journalsOf n incidents).opened = (journalsOf n incidents).ended +
        replacedIn n incidents + (i.dashboard.controls n).link.connections ∧
      (i.dashboard.controls n).link.connections ≤ 1 ∧
      (i.dashboard.current ≠ some n → (i.dashboard.controls n).link.IsClosed)) ∧
    ((∀ n, Punctual n incidents) →
      (∀ sleeper ∈ i.dashboard.sleepers, i.dashboard.current = some sleeper.session) ∧
      (i.dashboard.sleepers.filter Sleeper.isLink).length ≤ 1 ∧
      (i.dashboard.current = none → ∀ later more, i.Leads more later →
        (∀ waiting, .grant waiting ∉ more) →
        ∀ incident ∈ more, incident.journal.events = [])) := by
  have hsingle := single_of_reached h
  have htidy := tidy_of_reached h
  constructor
  · intro n hn
    refine ⟨htidy.balance n hn, Link.connections_le_one _, ?_⟩
    intro hcurrent
    exact htidy.allows n hn .idle hcurrent
  · intro hpunctual
    refine ⟨fun sleeper hsleeper => htidy.current_of_mem_sleepers hsingle hpunctual hsleeper,
      htidy.length_sleepers_le hpunctual, ?_⟩
    intro hcurrent later more hleads hmore
    exact htidy.silent_leads hsingle hpunctual hcurrent hleads hmore

open Dashboard Instant Incident in
/-- A drawing is loaded and started, and stopped while its link is being opened.  The run then has
its connection, finds that it was stopped, and closes the connection. -/
theorem Instant.connections_of_reached_stopped :
    let ask (path : String) : Request :=
      ⟨Text.ofString "POST", Text.ofString "robot", Text.ofString path, [], []⟩
    let drawing := [Command.lineAt 0 1]
    let idle := Dashboard.new .standard (Text.ofString "config.json") [] ⟨[.accepted], []⟩
    let loaded := idle.receive (Utf8.encode (Text.ofString "0 1 rlinerot"))
    let dialed := loaded.2.1.engage.inSession 0 Session.dial
    let stopped := dialed.2.1.answer (ask "/stop")
    let ended := stopped.2.1.advance 0 drawing (Session.opening .accepted drawing)
    let released := (ended.2.1.conclude 0 .aborted).release 0
    let incidents := [.enter, .receive loaded.2.2, .grant 0, .act (some 0) [],
      .act (some 0) stopped.2.2, .act (some 0) ended.2.2, .act (some 0) released.2]
    Instant.Reached ⟨released.1, 0, [], [], []⟩ incidents ∧ (∀ n, Punctual n incidents) ∧
      released.1.current = none ∧ (journalsOf 0 incidents).opened = 1 ∧
      (journalsOf 0 incidents).ended = 1 := by
  intro ask drawing idle loaded dialed stopped ended released incidents
  have hload : idle.receive (Utf8.encode (Text.ofString "0 1 rlinerot")) = loaded := rfl
  have hdialed : loaded.2.1.drawing = some drawing ∧ dialed.1 = .ok (some .accepted) := by
    decide +kernel
  have hdial : Instant.Reached ⟨dialed.2.1, 0, [], [⟨⟨0, drawing⟩, .accepted⟩], []⟩
      [.enter, .receive loaded.2.2, .grant 0, .act (some 0) []] := by
    have hreached := reached_dial ⟨_, _, _, _, rfl⟩ _ hdialed.1 hdialed.2
    rwa [hload] at hreached
  have hinUse : dialed.2.1.current = some 0 := rfl
  have hstop : Step ⟨dialed.2.1, 0, [], [⟨⟨0, drawing⟩, .accepted⟩], []⟩ (.act (some 0) stopped.2.2)
      ⟨stopped.2.1, 0, [], [⟨⟨0, drawing⟩, .accepted⟩], []⟩ := by
    have hanswer : stopped = dialed.2.1.answer (ask "/stop") := rfl
    rw [hanswer]
    exact .answer_of_current (ask "/stop") hinUse
  have hadvance : ended = (some .aborted, ended.2.1, ended.2.2) := by
    have hstatus : ended.1 = some .aborted := by decide +kernel
    rw [← hstatus]
  have hconnections : ((ended.2.1.conclude 0 .aborted).controls 0).link.connections = 1 := by
    decide +kernel
  have hnone : (stopped.2.1.controls 0).link.connections = 0 := by decide +kernel
  have hopened : Step ⟨stopped.2.1, 0, [], [⟨⟨0, drawing⟩, .accepted⟩], []⟩
      (.act (some 0) ended.2.2)
      ⟨ended.2.1.conclude 0 .aborted, 0, [], [], [⟨⟨0, drawing⟩, true⟩]⟩ := by
    have hstep := @Step.opened_of_closing _ _ _ _ 0 [] [] [] ⟨0, drawing⟩ .accepted hadvance
      (by rw [hconnections]; exact Nat.one_ne_zero)
    rwa [ofTurn, if_neg fun hboth => hboth.2 hnone] at hstep
  have hclosed : Step ⟨ended.2.1.conclude 0 .aborted, 0, [], [], [⟨⟨0, drawing⟩, true⟩]⟩
      (.act (some 0) released.2) ⟨released.1, 0, [], [], []⟩ :=
    .hungUp _ _ _ _ _
  have hreached : Instant.Reached ⟨released.1, 0, [], [], []⟩ incidents :=
    ((hdial.snoc hstop).snoc hopened).snoc hclosed
  have hpunctual (n : Nat) : Punctual n incidents := by simp [Punctual, incidents, isLate]
  have hcurrent : released.1.current = none := by decide +kernel
  have hcount : (journalsOf 0 incidents).opened = 1 := by decide +kernel
  have hreplaced : replacedIn 0 incidents = 0 := by
    simp [replacedIn, incidents, replaces]
  clear_value incidents released
  obtain ⟨hlinks, -⟩ := Instant.connections_of_reached _ _ hreached
  obtain ⟨hbalance, -, hidle⟩ := hlinks 0 (hpunctual 0)
  have hclosed : (released.1.controls 0).link.IsClosed := hidle (by rw [hcurrent]; nofun)
  rw [hcount, hreplaced, hclosed.connections] at hbalance
  exact ⟨hreached, hpunctual, hcurrent, hcount, hbalance.symm⟩

open Dashboard Instant Incident in
/-- A drawing is started and stopped while its link is being opened.  The stop calls the background
task, whose attempt is the first to bring a connection.  Then that of the run brings another one,
which takes its place.  Once the link is closed no session is in use, but the first connection has
not come to an end. -/
theorem Instant.leaks_of_replaced :
    let ask (path : String) : Request :=
      ⟨Text.ofString "POST", Text.ofString "robot", Text.ofString path, [], []⟩
    let drawing := [Command.lineAt 0 1]
    let idle := Dashboard.new .standard (Text.ofString "config.json") []
      ⟨[.accepted, .accepted], []⟩
    let loaded := idle.receive (Utf8.encode (Text.ofString "0 1 rlinerot"))
    let dialed := loaded.2.1.engage.inSession 0 Session.dial
    let stopped := dialed.2.1.answer (ask "/stop")
    let settled := stopped.2.1.inSession 0 Session.settle
    let redial := settled.2.1.inSession 0 (Session.redial ⟨1, 0⟩)
    let redialed := redial.2.1.inSession 0 Session.redialed
    let ended := redialed.2.1.advance 0 drawing (Session.opening .accepted drawing)
    let released := (ended.2.1.conclude 0 .aborted).release 0
    let incidents := [.enter, .receive loaded.2.2, .grant 0, .act (some 0) [],
      .act (some 0) stopped.2.2, .act (some 0) settled.2.2, .act (some 0) redial.2.2,
      .act (some 0) redialed.2.2, .replace 0 ended.2.2, .act (some 0) released.2]
    Instant.Reached ⟨released.1, 0, [], [], []⟩ incidents ∧ (∀ n, Punctual n incidents) ∧
      released.1.current = none ∧ (journalsOf 0 incidents).opened = 2 ∧
      (journalsOf 0 incidents).ended = 1 := by
  intro ask drawing idle loaded dialed stopped settled redial redialed ended released incidents
  have hload : idle.receive (Utf8.encode (Text.ofString "0 1 rlinerot")) = loaded := rfl
  have hdialed : loaded.2.1.drawing = some drawing ∧ dialed.1 = .ok (some .accepted) := by
    decide +kernel
  have hdial : Instant.Reached ⟨dialed.2.1, 0, [], [⟨⟨0, drawing⟩, .accepted⟩], []⟩
      [.enter, .receive loaded.2.2, .grant 0, .act (some 0) []] := by
    have hreached := reached_dial ⟨_, _, _, _, rfl⟩ _ hdialed.1 hdialed.2
    rwa [hload] at hreached
  have hinUse : dialed.2.1.current = some 0 := rfl
  have hstop : Step ⟨dialed.2.1, 0, [], [⟨⟨0, drawing⟩, .accepted⟩], []⟩ (.act (some 0) stopped.2.2)
      ⟨stopped.2.1, 0, [], [⟨⟨0, drawing⟩, .accepted⟩], []⟩ := by
    have hanswer : stopped = dialed.2.1.answer (ask "/stop") := rfl
    rw [hanswer]
    exact .answer_of_current (ask "/stop") hinUse
  have hthere : 0 < stopped.2.1.sessions.length ∧ 0 < redial.2.1.sessions.length := by
    decide +kernel
  have hsettle : Step ⟨stopped.2.1, 0, [], [⟨⟨0, drawing⟩, .accepted⟩], []⟩
      (.act (some 0) settled.2.2) ⟨settled.2.1, 0, [], [⟨⟨0, drawing⟩, .accepted⟩], []⟩ := by
    have hsettled : settled = stopped.2.1.inSession 0 Session.settle := rfl
    rw [hsettled]
    exact .settle_of_opening _ _ hthere.1
  have hsleeper : .link 0 ⟨1, 0⟩ ∈ settled.2.1.sleepers := by
    rw [mem_sleepers_link]
    decide +kernel
  have hwake : Step ⟨settled.2.1, 0, [], [⟨⟨0, drawing⟩, .accepted⟩], []⟩
      (.act (some 0) redial.2.2) ⟨redial.2.1, 0, [], [⟨⟨0, drawing⟩, .accepted⟩], []⟩ := by
    have hredial : redial = settled.2.1.inSession 0 (Session.redial ⟨1, 0⟩) := rfl
    rw [hredial]
    exact .redial_of_opening _ _ hsleeper
  have hredialed : Step ⟨redial.2.1, 0, [], [⟨⟨0, drawing⟩, .accepted⟩], []⟩
      (.act (some 0) redialed.2.2) ⟨redialed.2.1, 0, [], [⟨⟨0, drawing⟩, .accepted⟩], []⟩ := by
    have hended : redialed = redial.2.1.inSession 0 Session.redialed := rfl
    rw [hended]
    exact .redialed_of_opening _ _ hthere.2
  have hadvance : ended = (some .aborted, ended.2.1, ended.2.2) := by
    have hstatus : ended.1 = some .aborted := by decide +kernel
    rw [← hstatus]
  have hconnections : ((ended.2.1.conclude 0 .aborted).controls 0).link.connections = 1 ∧
      (redialed.2.1.controls 0).link.connections = 1 := by
    decide +kernel
  have hopened : Step ⟨redialed.2.1, 0, [], [⟨⟨0, drawing⟩, .accepted⟩], []⟩
      (.replace 0 ended.2.2)
      ⟨ended.2.1.conclude 0 .aborted, 0, [], [], [⟨⟨0, drawing⟩, true⟩]⟩ := by
    have hstep := @Step.opened_of_closing _ _ _ _ 0 [] [] [] ⟨0, drawing⟩ .accepted hadvance
      (by rw [hconnections.1]; exact Nat.one_ne_zero)
    rwa [ofTurn, if_pos ⟨rfl, by rw [hconnections.2]; exact Nat.one_ne_zero⟩] at hstep
  have hclosed : Step ⟨ended.2.1.conclude 0 .aborted, 0, [], [], [⟨⟨0, drawing⟩, true⟩]⟩
      (.act (some 0) released.2) ⟨released.1, 0, [], [], []⟩ :=
    .hungUp _ _ _ _ _
  have hreached : Instant.Reached ⟨released.1, 0, [], [], []⟩ incidents :=
    (((((hdial.snoc hstop).snoc hsettle).snoc hwake).snoc hredialed).snoc
      hopened).snoc hclosed
  have hpunctual (n : Nat) : Punctual n incidents := by simp [Punctual, incidents, isLate]
  have hcount : (journalsOf 0 incidents).opened = 2 ∧ (journalsOf 0 incidents).ended = 1 := by
    decide +kernel
  have hcurrent : released.1.current = none := by decide +kernel
  exact ⟨hreached, hpunctual, hcurrent, hcount⟩

open Dashboard Instant Incident in
/-- The first frame of a run fails in a way that is not provided for, and the run is over while its
link has a connection.  A stop while this is being closed finds it closed already, and calls the
background task of a link whose background task was ended.  Once the link is closed no session is in
use, but this task goes on, and connects. -/
theorem Instant.leaks_of_late :
    let ask (path : String) : Request :=
      ⟨Text.ofString "POST", Text.ofString "robot", Text.ofString path, [], []⟩
    let drawing := [Command.lineAt 0 1]
    let failure := Status.failed ("Drawing failed: " ++ Fault.unexpected.message)
    let idle := Dashboard.new .standard (Text.ofString "config.json") []
      ⟨[.accepted, .accepted], [.unexpected, .closed]⟩
    let loaded := idle.receive (Utf8.encode (Text.ofString "0 1 rlinerot"))
    let dialed := loaded.2.1.engage.inSession 0 Session.dial
    let ended := dialed.2.1.advance 0 drawing (Session.opening .accepted drawing)
    let concluded := ended.2.1.conclude 0 failure
    let stopped := concluded.answer (ask "/stop")
    let abandoned := stopped.2.1.abandon 0
    let settled := abandoned.inSession 0 Session.settle
    let redial := settled.2.1.inSession 0 (Session.redial ⟨1, 0⟩)
    let redialed := redial.2.1.inSession 0 Session.redialed
    let incidents := [.enter, .receive loaded.2.2, .grant 0, .act (some 0) [],
      .act (some 0) ended.2.2, .late 0 stopped.2.2, .act (some 0) []]
    let more := [.act (some 0) settled.2.2, .act (some 0) redial.2.2, .act (some 0) redialed.2.2]
    Instant.Reached ⟨abandoned, 0, [], [], []⟩ incidents ∧ abandoned.current = none ∧
      Leads ⟨abandoned, 0, [], [], []⟩ more ⟨redialed.2.1, 0, [], [], []⟩ ∧
      redialed.2.1.current = none ∧ (journalsOf 0 more).opened = 1 ∧
      (redialed.2.1.controls 0).link.connections = 1 := by
  intro ask drawing failure idle loaded dialed ended concluded stopped abandoned settled
    redial redialed incidents
    more
  have hload : idle.receive (Utf8.encode (Text.ofString "0 1 rlinerot")) = loaded := rfl
  have hdialed : loaded.2.1.drawing = some drawing ∧ dialed.1 = .ok (some .accepted) := by
    decide +kernel
  have hdial : Instant.Reached ⟨dialed.2.1, 0, [], [⟨⟨0, drawing⟩, .accepted⟩], []⟩
      [.enter, .receive loaded.2.2, .grant 0, .act (some 0) []] := by
    have hreached := reached_dial ⟨_, _, _, _, rfl⟩ _ hdialed.1 hdialed.2
    rwa [hload] at hreached
  have hadvance : ended = (some failure, ended.2.1, ended.2.2) := by
    have hstatus : ended.1 = some failure := by decide +kernel
    rw [← hstatus]
  have hnone : (dialed.2.1.controls 0).link.connections = 0 := by decide +kernel
  have hconnections : (concluded.controls 0).link.connections = 1 ∧
      (stopped.2.1.controls 0).link.connections = 0 := by
    decide +kernel
  have hopened : Step ⟨dialed.2.1, 0, [], [⟨⟨0, drawing⟩, .accepted⟩], []⟩ (.act (some 0) ended.2.2)
      ⟨concluded, 0, [], [], [⟨⟨0, drawing⟩, true⟩]⟩ := by
    have hstep := @Step.opened_of_closing _ _ _ _ 0 [] [] [] ⟨0, drawing⟩ .accepted hadvance
      (by rw [hconnections.1]; exact Nat.one_ne_zero)
    rwa [ofTurn, if_neg fun hboth => hboth.2 hnone] at hstep
  have hinUse : concluded.current = some 0 := by decide +kernel
  have hsome : concluded.current ≠ none := by
    rw [hinUse]
    exact Option.some_ne_none 0
  have hlate : Step ⟨concluded, 0, [], [], [⟨⟨0, drawing⟩, true⟩]⟩ (.late 0 stopped.2.2)
      ⟨stopped.2.1, 0, [], [], [⟨⟨0, drawing⟩, false⟩]⟩ := by
    have hanswer : stopped = concluded.answer (ask "/stop") := rfl
    rw [hanswer] at hconnections ⊢
    refine @Step.late concluded 0 [] [] [] [] ⟨⟨0, drawing⟩, true⟩ (ask "/stop")
      (fun hgrants => hsome hgrants.2.1) (fun hadmits => hsome hadmits.2) hinUse ?_
    rw [hconnections.1, hconnections.2]
    exact Nat.one_pos
  have habandoned : Step ⟨stopped.2.1, 0, [], [], [⟨⟨0, drawing⟩, false⟩]⟩ (.act (some 0) [])
      ⟨abandoned, 0, [], [], []⟩ :=
    @Step.closed stopped.2.1 0 [] [] [] [] ⟨⟨0, drawing⟩, false⟩
  have hthere : 0 < abandoned.sessions.length ∧ 0 < redial.2.1.sessions.length := by
    decide +kernel
  have hsettle : Step ⟨abandoned, 0, [], [], []⟩ (.act (some 0) settled.2.2)
      ⟨settled.2.1, 0, [], [], []⟩ := by
    have hsettled : settled = abandoned.inSession 0 Session.settle := rfl
    rw [hsettled]
    exact .settle_of_opening _ _ hthere.1
  have hsleeper : .link 0 ⟨1, 0⟩ ∈ settled.2.1.sleepers := by
    rw [mem_sleepers_link]
    decide +kernel
  have hwake : Step ⟨settled.2.1, 0, [], [], []⟩ (.act (some 0) redial.2.2)
      ⟨redial.2.1, 0, [], [], []⟩ := by
    have hredial : redial = settled.2.1.inSession 0 (Session.redial ⟨1, 0⟩) := rfl
    rw [hredial]
    exact .redial_of_opening _ _ hsleeper
  have hredialed : Step ⟨redial.2.1, 0, [], [], []⟩ (.act (some 0) redialed.2.2)
      ⟨redialed.2.1, 0, [], [], []⟩ := by
    have hended : redialed = redial.2.1.inSession 0 Session.redialed := rfl
    rw [hended]
    exact .redialed_of_opening _ _ hthere.2
  have hreached : Instant.Reached ⟨abandoned, 0, [], [], []⟩ incidents :=
    ((hdial.snoc hopened).snoc hlate).snoc habandoned
  have hleads : Leads ⟨abandoned, 0, [], [], []⟩ more ⟨redialed.2.1, 0, [], [], []⟩ :=
    ((Leads.single hsettle).snoc hwake).snoc hredialed
  have hend : redialed.2.1.current = none ∧ (journalsOf 0 more).opened = 1 ∧
      (redialed.2.1.controls 0).link.connections = 1 := by
    decide +kernel
  exact ⟨hreached, rfl, hleads, hend⟩

end PenRover
