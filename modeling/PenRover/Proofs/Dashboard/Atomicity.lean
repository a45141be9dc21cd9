import PenRover.Proofs.Dashboard.Uploads
import PenRover.Proofs.Settings.Persistence
import PenRover.Proofs.Value.Doubles

/-!
# Changes of the settings

A dashboard is started with the settings of its file.  From then on only requests for a change touch
the settings and the file, and they keep the settings sound (`Dashboard.Launched.sound`).

A change goes through four stages: it is checked, it is put into effect, it is saved, and it is
answered.  The check comes first, so a change that is refused leaves everything as it was.  What
fails later leaves the change in effect: a file that cannot be opened, or in which there is not
enough room, and an answer that cannot be written because a value is not finite or a text has a
surrogate.  So a change takes place as a whole or not at all exactly if it is refused, or can be
saved and answered, or changes nothing (`Dashboard.atomic_iff_of_launched`).  A change that is
answered with success is always read back from the file as it is in effect.
-/

namespace PenRover

open Dashboard

/-! ### Settings that can be shown -/

namespace Settings

/-- The settings can be written in an answer: their doubles are finite, and no text has a
surrogate. -/
def Showable (s : Settings) : Prop := s.toValue.isFinite = true ∧ s.toValue.Plain

/-- Settings can be shown when their doubles are finite and their texts are plain. -/
lemma showable_iff {s : Settings} :
    s.Showable ↔ ∀ key, (s.get key).isFinite = true ∧ (s.get key).Plain := by
  have hall : ∀ key, key ∈ Setting.all := by
    intro key
    cases key <;> decide
  have hfinite : s.toValue.isFinite = true ↔ ∀ key ∈ Setting.all, (s.get key).isFinite = true := by
    simp [toValue, toFields, Setting.all, Value.isFinite, Value.fieldsFinite]
  have hplain : s.toValue.Plain ↔ ∀ key ∈ Setting.all, (s.get key).Plain := by
    constructor
    · rintro (_ | _ | _ | _ | _ | ⟨-, h⟩) key hkey
      exact h _ (List.mem_map_of_mem hkey)
    · intro h
      refine .record ?_ ?_ <;> rw [toFields, List.forall_mem_map]
      · exact fun key _ => Text.plain_ofString key.name
      · exact h
  rw [Showable, hfinite, hplain]
  exact ⟨fun h key => ⟨h.1 key (hall key), h.2 key (hall key)⟩,
    fun h => ⟨fun key _ => (h key).1, fun key _ => (h key).2⟩⟩

/-- An address that can be shown has no pairs of surrogates. -/
lemma Showable.unpaired {s : Settings} (h : s.Showable) {t : Text} (ht : s.robotUrl = .text t) :
    t.Unpaired := by
  have hurl : s.robotUrl.Plain := (showable_iff.mp h .robotUrl).2
  rw [ht] at hurl
  cases hurl with
  | text hplain => exact hplain.unpaired

/-- Settings that found enough room were saved. -/
lemma save_of_saveWithin {s : Settings} {room : Option Nat} {disk : Disk} {name : Text}
    (h : (s.saveWithin room disk name).1 = none) :
    s.save disk name = .ok (s.saveWithin room disk name).2 := by
  unfold saveWithin at h ⊢
  obtain ⟨after, hwithin, hwrite⟩ | ⟨error, hwithin⟩ | ⟨n, after, hwithin, -⟩ :=
    disk.writeWithin_cases room name (Utf8.encode s.toText)
  · rw [hwithin]
    exact hwrite
  · rw [hwithin] at h
    exact nomatch h
  · rw [hwithin] at h
    exact nomatch h

/-- Sound settings that can be shown are loaded from the file in which they were saved. -/
lemma Sound.load_of_showable {s : Settings} (h : s.Sound) (hshow : s.Showable) {disk after : Disk}
    {name : Text} (hsave : s.save disk name = .ok after) : load after name = .ok s := by
  have hreturns := toValue_returnsAs (h.returnsAs fun _ x _ => Number.readsBack_double x)
  rw [joined_of_unpaired fun t => hshow.unpaired] at hreturns
  exact load_of_returnsAs hreturns hsave

end Settings

namespace Dashboard

variable {d : Dashboard}

/-! ### What touches the settings -/

/-- The settings, the name of their file, and the disk. -/
def files (d : Dashboard) : Settings × Text × Disk := (d.settings, d.settingsFile, d.disk)

/-- The settings of a dashboard, given all three. -/
lemma settings_of_files {settings : Settings} {rest : Text × Disk}
    (h : d.files = (settings, rest)) : d.settings = settings := congrArg Prod.fst h

/-- The disk of a dashboard, given all three. -/
lemma disk_of_files {settings : Settings} {file : Text} {disk : Disk}
    (h : d.files = (settings, file, disk)) : d.disk = disk := congrArg (fun files => files.2.2) h

/-- What a session does touches neither settings nor files. -/
lemma files_inSession {α : Type} (d : Dashboard) (n : Nat) (act : Act Session α) :
    (d.inSession n act).2.1.files = d.files := rfl

/-- Background tasks that have their turn touch neither settings nor files. -/
lemma files_settleSessions (numbers : List Nat) : (d.settleSessions numbers).1.files = d.files := by
  induction numbers generalizing d with
  | nil => rfl
  | cons n rest ih => exact ih.trans (files_inSession d n Session.settle)

/-- Background tasks that have their turn touch neither settings nor files. -/
lemma files_settle (d : Dashboard) : d.settle.1.files = d.files := files_settleSessions _

/-- A run that goes on touches neither settings nor files. -/
lemma files_proceed (d : Dashboard) (n : Nat) (drawing : List Command)
    (piece : Act Session (Session.Standing Outcome)) :
    (d.proceed n drawing piece).1.files = d.files := by
  have hfiles := files_inSession d n piece
  rw [proceed_eq]
  rcases hresult : d.inSession n piece with ⟨_ | ⟨outcome⟩ | ⟨alarm, next⟩, after, journal⟩ <;>
    rw [hresult] at hfiles <;> exact hfiles

/-- Who wakes touches neither settings nor files. -/
lemma files_wakeAndSettle (sleeper : Sleeper) : (d.wakeAndSettle sleeper).1.files = d.files := by
  have hwake : (d.wake sleeper).1.files = d.files := by
    cases sleeper with
    | drawing run =>
      rw [wake]
      exact files_proceed _ _ _ _
    | link n alarm => exact files_inSession d n (Session.wake alarm)
  exact (files_settle _).trans hwake

/-- A stop touches neither settings nor files. -/
lemma files_stop (d : Dashboard) : d.stop.2.1.files = d.files := by
  unfold stop
  split
  · rfl
  next n hcurrent =>
    have hfiles := files_inSession d n Session.stop
    rcases hresult : d.inSession n Session.stop with ⟨_ | _, after, journal⟩ <;>
      rw [hresult] at hfiles <;> exact hfiles

/-- What a request does to settings and files is done before anything settles. -/
lemma files_handle (request : Request) :
    (d.handle request).2.1.files = (d.answer request).2.1.files := by
  rw [handle_dashboard, files_settle]

/-- No service but the change of settings touches them. -/
lemma files_handle_of_not_asks {request : Request} (h : ¬ Asks request .changeSettings) :
    (d.handle request).2.1.files = d.files := by
  rw [files_handle]
  refine answer_induction (P := fun reply => reply.1.files = d.files) rfl (fun _ => ?_)
    (fun _ => ?_) (fun _ => files_stop d) (fun hasks => absurd hasks h)
  · unfold upload
    split
    · rfl
    · obtain hsame | ⟨drawing, status, note, hloaded, -⟩ := receive_cases d request.body
      · rw [hsame]
      · rw [hloaded]
        rfl
  · unfold start
    split
    · rfl
    · rfl
    · exact files_proceed _ _ _ _

/-! ### Changes -/

/-- The request asks for a valid change, after which the settings would be these. -/
def Changes (d : Dashboard) (request : Request) (settings : Settings) : Prop :=
  ∃ entries, request.fields = .ok entries ∧ d.settings.update entries = .ok settings

/-- The settings can be written to the settings file. -/
def CanSave (d : Dashboard) (settings : Settings) : Prop :=
  (settings.saveWithin d.room d.disk d.settingsFile).1 = none

/-- The disk after the settings were saved, as far as that was possible. -/
def savedDisk (d : Dashboard) (settings : Settings) : Disk :=
  (settings.saveWithin d.room d.disk d.settingsFile).2

/-- What a body that denotes no record is answered with. -/
lemma fields_eq_error {request : Request} {answer : Answer} (h : request.fields = .error answer) :
    answer = .unprocessable ∨ ∃ reason, answer = .refusal 400 reason := by
  unfold Request.fields at h
  dsimp only at h
  split at h
  · exact .inl (Except.error.inj h).symm
  · split at h
    · exact .inr ⟨_, (Except.error.inj h).symm⟩
    · split at h
      · exact nomatch h
      · exact .inl (Except.error.inj h).symm
      · exact .inl (Except.error.inj h).symm
      · exact .inr ⟨_, (Except.error.inj h).symm⟩

/-- A body that is written like a record denotes it. -/
lemma fields_of_write {request : Request} {fields : List (Text × Value)}
    (hjson : (request.body.isEmpty || !request.isJson) = false)
    (hdecode : Wide.decode? request.body = some ((Value.record fields).write fileStyle))
    (hsound : (Value.record fields).Sound Number.Short) : request.fields = .ok fields := by
  have hread := (hsound.readsBack fun x _ => Number.readsBack_double x).returnsAs.read
  simp only [Request.fields, hjson, hdecode, hread, Bool.false_eq_true, if_false]

/-- The fields of a request hold short numbers. -/
lemma fieldsShort_of_fields {request : Request} {entries : List (Text × Value)}
    (h : request.fields = .ok entries) : Value.FieldsShort entries := by
  unfold Request.fields at h
  dsimp only at h
  split at h
  · exact nomatch h
  · split at h
    · exact nomatch h
    · split at h
      next found hread =>
        obtain rfl := Except.ok.inj h
        exact Value.fieldsShort_of_read hread
      all_goals exact nomatch h

/-- What a change is answered with once it is saved. -/
def changed (settings : Settings) : Value :=
  Answer.record [("status", .text "success"), ("config", settings.toValue)]

/-- A change is answered when the new settings can be shown, and with them. -/
lemma check_changed_iff {settings : Settings} {body : Value} :
    (Answer.json 200 (changed settings)).check = .ok (.json 200 body) ↔
      body = changed settings ∧ settings.Showable := by
  have hshowable : (changed settings).isFinite = true ∧ (changed settings).Plain ↔
      settings.Showable := by
    have hfinite : (changed settings).isFinite = settings.toValue.isFinite :=
      Bool.and_true _
    rw [hfinite, Settings.Showable]
    refine and_congr_right fun _ => ⟨fun h => ?_, fun h => ?_⟩
    · cases h with
      | record hnames hfields => exact hfields _ (List.mem_cons_of_mem _ List.mem_cons_self)
    · exact Answer.plain_record (List.forall_mem_cons.mpr
        ⟨.text (Text.plain_ofString _), List.forall_mem_singleton.mpr h⟩)
  constructor
  · intro h
    obtain ⟨-, rfl⟩ := Answer.json.inj (Answer.check_eq_ok h)
    exact ⟨rfl, hshowable.mp (Answer.check_json_iff.mp h)⟩
  · rintro ⟨rfl, h⟩
    exact Answer.check_json_iff.mpr (hshowable.mpr h)

/-- A refusal is no success. -/
lemma not_success_of_refusal {code : Nat} (hcode : code ≠ 200) (reason : String) (body : Value) :
    (Except.ok (Answer.refusal code reason)).bind Answer.check ≠ .ok (.json 200 body) := by
  rw [Except.bind, Answer.check_refusal]
  rintro ⟨⟩
  exact hcode rfl

section Change

variable {entries : List (Text × Value)} {settings : Settings}

/-- An update that is refused leaves the dashboard as it is. -/
lemma changeSettings_of_refused {error : UpdateError}
    (h : d.settings.update entries = .error error) :
    ∃ reason, d.changeSettings entries = (.ok (.refusal 400 reason), d, []) := by
  cases error with
  | unknown name => exact ⟨_, by simp only [changeSettings, h]; rfl⟩
  | wrongKind key value => exact ⟨_, by simp only [changeSettings, h]; rfl⟩

/-- A valid change is in effect, and saved as far as that is possible. -/
lemma files_changeSettings (h : d.settings.update entries = .ok settings) :
    (d.changeSettings entries).2.1.files = (settings, d.settingsFile, d.savedDisk settings) := by
  simp only [changeSettings, h, savedDisk]
  rcases settings.saveWithin d.room d.disk d.settingsFile with
    ⟨_ | ⟨_ | _, name⟩ | _, disk⟩ <;> rfl

/-- Settings that cannot be saved are not answered with success. -/
lemma changeSettings_of_unsaved (h : d.settings.update entries = .ok settings)
    (hsave : ¬ d.CanSave settings) :
    (∃ mishap, (d.changeSettings entries).1 = .error mishap) ∨
      ∃ reason, (d.changeSettings entries).1 = .ok (.refusal 500 reason) := by
  unfold CanSave at hsave
  simp only [changeSettings, h]
  generalize settings.saveWithin d.room d.disk d.settingsFile = saved at hsave ⊢
  obtain ⟨_ | ⟨fault, name⟩ | _, disk⟩ := saved
  · exact absurd rfl hsave
  · cases fault with
    | badName => exact .inl ⟨_, rfl⟩
    | _ => exact .inr ⟨_, rfl⟩
  · exact .inr ⟨_, rfl⟩

/-- A change that can be saved is answered with the new settings. -/
lemma changeSettings_of_saved (h : d.settings.update entries = .ok settings)
    (hsave : d.CanSave settings) :
    (d.changeSettings entries).1 = .ok (.json 200 (changed settings)) := by
  unfold CanSave at hsave
  simp only [changeSettings, h, hsave]
  rfl

end Change

section Request

variable {request : Request} (hrequest : Asks request .changeSettings)

include hrequest

/-- A request for a change is replied to with the checked answer of its service, which leaves
settings and files as they stay. -/
lemma handle_change :
    (d.handle request).1 = (d.serve request .changeSettings).1.bind Answer.check ∧
      (d.handle request).2.1.files = (d.serve request .changeSettings).2.1.files := by
  rw [handle_result, files_handle, answer_of_asks hrequest]
  exact ⟨rfl, rfl⟩

/-- A request that asks for no valid change is refused, and changes nothing. -/
lemma handle_of_not_changes (h : ∀ settings, ¬ d.Changes request settings) :
    ¬ d.Accepts request ∧ (d.handle request).2.1.files = d.files := by
  obtain ⟨hresult, hfiles⟩ := handle_change hrequest (d := d)
  rw [Accepts, hresult, hfiles, serve]
  cases hfields : request.fields with
  | error answer =>
    refine ⟨?_, rfl⟩
    rintro ⟨body, hbody⟩
    obtain rfl | ⟨reason, rfl⟩ := fields_eq_error hfields
    · cases hbody
    · exact not_success_of_refusal (by decide) reason body hbody
  | ok entries =>
    cases hupdate : d.settings.update entries with
    | ok settings => exact absurd ⟨entries, hfields, hupdate⟩ (h settings)
    | error error =>
      obtain ⟨reason, hchange⟩ := changeSettings_of_refused hupdate
      dsimp only
      rw [hchange]
      refine ⟨?_, rfl⟩
      rintro ⟨body, hbody⟩
      exact not_success_of_refusal (by decide) reason body hbody

/-- A valid change is in effect whatever comes next.  It is answered with success if it can be saved
and shown. -/
lemma handle_of_changes {settings : Settings} (h : d.Changes request settings) :
    (d.Accepts request ↔ d.CanSave settings ∧ settings.Showable) ∧
      (d.handle request).2.1.files = (settings, d.settingsFile, d.savedDisk settings) := by
  obtain ⟨hresult, hfiles⟩ := handle_change hrequest (d := d)
  obtain ⟨entries, hentries, hupdate⟩ := h
  rw [Accepts, hresult, hfiles, serve, hentries]
  dsimp only
  refine ⟨?_, files_changeSettings hupdate⟩
  by_cases hsave : d.CanSave settings
  · rw [changeSettings_of_saved hupdate hsave, Except.bind, and_iff_right hsave]
    simp only [check_changed_iff, exists_eq_left]
  · refine iff_of_false ?_ fun h => hsave h.1
    rintro ⟨body, hbody⟩
    obtain ⟨mishap, hmishap⟩ | ⟨reason, hreason⟩ := changeSettings_of_unsaved hupdate hsave
    · rw [hmishap] at hbody
      cases hbody
    · rw [hreason] at hbody
      exact not_success_of_refusal (by decide) reason body hbody

end Request

/-! ### Dashboards with the settings of their file -/

/-- The dashboard was started with the settings of its file, and has come about by requests and
wake-ups in any order.  The disk, and the room on it, may change at any time. -/
inductive Launched : Dashboard → Prop
  | new {settings : Settings} {settingsFile : Text} {disk : Disk} (air : Air)
    (h : Settings.load disk settingsFile = .ok settings) :
    Launched (Dashboard.new settings settingsFile disk air)
  | request {d : Dashboard} (h : d.Launched) (request : Request) : Launched (d.handle request).2.1
  | wake {d : Dashboard} (h : d.Launched) (sleeper : Sleeper) :
    Launched (d.wakeAndSettle sleeper).1
  | disk {d : Dashboard} (h : d.Launched) (disk : Disk) (room : Option Nat) :
    Launched { d with disk, room }

/-- Whatever is asked for, sound settings stay sound. -/
lemma sound_handle (h : d.settings.Sound) (request : Request) :
    (d.handle request).2.1.settings.Sound := by
  by_cases hrequest : Asks request .changeSettings
  · by_cases hchanges : ∃ settings, d.Changes request settings
    · obtain ⟨settings, hsettings⟩ := hchanges
      have hafter := settings_of_files (handle_of_changes hrequest hsettings).2
      obtain ⟨entries, hentries, hupdate⟩ := hsettings
      rw [hafter]
      exact h.update (fieldsShort_of_fields hentries) hupdate
    · have hafter := handle_of_not_changes hrequest (not_exists.mp hchanges)
      rwa [settings_of_files hafter.2]
  · rwa [settings_of_files (files_handle_of_not_asks hrequest)]

/-- A dashboard that was started has settings that its file can denote. -/
lemma Launched.sound (h : d.Launched) : d.settings.Sound := by
  induction h with
  | new air h => exact Settings.sound_of_load h
  | request h request ih => exact sound_handle ih request
  | wake h sleeper ih => rwa [settings_of_files (files_wakeAndSettle sleeper)]
  | disk h disk room ih => exact ih

/-! ### All or nothing -/

/-- The file holds the settings that are in effect. -/
def Kept (d : Dashboard) : Prop := Settings.load d.disk d.settingsFile = .ok d.settings

/-- The request changes nothing if it fails, and otherwise leaves the settings in their file as they
are in effect. -/
structure Atomic (d : Dashboard) (request : Request) : Prop where
  failed : ¬ d.Accepts request → (d.handle request).2.1.files = d.files
  accepted : d.Accepts request → (d.handle request).2.1.Kept

/-- A change that is answered with success is in the file. -/
lemma kept_of_accepts (h : d.settings.Sound) {request : Request}
    (hrequest : Asks request .changeSettings) (haccepts : d.Accepts request) :
    (d.handle request).2.1.Kept := by
  by_cases hchanges : ∃ settings, d.Changes request settings
  · obtain ⟨settings, hsettings⟩ := hchanges
    obtain ⟨haccepts_iff, hfiles⟩ := handle_of_changes hrequest hsettings
    obtain ⟨hsave, hshow⟩ := haccepts_iff.mp haccepts
    obtain ⟨entries, hentries, hupdate⟩ := hsettings
    have hsound := h.update (fieldsShort_of_fields hentries) hupdate
    simp only [files, Prod.mk.injEq] at hfiles
    obtain ⟨hsettings, hfile, hdisk⟩ := hfiles
    rw [Kept, hsettings, hfile, hdisk]
    exact hsound.load_of_showable hshow (Settings.save_of_saveWithin hsave)
  · exact absurd haccepts (handle_of_not_changes hrequest (not_exists.mp hchanges)).1

/-- A valid change that cannot be saved or cannot be shown is in effect all the same. -/
lemma not_atomic_of_changes {request : Request} (hrequest : Asks request .changeSettings)
    {settings : Settings} (hchanges : d.Changes request settings)
    (hfails : ¬ (d.CanSave settings ∧ settings.Showable)) (hne : settings ≠ d.settings) :
    ¬ d.Accepts request ∧ (d.handle request).2.1.settings = settings ∧ ¬ d.Atomic request := by
  obtain ⟨haccepts, hfiles⟩ := handle_of_changes hrequest hchanges
  have hrefused := mt haccepts.mp hfails
  have hafter := settings_of_files hfiles
  refine ⟨hrefused, hafter, fun hatomic => hne ?_⟩
  rw [← hafter, settings_of_files (hatomic.failed hrefused)]

end Dashboard

open Dashboard in
/-- Of every dashboard that was started with the settings of its file, and of every request for a
change.  The request takes effect as a whole or not at all if and only if the change that it asks
for can be saved and shown, or changes nothing, or is no valid one.  What is no valid change leaves
the settings and the disk as they were.  A valid change is in effect whatever comes next, and is on
the disk if it can be saved; it is answered with success exactly if it can be saved and shown, and
then the file is loaded as the settings that are in effect. -/
theorem Dashboard.atomic_iff_of_launched (d : Dashboard) (h : d.Launched) (request : Request)
    (hrequest : Asks request .changeSettings) :
    (d.Atomic request ↔ ∀ settings, d.Changes request settings →
      d.CanSave settings ∧ settings.Showable ∨
        settings = d.settings ∧ d.savedDisk settings = d.disk) ∧
    ((∀ settings, ¬ d.Changes request settings) →
      ¬ d.Accepts request ∧ (d.handle request).2.1.files = d.files) ∧
    (∀ settings, d.Changes request settings →
      (d.Accepts request ↔ d.CanSave settings ∧ settings.Showable) ∧
      (d.handle request).2.1.files = (settings, d.settingsFile, d.savedDisk settings)) ∧
    (d.Accepts request → (d.handle request).2.1.Kept) := by
  have hkept := kept_of_accepts h.sound hrequest
  refine ⟨?_, handle_of_not_changes hrequest, fun _ => handle_of_changes hrequest, hkept⟩
  constructor
  · intro hatomic settings hchanges
    obtain ⟨haccepts, hfiles⟩ := handle_of_changes hrequest hchanges
    by_cases hsuccess : d.Accepts request
    · exact .inl (haccepts.mp hsuccess)
    · -- a change that fails is made all the same, so it must be none
      have hsame := hfiles.symm.trans (hatomic.failed hsuccess)
      simp only [files, Prod.mk.injEq, true_and] at hsame
      exact .inr hsame
  · intro hall
    refine ⟨fun hfails => ?_, hkept⟩
    by_cases hchanges : ∃ settings, d.Changes request settings
    · obtain ⟨settings, hsettings⟩ := hchanges
      obtain ⟨haccepts, hfiles⟩ := handle_of_changes hrequest hsettings
      obtain hshown | ⟨hsame, hdisk⟩ := hall settings hsettings
      · exact absurd (haccepts.mpr hshown) hfails
      · rw [hfiles, hdisk, hsame, files]
    · exact (handle_of_not_changes hrequest (not_exists.mp hchanges)).2

open Dashboard in
/-- A flag is set. -/
theorem Dashboard.atomic_iff_of_launched_flag :
    let d := Dashboard.new .standard (Text.ofString "config.json") [] ⟨[], []⟩
    let request : Request := ⟨Text.ofString "POST", Text.ofString "robot", Text.ofString "/config",
      [], Utf8.encode (Text.ofString "\x7b\"dry_run\": true\x7d")⟩
    d.Launched ∧ Asks request .changeSettings ∧ d.Atomic request ∧ d.Accepts request ∧
      (d.handle request).2.1.settings = d.settings.set .dryRun (.flag true) := by
  intro d request
  have hlaunched : d.Launched := .new _ rfl
  have hasks : Asks request .changeSettings := by
    unfold Asks
    decide +kernel
  have hfields : request.fields = .ok [("dry_run", .flag true)] := by
    refine fields_of_write (by decide +kernel) (by decide +kernel) (.record (by decide) ?_ ?_)
    · exact List.forall_mem_singleton.mpr (Text.plain_ofString _).unpaired
    · exact List.forall_mem_singleton.mpr (.flag true)
  have hupdate : d.settings.update [("dry_run", .flag true)] =
      .ok (d.settings.set .dryRun (.flag true)) := rfl
  have hsave : d.CanSave (d.settings.set .dryRun (.flag true)) :=
    Option.isNone_iff_eq_none.mp (by decide +kernel)
  have hshow : (d.settings.set .dryRun (.flag true)).Showable := by
    refine Settings.showable_iff.mpr fun key => ?_
    cases key with
    | robotUrl => exact ⟨rfl, .text (Text.plain_ofString _)⟩
    | dryRun => exact ⟨rfl, .flag true⟩
    | _ => exact ⟨by decide +kernel, .number _⟩
  clear_value d request
  obtain ⟨hatomic, -, hvalid, -⟩ := Dashboard.atomic_iff_of_launched d hlaunched request hasks
  have hchanges : d.Changes request (d.settings.set .dryRun (.flag true)) := ⟨_, hfields, hupdate⟩
  obtain ⟨haccepts, hfiles⟩ := hvalid _ hchanges
  refine ⟨hlaunched, hasks, hatomic.mpr ?_, haccepts.mpr ⟨hsave, hshow⟩, settings_of_files hfiles⟩
  rintro settings ⟨entries, hentries, hupdated⟩
  obtain rfl := Except.ok.inj (hfields.symm.trans hentries)
  obtain rfl := Except.ok.inj (hupdate.symm.trans hupdated)
  exact .inl ⟨hsave, hshow⟩

open Dashboard in
/-- A delay that is not a number is in effect and on the disk, but there is no answer.  Settings
whose file would be in a folder that is not there cannot be saved, and are in effect all the same.
So are settings for which there is no room, and the file that held settings before is left empty and
cannot be loaded any more. -/
theorem Dashboard.not_atomic_of_launched_nan :
    let ask (body : String) : Request :=
      ⟨Text.ofString "POST", Text.ofString "robot", Text.ofString "/config", [],
        Utf8.encode (Text.ofString body)⟩
    let d (file : String) := Dashboard.new .standard (Text.ofString file) [] ⟨[], []⟩
    let full : Dashboard := { d "config.json" with
      disk := [([Text.ofString "config.json"],
        .file (.bytes (Utf8.encode Settings.standard.toText)))]
      room := some 0 }
    let nan := ask "\x7b\"settle_delay\": NaN\x7d"
    let flag := ask "\x7b\"dry_run\": true\x7d"
    ((d "config.json").Launched ∧ Asks nan .changeSettings ∧ ¬ (d "config.json").Accepts nan ∧
      ((d "config.json").handle nan).2.1.settings.settleDelay = .double (0 / 0) ∧
      ¬ (d "config.json").Atomic nan) ∧
    ((d "missing/config.json").Launched ∧ Asks flag .changeSettings ∧
      ¬ (d "missing/config.json").Accepts flag ∧
      ((d "missing/config.json").handle flag).2.1.settings.dryRun = .flag true ∧
      ¬ (d "missing/config.json").Atomic flag) ∧
    full.Launched ∧ ¬ full.Accepts flag ∧
      Settings.load (full.handle flag).2.1.disk "config.json" = .error (.json .malformed) ∧
      ¬ full.Atomic flag := by
  intro ask d full nan flag
  have hnan : Asks nan .changeSettings := by
    unfold Asks
    decide +kernel
  have hflag : Asks flag .changeSettings := by
    unfold Asks
    decide +kernel
  have hnanFields : nan.fields = .ok [("settle_delay", .double (0 / 0))] := by
    refine fields_of_write (by decide +kernel) (by decide +kernel) (.record (by decide) ?_ ?_)
    · exact List.forall_mem_singleton.mpr (Text.plain_ofString _).unpaired
    · exact List.forall_mem_singleton.mpr (.number trivial)
  have hflagFields : flag.fields = .ok [("dry_run", .flag true)] := by
    refine fields_of_write (by decide +kernel) (by decide +kernel) (.record (by decide) ?_ ?_)
    · exact List.forall_mem_singleton.mpr (Text.plain_ofString _).unpaired
    · exact List.forall_mem_singleton.mpr (.flag true)
  have hhidden : ¬ (Settings.standard.set .settleDelay (.double (0 / 0))).Showable := fun h =>
    absurd (Settings.showable_iff.mp h .settleDelay).1 (by decide +kernel)
  have hunsaved : ¬ (d "missing/config.json").CanSave
      (Settings.standard.set .dryRun (.flag true)) :=
    nofun
  have hcut : ¬ full.CanSave (Settings.standard.set .dryRun (.flag true)) := fun h =>
    absurd (Option.isNone_iff_eq_none.mpr h) (by decide +kernel)
  have hdelayed : Settings.standard.set .settleDelay (.double (0 / 0)) ≠ Settings.standard := by
    intro h
    have hdelay : Value.double (0 / 0) = Value.double 0.5 := congrArg Settings.settleDelay h
    exact absurd (Number.double.inj (Value.number.inj hdelay)) (by decide +kernel)
  have hflagged : Settings.standard.set .dryRun (.flag true) ≠ Settings.standard := by
    intro h
    have hflag : Value.flag true = Value.flag false := congrArg Settings.dryRun h
    exact nomatch hflag
  obtain ⟨hrefused, hafter, hpartial⟩ := not_atomic_of_changes (d := d "config.json") hnan
    ⟨_, hnanFields, rfl⟩ (fun h => hhidden h.2) hdelayed
  obtain ⟨hrefused', hafter', hpartial'⟩ := not_atomic_of_changes (d := d "missing/config.json")
    hflag ⟨_, hflagFields, rfl⟩ (fun h => hunsaved h.1) hflagged
  have hlaunched : (d "config.json").Launched := .new _ rfl
  have hfull : full.Launched := hlaunched.disk _ _
  have hfullChanges : full.Changes flag (Settings.standard.set .dryRun (.flag true)) :=
    ⟨_, hflagFields, rfl⟩
  obtain ⟨hrefused'', -, hpartial''⟩ :=
    not_atomic_of_changes hflag hfullChanges (fun h => hcut h.1) hflagged
  have hdisk : (full.handle flag).2.1.disk =
      full.savedDisk (Settings.standard.set .dryRun (.flag true)) :=
    disk_of_files (handle_of_changes hflag hfullChanges).2
  refine ⟨⟨hlaunched, hnan, hrefused, ?_, hpartial⟩,
    ⟨.new _ rfl, hflag, hrefused', ?_, hpartial'⟩, hfull, hrefused'', ?_, hpartial''⟩
  · rw [hafter]
    rfl
  · rw [hafter']
    rfl
  · rw [hdisk]
    rfl

end PenRover
