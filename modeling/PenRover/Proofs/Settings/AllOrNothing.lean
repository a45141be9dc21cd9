import Mathlib.Data.List.Nodup
import Mathlib.Tactic.Lemma
import PenRover.Settings.File

/-!
# Updates of settings take effect as a whole

An entry of an update is valid when its name is that of a setting and its value is one that the
setting admits (`Settings.Valid`).  What a setting admits is written out here by name
(`Setting.Admits`): it is what the kind of the standard value comes to, where a flag is not an
integer and an integer is good for a time (`Setting.accepts_iff`).

An update reads its entries in order.  The first invalid one is its error
(`Settings.checkAll_eq_error_iff`); when there is none, the changes are the entries
(`Settings.checkAll_eq_ok_iff`), and making them one after the other gives every named setting its
value, since no name occurs twice, and leaves the others alone (`Settings.get_setAll_of_mem`,
`Settings.get_setAll_of_notMem`).

Settings that are kept in a variable are updated in place in two passes, one that checks and one
that stores (`Settings.updateInPlace`).  It stops in the first pass or not at all, so the variable
holds the updated settings or what it held before (`Settings.run_updateInPlace`).  Hence standard
settings stay of their kinds, whatever is tried on them (`Settings.WellTyped.afterAll`).
-/

namespace PenRover

namespace Setting

/-! ### The values that a setting admits -/

/-- The value is one that an update may give to the setting. -/
inductive Admits : Setting → Value → Prop
  | robotUrl (url : Text) : Admits .robotUrl (.text url)
  | dryRun (b : Bool) : Admits .dryRun (.flag b)
  | turnPower (n : Int) : Admits .turnPower (.int n)
  | forwardPower (n : Int) : Admits .forwardPower (.int n)
  | reconnectDelay (time : Number) : Admits .reconnectDelay (.number time)
  | settleDelay (time : Number) : Admits .settleDelay (.number time)
  | turnPhaseTime (time : Number) : Admits .turnPhaseTime (.number time)
  | forwardTimePerUnit (time : Number) : Admits .forwardTimePerUnit (.number time)

/-- The kind of the standard value decides what is admitted. -/
lemma accepts_iff {key : Setting} {v : Value} : key.accepts v = true ↔ key.Admits v := by
  constructor
  · intro h
    cases v with
    | null | list | record => cases key <;> exact nomatch h
    | flag b =>
      cases key with
      | dryRun => exact .dryRun b
      | _ => exact nomatch h
    | text t =>
      cases key with
      | robotUrl => exact .robotUrl t
      | _ => exact nomatch h
    | number n =>
      cases key with
      | robotUrl | dryRun => cases n <;> exact nomatch h
      | turnPower =>
        cases n with
        | int n => exact .turnPower n
        | double x => exact nomatch h
      | forwardPower =>
        cases n with
        | int n => exact .forwardPower n
        | double x => exact nomatch h
      | reconnectDelay => exact .reconnectDelay n
      | settleDelay => exact .settleDelay n
      | turnPhaseTime => exact .turnPhaseTime n
      | forwardTimePerUnit => exact .forwardTimePerUnit n
  · intro h
    cases h with
    | robotUrl | dryRun | turnPower | forwardPower => rfl
    | reconnectDelay time | settleDelay time | turnPhaseTime time | forwardTimePerUnit time =>
      cases time <;> rfl

/-- Every setting admits its standard value. -/
lemma admits_standard (key : Setting) : key.Admits key.standard := by
  rw [← accepts_iff]
  cases key <;> rfl

/-! ### The names of the settings -/

/-- Every setting is listed. -/
lemma mem_all (key : Setting) : key ∈ all := by
  cases key <;> decide

/-- Settings of one name are the same. -/
lemma eq_of_name_eq {key other : Setting}
    (h : Text.ofString key.name = Text.ofString other.name) : key = other := by
  revert key other
  have hnames : ∀ key ∈ all, ∀ other ∈ all,
      Text.ofString key.name = Text.ofString other.name → key = other := by
    decide
  intro key other h
  exact hnames key (mem_all key) other (mem_all other) h

/-- A setting that is found by a name has this name. -/
lemma eq_of_ofName? {name : Text} {key : Setting} (h : ofName? name = some key) :
    name = Text.ofString key.name := by
  have hfound := List.find?_some h
  exact eq_of_beq hfound

/-- A setting is found by its name, and by no other. -/
lemma ofName?_eq_some_iff {name : Text} {key : Setting} :
    ofName? name = some key ↔ name = Text.ofString key.name := by
  refine ⟨eq_of_ofName?, ?_⟩
  rintro rfl
  cases hfound : ofName? (Text.ofString key.name) with
  | none =>
    have hnone := List.find?_eq_none.mp hfound key (mem_all key)
    exact absurd (beq_self_eq_true _) hnone
  | some other => rw [eq_of_name_eq (eq_of_ofName? hfound)]

/-- No setting is found by a name that none has. -/
lemma ofName?_eq_none_iff {name : Text} :
    ofName? name = none ↔ ∀ key : Setting, name ≠ Text.ofString key.name := by
  constructor
  · intro h key hname
    rw [ofName?_eq_some_iff.mpr hname] at h
    exact nomatch h
  · intro h
    cases hfound : ofName? name with
    | none => rfl
    | some key => exact absurd (ofName?_eq_some_iff.mp hfound) (h key)

end Setting

namespace Settings

variable {s : Settings} {entry : Text × Value} {entries : List (Text × Value)}
  {changes : List (Setting × Value)} {error : UpdateError}

/-! ### Entries -/

/-- The entry gives a setting a value that the setting admits. -/
def Valid (entry : Text × Value) : Prop :=
  ∃ key : Setting, entry.1 = Text.ofString key.name ∧ key.Admits entry.2

/-- The entry is refused, and this is why: no setting has its name, or the setting of this name does
not admit its value. -/
inductive Refused : Text × Value → UpdateError → Prop
  | unknown {name : Text} (v : Value) (h : ∀ key : Setting, name ≠ Text.ofString key.name) :
    Refused (name, v) (.unknown name)
  | wrongKind {key : Setting} {v : Value} (h : ¬ key.Admits v) :
    Refused (Text.ofString key.name, v) (.wrongKind key v)

/-- The entry that makes a change. -/
def entryOf (change : Setting × Value) : Text × Value := (Text.ofString change.1.name, change.2)

/-- An entry passes its check when it makes a change that its setting admits. -/
lemma checkEntry_eq_ok_iff {change : Setting × Value} :
    checkEntry entry = .ok change ↔ entry = entryOf change ∧ change.1.Admits change.2 := by
  obtain ⟨name, v⟩ := entry
  obtain ⟨key, w⟩ := change
  unfold checkEntry entryOf
  constructor
  · intro h
    split at h
    next => exact nomatch h
    next found hfound =>
      split at h
      next haccepts =>
        obtain ⟨rfl, rfl⟩ := Prod.mk.inj (Except.ok.inj h)
        have hname := Setting.ofName?_eq_some_iff.mp hfound
        exact ⟨Prod.ext hname rfl, Setting.accepts_iff.mp haccepts⟩
      next => exact nomatch h
  · rintro ⟨heq, hadmits⟩
    obtain ⟨rfl, rfl⟩ := Prod.mk.inj heq
    simp only [Setting.ofName?_eq_some_iff.mpr rfl, Setting.accepts_iff.mpr hadmits, if_true]

/-- An entry fails its check with the error of its refusal. -/
lemma checkEntry_eq_error_iff : checkEntry entry = .error error ↔ Refused entry error := by
  obtain ⟨name, v⟩ := entry
  unfold checkEntry
  constructor
  · intro h
    split at h
    next hfound =>
      obtain rfl := Except.error.inj h
      exact .unknown v (Setting.ofName?_eq_none_iff.mp hfound)
    next key hfound =>
      split at h
      next => exact nomatch h
      next haccepts =>
        obtain rfl := Except.error.inj h
        obtain rfl := Setting.ofName?_eq_some_iff.mp hfound
        exact .wrongKind fun hadmits => haccepts (Setting.accepts_iff.mpr hadmits)
  · intro h
    cases h with
    | unknown v h => simp only [Setting.ofName?_eq_none_iff.mpr h]
    | wrongKind h =>
      simp only [Setting.ofName?_eq_some_iff.mpr rfl]
      rw [if_neg fun haccepts => h (Setting.accepts_iff.mp haccepts)]

/-- An entry is valid when it passes its check. -/
lemma valid_iff : Valid entry ↔ ∃ change, checkEntry entry = .ok change := by
  constructor
  · rintro ⟨key, hname, hadmits⟩
    exact ⟨(key, entry.2), checkEntry_eq_ok_iff.mpr ⟨Prod.ext hname rfl, hadmits⟩⟩
  · rintro ⟨change, h⟩
    obtain ⟨rfl, hadmits⟩ := checkEntry_eq_ok_iff.mp h
    exact ⟨change.1, rfl, hadmits⟩

/-- An entry is either valid or refused. -/
lemma not_valid_iff : ¬ Valid entry ↔ ∃ error, Refused entry error := by
  rw [valid_iff]
  cases h : checkEntry entry with
  | ok change =>
    refine iff_of_false (fun hnone => hnone ⟨change, rfl⟩) ?_
    rintro ⟨error, hrefused⟩
    rw [checkEntry_eq_error_iff.mpr hrefused] at h
    exact nomatch h
  | error error =>
    refine iff_of_true ?_ ⟨error, checkEntry_eq_error_iff.mp h⟩
    rintro ⟨change, hok⟩
    exact nomatch hok

/-! ### All entries of an update -/

/-- An entry that passes leaves the later ones to be checked. -/
lemma checkAll_cons_of_ok {change : Setting × Value} (h : checkEntry entry = .ok change) :
    checkAll (entry :: entries) = (checkAll entries).map (change :: ·) := by
  rw [checkAll, h]
  cases checkAll entries <;> rfl

/-- An entry that fails ends the check. -/
lemma checkAll_cons_of_error (h : checkEntry entry = .error error) :
    checkAll (entry :: entries) = .error error := by
  rw [checkAll, h]
  rfl

/-- The error of an update is that of its first invalid entry. -/
lemma checkAll_eq_error_iff : checkAll entries = .error error ↔
    ∃ before entry after, entries = before ++ entry :: after ∧ (∀ e ∈ before, Valid e) ∧
      Refused entry error := by
  constructor
  · intro h
    induction entries with
    | nil => exact nomatch h
    | cons first rest ih =>
      cases hfirst : checkEntry first with
      | error found =>
        rw [checkAll_cons_of_error hfirst] at h
        obtain rfl := Except.error.inj h
        exact ⟨[], first, rest, rfl, by simp, checkEntry_eq_error_iff.mp hfirst⟩
      | ok change =>
        rw [checkAll_cons_of_ok hfirst] at h
        cases hrest : checkAll rest with
        | ok changes =>
          rw [hrest] at h
          exact nomatch h
        | error found =>
          rw [hrest] at h
          obtain rfl := Except.error.inj h
          obtain ⟨before, entry, after, rfl, hvalid, hrefused⟩ := ih hrest
          refine ⟨first :: before, entry, after, rfl, ?_, hrefused⟩
          exact List.forall_mem_cons.mpr ⟨valid_iff.mpr ⟨change, hfirst⟩, hvalid⟩
  · rintro ⟨before, entry, after, rfl, hvalid, hrefused⟩
    induction before with
    | nil => exact checkAll_cons_of_error (checkEntry_eq_error_iff.mpr hrefused)
    | cons first before ih =>
      obtain ⟨hfirst, hbefore⟩ := List.forall_mem_cons.mp hvalid
      obtain ⟨change, hchange⟩ := valid_iff.mp hfirst
      rw [List.cons_append, checkAll_cons_of_ok hchange, ih hbefore]
      rfl

/-- The changes of an update are its entries, when all of them are valid. -/
lemma checkAll_eq_ok_iff : checkAll entries = .ok changes ↔
    entries = changes.map entryOf ∧ ∀ change ∈ changes, change.1.Admits change.2 := by
  constructor
  · intro h
    induction entries generalizing changes with
    | nil =>
      obtain rfl := Except.ok.inj h
      exact ⟨rfl, by simp⟩
    | cons first rest ih =>
      cases hfirst : checkEntry first with
      | error found =>
        rw [checkAll_cons_of_error hfirst] at h
        exact nomatch h
      | ok change =>
        rw [checkAll_cons_of_ok hfirst] at h
        cases hrest : checkAll rest with
        | error found =>
          rw [hrest] at h
          exact nomatch h
        | ok tail =>
          rw [hrest] at h
          obtain rfl := Except.ok.inj h
          obtain ⟨rfl, hadmits⟩ := checkEntry_eq_ok_iff.mp hfirst
          obtain ⟨rfl, htail⟩ := ih hrest
          exact ⟨rfl, List.forall_mem_cons.mpr ⟨hadmits, htail⟩⟩
  · rintro ⟨rfl, hadmits⟩
    induction changes with
    | nil => rfl
    | cons change changes ih =>
      obtain ⟨hfirst, hrest⟩ := List.forall_mem_cons.mp hadmits
      rw [List.map_cons, checkAll_cons_of_ok (checkEntry_eq_ok_iff.mpr ⟨rfl, hfirst⟩), ih hrest]
      rfl

/-- Entries that are all valid make changes. -/
lemma exists_changes (h : ∀ entry ∈ entries, Valid entry) :
    ∃ changes, checkAll entries = .ok changes := by
  cases hcheck : checkAll entries with
  | ok changes => exact ⟨changes, rfl⟩
  | error error =>
    obtain ⟨before, entry, after, rfl, -, hrefused⟩ := checkAll_eq_error_iff.mp hcheck
    exact absurd (h entry (by simp)) (not_valid_iff.mpr ⟨error, hrefused⟩)

/-- Entries of which one is not valid are refused. -/
lemma exists_error (h : ∃ entry ∈ entries, ¬ Valid entry) :
    ∃ error, checkAll entries = .error error := by
  obtain ⟨entry, hmem, hinvalid⟩ := h
  cases hcheck : checkAll entries with
  | error error => exact ⟨error, rfl⟩
  | ok changes =>
    obtain ⟨rfl, hadmits⟩ := checkAll_eq_ok_iff.mp hcheck
    obtain ⟨change, hchange, rfl⟩ := List.mem_map.mp hmem
    exact absurd ⟨change.1, rfl, hadmits change hchange⟩ hinvalid

/-! ### Making the changes -/

/-- The settings with these changes made one after the other. -/
def setAll (s : Settings) (changes : List (Setting × Value)) : Settings :=
  changes.foldl (fun s change => s.set change.1 change.2) s

/-- No changes change nothing. -/
@[simp] lemma setAll_nil (s : Settings) : s.setAll [] = s := rfl

/-- Changes are made one after another. -/
@[simp] lemma setAll_cons (s : Settings) (change : Setting × Value)
    (changes : List (Setting × Value)) :
    s.setAll (change :: changes) = (s.set change.1 change.2).setAll changes := rfl

/-- An update checks all entries and then makes all changes. -/
lemma update_eq (s : Settings) (entries : List (Text × Value)) :
    s.update entries = (checkAll entries).map s.setAll := by
  rw [update]
  cases checkAll entries <;> rfl

/-- Changes of other settings leave a setting as it is. -/
lemma get_setAll_of_notMem {key : Setting} (h : key ∉ changes.map Prod.fst) :
    (s.setAll changes).get key = s.get key := by
  induction changes generalizing s with
  | nil => rfl
  | cons change changes ih =>
    rw [List.map_cons, List.mem_cons, not_or] at h
    rw [setAll_cons, ih h.2, get_set_of_ne s change.2 h.1]

/-- A change that is made survives the later ones, which are changes of other settings. -/
lemma get_setAll_of_mem (hkeys : (changes.map Prod.fst).Nodup) {key : Setting} {v : Value}
    (hmem : (key, v) ∈ changes) : (s.setAll changes).get key = v := by
  induction changes generalizing s with
  | nil => exact nomatch hmem
  | cons change changes ih =>
    rw [List.map_cons, List.nodup_cons] at hkeys
    rw [setAll_cons]
    rcases List.mem_cons.mp hmem with rfl | hmem
    · rw [get_setAll_of_notMem hkeys.1, get_set_self]
    · exact ih hkeys.2 hmem

/-- The entries of changes have the names of their settings. -/
lemma map_fst_entryOf (changes : List (Setting × Value)) :
    (changes.map entryOf).map Prod.fst =
      (changes.map Prod.fst).map fun key => Text.ofString key.name := by
  rw [List.map_map, List.map_map]
  rfl

/-! ### Settings in a variable -/

/-- A step of an update of settings in a variable.  Where it stops with an error, the variable is
left as it is there. -/
abbrev Step := ExceptT UpdateError (StateM Settings) Unit

/-- The check of one entry. -/
def checkStep (entry : Text × Value) : Step :=
  ExceptT.mk fun s => ((checkEntry entry).map fun _ => (), s)

/-- The setting of this name gets the value, without a check. -/
def storeStep (entry : Text × Value) : Step :=
  modify fun s => match Setting.ofName? entry.1 with
    | some key => s.set key entry.2
    | none => s

/-- An update of settings in a variable: every entry is checked, and then every entry is stored. -/
def updateInPlace (entries : List (Text × Value)) : Step := do
  entries.forM checkStep
  entries.forM storeStep

/-- A step goes on from where the step before it left the settings, unless that failed. -/
lemma run_bind (first next : Step) (s : Settings) :
    (first >>= fun _ => next).run.run s =
      match first.run.run s with
      | (.ok _, t) => next.run.run t
      | (.error error, t) => (.error error, t) := by
  rw [ExceptT.run_bind, StateT.run_bind]
  rcases first.run.run s with ⟨error | _, t⟩ <;> rfl

/-- The checks leave the variable alone. -/
lemma run_forM_checkStep (entries : List (Text × Value)) (s : Settings) :
    (entries.forM checkStep).run.run s = ((checkAll entries).map fun _ => (), s) := by
  induction entries with
  | nil => rfl
  | cons entry entries ih =>
    change (checkStep entry >>= fun _ => entries.forM checkStep).run.run s = _
    cases h : checkEntry entry with
    | error error =>
      have hrun : (checkStep entry).run.run s = (.error error, s) := by
        rw [checkStep, h]
        rfl
      rw [run_bind, hrun, checkAll_cons_of_error h]
      rfl
    | ok change =>
      have hrun : (checkStep entry).run.run s = (.ok (), s) := by
        rw [checkStep, h]
        rfl
      simp only [run_bind, hrun, ih]
      rw [checkAll_cons_of_ok h]
      cases checkAll entries <;> rfl

/-- Storing the entries of changes makes the changes. -/
lemma run_forM_storeStep (changes : List (Setting × Value)) (s : Settings) :
    ((changes.map entryOf).forM storeStep).run.run s = (.ok (), s.setAll changes) := by
  induction changes generalizing s with
  | nil => rfl
  | cons change changes ih =>
    have hrun : (storeStep (entryOf change)).run.run s = (.ok (), s.set change.1 change.2) := by
      have hname : Setting.ofName? (entryOf change).1 = some change.1 :=
        Setting.ofName?_eq_some_iff.mpr rfl
      change ((Except.ok () : Except UpdateError Unit), _) = _
      rw [hname]
      rfl
    let rest : Step := (changes.map entryOf).forM storeStep
    change (storeStep (entryOf change) >>= fun _ => rest).run.run s = _
    simp only [run_bind, hrun, rest, ih]
    rfl

/-- An update in place stops before it stores anything, or it does what the update does. -/
lemma run_updateInPlace (entries : List (Text × Value)) (s : Settings) :
    (updateInPlace entries).run.run s =
      match s.update entries with
      | .ok t => (.ok (), t)
      | .error error => (.error error, s) := by
  have hchecks := run_forM_checkStep entries s
  rw [update_eq, updateInPlace]
  cases hcheck : checkAll entries with
  | error error =>
    simp only [run_bind, hchecks, hcheck]
    rfl
  | ok changes =>
    obtain ⟨rfl, -⟩ := checkAll_eq_ok_iff.mp hcheck
    have hstores := run_forM_storeStep changes s
    simp only [run_bind, hchecks, hcheck, Except.map, hstores]

/-! ### The kinds of the values -/

/-- Every setting has a value that it admits. -/
def WellTyped (s : Settings) : Prop := ∀ key : Setting, key.Admits (s.get key)

/-- The default of every setting is one that it admits. -/
lemma wellTyped_standard : standard.WellTyped := by
  intro key
  rw [standard, get_ofFunction]
  exact key.admits_standard

/-- A setting may be given what it admits. -/
lemma WellTyped.set (h : s.WellTyped) {key : Setting} {v : Value} (hv : key.Admits v) :
    (s.set key v).WellTyped := by
  intro other
  by_cases heq : other = key
  · subst heq
    rw [get_set_self]
    exact hv
  · rw [get_set_of_ne s v heq]
    exact h other

/-- Settings may be given what they admit. -/
lemma WellTyped.setAll (h : s.WellTyped)
    (hchanges : ∀ change ∈ changes, change.1.Admits change.2) : (s.setAll changes).WellTyped := by
  induction changes generalizing s with
  | nil => exact h
  | cons change changes ih =>
    obtain ⟨hfirst, hrest⟩ := List.forall_mem_cons.mp hchanges
    exact ih (h.set hfirst) hrest

/-- The settings in a variable after updates, whether these succeed or fail. -/
def afterAll (s : Settings) (updates : List (List (Text × Value))) : Settings :=
  updates.foldl (fun s entries => ((updateInPlace entries).run.run s).2) s

/-- An update keeps every setting at a value that it admits, whether it succeeds or fails. -/
lemma WellTyped.update (h : s.WellTyped) (entries : List (Text × Value)) :
    ((updateInPlace entries).run.run s).2.WellTyped := by
  rw [run_updateInPlace, update_eq]
  cases hcheck : checkAll entries with
  | error error => exact h
  | ok changes => exact h.setAll (checkAll_eq_ok_iff.mp hcheck).2

/-- Updates keep every setting at a value that it admits, whether they succeed or fail. -/
lemma WellTyped.afterAll (h : s.WellTyped) (updates : List (List (Text × Value))) :
    (s.afterAll updates).WellTyped := by
  induction updates generalizing s with
  | nil => exact h
  | cons entries updates ih => exact ih (h.update entries)

/-! ### All or nothing -/

/-- An update with an invalid entry fails with the error of the first one, and settings in a
variable stay as they are. -/
lemma update_of_invalid (h : ∃ entry ∈ entries, ¬ Valid entry) (s : Settings) :
    ∃ before entry after error, entries = before ++ entry :: after ∧ (∀ e ∈ before, Valid e) ∧
      Refused entry error ∧ s.update entries = .error error ∧
      (updateInPlace entries).run.run s = (.error error, s) := by
  obtain ⟨error, hcheck⟩ := exists_error h
  obtain ⟨before, entry, after, heq, hvalid, hrefused⟩ := checkAll_eq_error_iff.mp hcheck
  have hupdate : s.update entries = .error error := by
    rw [update_eq, hcheck]
    rfl
  refine ⟨before, entry, after, error, heq, hvalid, hrefused, hupdate, ?_⟩
  rw [run_updateInPlace, hupdate]

/-- An update without an invalid entry gives every setting that it names the value of its entry, and
leaves the others as they are. -/
lemma update_of_valid (hkeys : (entries.map Prod.fst).Nodup)
    (h : ∀ entry ∈ entries, Valid entry) (s : Settings) :
    ∃ t, s.update entries = .ok t ∧ (updateInPlace entries).run.run s = (.ok (), t) ∧
      ∀ key : Setting,
        (∀ v, (Text.ofString key.name, v) ∈ entries → t.get key = v) ∧
        (Text.ofString key.name ∉ entries.map Prod.fst → t.get key = s.get key) := by
  obtain ⟨changes, hcheck⟩ := exists_changes h
  have hupdate : s.update entries = .ok (s.setAll changes) := by
    rw [update_eq, hcheck]
    rfl
  obtain ⟨rfl, -⟩ := checkAll_eq_ok_iff.mp hcheck
  rw [map_fst_entryOf] at hkeys ⊢
  have hchanges : (changes.map Prod.fst).Nodup := List.Nodup.of_map _ hkeys
  refine ⟨s.setAll changes, hupdate, ?_, fun key => ⟨fun v hmem => ?_, fun hmem => ?_⟩⟩
  · rw [run_updateInPlace, hupdate]
  · obtain ⟨change, hchange, heq⟩ := List.mem_map.mp hmem
    obtain ⟨hname, rfl⟩ := Prod.mk.inj heq
    obtain rfl := Setting.eq_of_name_eq hname
    exact get_setAll_of_mem hchanges hchange
  · exact get_setAll_of_notMem fun hin => hmem (List.mem_map_of_mem hin)

/-- An update is all or nothing, and updates keep the kinds of the values.  If an entry has the name
of no setting or a value that its setting does not admit, the update fails with the error of the
first such entry, and settings that are updated in a variable are unchanged.  Otherwise every
setting that has an entry gets its value, and the others keep theirs.  So settings that begin
without a file have values that they admit after any updates, whether these succeed or fail. -/
theorem update_all_or_nothing (s : Settings) (entries : List (Text × Value))
    (hkeys : (entries.map Prod.fst).Nodup) :
    ((∃ entry ∈ entries, ¬ Valid entry) →
      ∃ before entry after error, entries = before ++ entry :: after ∧ (∀ e ∈ before, Valid e) ∧
        Refused entry error ∧ s.update entries = .error error ∧
        (updateInPlace entries).run.run s = (.error error, s)) ∧
    ((∀ entry ∈ entries, Valid entry) →
      ∃ t, s.update entries = .ok t ∧ (updateInPlace entries).run.run s = (.ok (), t) ∧
        ∀ key : Setting,
          (∀ v, (Text.ofString key.name, v) ∈ entries → t.get key = v) ∧
          (Text.ofString key.name ∉ entries.map Prod.fst → t.get key = s.get key)) ∧
    ∀ (disk : Disk) (name : Text), disk.contains name = false →
      ∃ initial, load disk name = .ok initial ∧
        ∀ updates : List (List (Text × Value)), (initial.afterAll updates).WellTyped := by
  refine ⟨fun h => update_of_invalid h s, fun h => update_of_valid hkeys h s, ?_⟩
  intro disk name hmissing
  refine ⟨standard, ?_, fun updates => wellTyped_standard.afterAll updates⟩
  rw [load, hmissing]
  rfl

/-- A power that is fine is not stored when the flag after it is an integer. -/
theorem update_all_or_nothing_late_error :
    (([("turn_power", .int 20), ("dry_run", .int 1)] : List (Text × Value)).map Prod.fst).Nodup ∧
      (updateInPlace [("turn_power", .int 20), ("dry_run", .int 1)]).run.run standard =
        (.error (.wrongKind .dryRun (.int 1)), standard) := by
  have hkeys : (([("turn_power", .int 20), ("dry_run", .int 1)] : List (Text × Value)).map
      Prod.fst).Nodup := by
    decide
  refine ⟨hkeys, ?_⟩
  have hkind : ¬ Setting.dryRun.Admits (.int 1) := nofun
  have hinvalid : ¬ Valid ("dry_run", .int 1) := not_valid_iff.mpr ⟨_, .wrongKind hkind⟩
  obtain ⟨-, -, -, error, -, -, -, hupdate, hrun⟩ :=
    (update_all_or_nothing standard _ hkeys).1 ⟨_, by simp, hinvalid⟩
  have herror : standard.update [("turn_power", .int 20), ("dry_run", .int 1)] =
      .error (.wrongKind .dryRun (.int 1)) := rfl
  rw [hrun, Except.error.inj (hupdate.symm.trans herror)]

end Settings

end PenRover
