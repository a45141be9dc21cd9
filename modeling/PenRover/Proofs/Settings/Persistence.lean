import PenRover.Proofs.Disk
import PenRover.Proofs.Settings.AllOrNothing
import PenRover.Proofs.Value.RoundTrip
import PenRover.Settings.File

/-!
# Settings survive in their file

Settings begin as those of a file, which may hold any record or not exist, and are then updated,
saved and loaded again (`Settings.Reached`).  A file is read without surrogates, so what it gives is
sound; an update checks the kind of a value, so all it can add are numbers, flags and the text of an
address.  Therefore an address from an update is the only text that may have a pair of surrogates
(`Settings.Sound`).

When such settings are saved, the file denotes the settings with the pairs of the address joined:
everything else returns as it was, and saving what has returned leaves the disk as it is
(`Settings.load_of_save`).  An address with a pair does not return (`Settings.load_of_save_pair`).
-/

namespace PenRover

/-! ### Files of printable text -/

/-- A file of printable ASCII is read as it was written. -/
lemma Disk.readText_of_write {disk after : Disk} {name t : Text}
    (h : disk.write name (.bytes (Utf8.encode t)) = .ok after) (ht : Value.AllPrinted t) :
    after.readText name = .ok t := by
  have hascii : ∀ c ∈ t, c.val < 0x80 := fun c hc => (ht c hc).2.trans (by decide)
  have hreturn : CodePoint.ofChar '\r' ∉ t := fun hmem => absurd (ht _ hmem) (by decide)
  rw [Disk.readText, Disk.readBytes_of_write h]
  simp only [Utf8.decode_encode_of_ascii false hascii, Text.unifyLines_of_notMem hreturn]

namespace Settings

/-! ### The settings of a running program -/

/-- The settings are those of a file, after updates and saves.  A file may be loaded at any time,
and whatever the disk holds then. -/
inductive Reached (name : Text) : Disk → Settings → Prop
  | load {disk : Disk} {s : Settings} (h : load disk name = .ok s) : Reached name disk s
  | update {disk : Disk} {s t : Settings} (h : Reached name disk s) {entries : List (Text × Value)}
    (hshort : ∀ entry ∈ entries, ∀ n, entry.2 = .number n → n.Short)
    (hupdate : s.update entries = .ok t) : Reached name disk t
  | save {disk after : Disk} {s : Settings} (h : Reached name disk s)
    (hsave : s.save disk name = .ok after) : Reached name after s

/-- Every value is one that a file can denote, except that the address is any text. -/
def Sound (s : Settings) : Prop :=
  ∀ key, (s.get key).Sound Number.Short ∨ key = .robotUrl ∧ ∃ t, s.robotUrl = .text t

/-- The settings with the pairs of surrogates of the address joined. -/
def joined (s : Settings) : Settings :=
  match s.robotUrl with
  | .text t => { s with robotUrl := .text t.joined }
  | _ => s

/-- Joining pairs touches the address only. -/
lemma get_joined_of_ne (s : Settings) {key : Setting} (h : key ≠ .robotUrl) :
    s.joined.get key = s.get key := by
  unfold joined
  split
  · cases key <;> first | rfl | exact absurd rfl h
  · rfl

/-- The address with its pairs joined. -/
lemma robotUrl_joined {s : Settings} {t : Text} (h : s.robotUrl = .text t) :
    s.joined.robotUrl = .text t.joined := by
  unfold joined
  rw [h]

/-- An address that is no text has no pairs to join. -/
lemma joined_of_ne {s : Settings} (h : ∀ t, s.robotUrl ≠ .text t) : s.joined = s := by
  unfold joined
  split
  next t ht => exact absurd ht (h t)
  · rfl

/-- An address without pairs stays as it is. -/
lemma joined_of_unpaired {s : Settings} (h : ∀ t, s.robotUrl = .text t → t.Unpaired) :
    s.joined = s := by
  unfold joined
  split
  next t ht =>
    rw [Text.joined_of_unpaired (h t ht), ← ht]
  · rfl

/-! ### Every step keeps the values sound -/

/-- The default of every setting is one that a file can denote. -/
lemma sound_standard (key : Setting) : key.standard.Sound Number.Short := by
  have hpower : (Number.int 15).Short := by
    rw [Number.Short]
    decide
  cases key with
  | robotUrl => exact .text (Text.plain_ofString _).unpaired
  | dryRun => exact .flag false
  | turnPower => exact .number hpower
  | forwardPower => exact .number hpower
  | reconnectDelay => exact .number trivial
  | settleDelay => exact .number trivial
  | turnPhaseTime => exact .number trivial
  | forwardTimePerUnit => exact .number trivial

/-- Settings that take their values from a file have values that a file can denote. -/
lemma sound_ofFields {fields : List (Text × Value)} (h : (Value.record fields).Sound Number.Short) :
    (ofFields fields).Sound := by
  intro key
  left
  rw [ofFields, get_ofFunction]
  cases hfield : Value.field? (Text.ofString key.name) fields with
  | none => exact sound_standard key
  | some v =>
    cases h with
    | record hnames htexts hfields =>
      obtain ⟨f, hf, rfl⟩ := Option.map_eq_some_iff.mp hfield
      exact hfields f (List.mem_of_find?_eq_some hf)

/-- Settings that were loaded have values that a file can denote. -/
lemma sound_of_load {disk : Disk} {name : Text} {s : Settings} (h : load disk name = .ok s) :
    s.Sound := by
  unfold load at h
  split at h
  · split at h
    · exact nomatch h
    next text htext =>
      unfold ofText at h
      split at h
      · exact nomatch h
      next fields hread =>
        obtain rfl := Except.ok.inj h
        exact sound_ofFields (Value.sound_of_read (Disk.plain_of_readText htext) hread)
      · exact nomatch h
  · obtain rfl := Except.ok.inj h
    exact fun key => .inl (by rw [standard, get_ofFunction]; exact sound_standard key)

/-- What an update accepts for a setting is a number, a flag, or the text of an address. -/
lemma sound_of_accepts {key : Setting} {v : Value} (h : key.accepts v = true)
    (hshort : ∀ n, v = .number n → n.Short) :
    v.Sound Number.Short ∨ key = .robotUrl ∧ ∃ t, v = .text t := by
  cases v with
  | null => cases key <;> exact nomatch h
  | flag b => exact .inl (.flag b)
  | number n => exact .inl (.number (hshort n rfl))
  | text t =>
    cases key with
    | robotUrl => exact .inr ⟨rfl, t, rfl⟩
    | _ => exact nomatch h
  | list items => cases key <;> exact nomatch h
  | record fields => cases key <;> exact nomatch h

/-- A setting may be given a value that a file can denote, and the address any text. -/
lemma Sound.set {s : Settings} (h : s.Sound) {key : Setting} {v : Value}
    (hv : v.Sound Number.Short ∨ key = .robotUrl ∧ ∃ t, v = .text t) : (s.set key v).Sound := by
  intro other
  by_cases hkey : other = key
  · subst hkey
    rw [get_set_self]
    refine hv.imp_right ?_
    rintro ⟨rfl, t, rfl⟩
    exact ⟨rfl, t, rfl⟩
  · rw [get_set_of_ne s v hkey]
    refine (h other).imp_right ?_
    rintro ⟨rfl, t, ht⟩
    exact ⟨rfl, t, (get_set_of_ne s v hkey).trans ht⟩

/-- A change of an update is an entry that its setting accepts. -/
lemma exists_entry_of_checkAll {entries : List (Text × Value)} {changes : List (Setting × Value)}
    (h : checkAll entries = .ok changes) {change : Setting × Value} (hmem : change ∈ changes) :
    ∃ entry ∈ entries, entry.2 = change.2 ∧ change.1.accepts change.2 = true := by
  obtain ⟨rfl, hadmits⟩ := checkAll_eq_ok_iff.mp h
  exact ⟨entryOf change, List.mem_map_of_mem hmem, rfl,
    Setting.accepts_iff.mpr (hadmits change hmem)⟩

/-- Settings may be given such values one after another. -/
lemma Sound.foldl {s : Settings} (h : s.Sound) {changes : List (Setting × Value)}
    (hchanges : ∀ change ∈ changes,
      change.2.Sound Number.Short ∨ change.1 = .robotUrl ∧ ∃ t, change.2 = .text t) :
    (changes.foldl (fun s change => s.set change.1 change.2) s).Sound := by
  induction changes generalizing s with
  | nil => exact h
  | cons change changes ih =>
    exact ih (h.set (hchanges change List.mem_cons_self)) fun c hc =>
      hchanges c (List.mem_cons_of_mem _ hc)

/-- An update from a request gives the settings such values. -/
lemma Sound.update {s t : Settings} (h : s.Sound) {entries : List (Text × Value)}
    (hshort : ∀ entry ∈ entries, ∀ n, entry.2 = .number n → n.Short)
    (hupdate : s.update entries = .ok t) : t.Sound := by
  unfold Settings.update at hupdate
  cases hcheck : checkAll entries with
  | error error =>
    rw [hcheck] at hupdate
    exact nomatch hupdate
  | ok changes =>
    rw [hcheck] at hupdate
    obtain rfl := Except.ok.inj hupdate
    refine h.foldl fun change hmem => ?_
    obtain ⟨entry, hentry, heq, haccepts⟩ := exists_entry_of_checkAll hcheck hmem
    exact sound_of_accepts haccepts fun n hn => hshort entry hentry n (heq.trans hn)

/-- Settings that came about by loads, updates and saves have values that a file can denote. -/
lemma Reached.sound {name : Text} {disk : Disk} {s : Settings} (h : Reached name disk s) :
    s.Sound := by
  induction h with
  | load h => exact sound_of_load h
  | update h hshort hupdate ih => exact ih.update hshort hupdate
  | save h hsave ih => exact ih

/-! ### What the file denotes -/

section File

variable {s : Settings}

/-- Every value of sound settings is read back, the address with its pairs joined. -/
lemma Sound.returnsAs (h : s.Sound)
    (hdoubles : ∀ key x, Value.Occurs x (s.get key) → Number.ReadsBack (.double x))
    (key : Setting) :
    Value.ReturnsAs (s.get key) (s.joined.get key) := by
  by_cases hkey : key = .robotUrl
  · subst hkey
    change Value.ReturnsAs s.robotUrl s.joined.robotUrl
    by_cases htext : ∃ t, s.robotUrl = .text t
    · obtain ⟨t, ht⟩ := htext
      rw [robotUrl_joined ht, ht]
      exact Value.returnsAs_text t
    · have hsound : s.robotUrl.Sound Number.Short :=
        (h .robotUrl).resolve_right fun hurl => htext hurl.2
      rw [joined_of_ne fun t ht => htext ⟨t, ht⟩]
      exact (hsound.readsBack (hdoubles .robotUrl)).returnsAs
  · have hsound : (s.get key).Sound Number.Short := (h key).resolve_right fun hurl => hkey hurl.1
    rw [get_joined_of_ne s hkey]
    exact (hsound.readsBack (hdoubles key)).returnsAs

/-- The fields of a settings file have the names of the settings, in order. -/
lemma map_fst_toFields (s : Settings) :
    s.toFields.map Prod.fst = Setting.all.map fun key => Text.ofString key.name := by
  rw [toFields, List.map_map]
  rfl

/-- Settings are read back from their file when their values are. -/
lemma toValue_returnsAs (h : ∀ key, Value.ReturnsAs (s.get key) (s.joined.get key)) :
    Value.ReturnsAs s.toValue s.joined.toValue := by
  refine Value.returnsAs_record ?_ ?_
  · refine List.forall₂_map_left_iff.mpr (List.forall₂_map_right_iff.mpr (List.forall₂_same.mpr ?_))
    exact fun key _ => ⟨(Text.plain_ofString _).unpaired, rfl, h key⟩
  · rw [map_fst_toFields]
    decide

/-- Joining the pairs of the address does not change how a value is written. -/
lemma write_get_joined (s : Settings) (key : Setting) :
    (s.joined.get key).write fileStyle = (s.get key).write fileStyle := by
  by_cases hkey : key = .robotUrl
  · subst hkey
    change s.joined.robotUrl.write fileStyle = s.robotUrl.write fileStyle
    by_cases htext : ∃ t, s.robotUrl = .text t
    · obtain ⟨t, ht⟩ := htext
      rw [robotUrl_joined ht, ht]
      exact Value.writeText_joined t
    · rw [joined_of_ne fun t ht => htext ⟨t, ht⟩]
  · rw [get_joined_of_ne s hkey]

/-- Joining pairs does not change the file: a pair is written like the code point that it names. -/
lemma toText_joined (s : Settings) : s.joined.toText = s.toText := by
  have hfields (t : Settings) : Value.writeFields fileStyle t.toFields =
      Setting.all.map fun key => Value.writeText true (Text.ofString key.name) ++
        Text.ofString fileStyle.colon ++ (t.get key).write fileStyle := rfl
  simp only [toText, toValue, Value.write, hfields, write_get_joined]

/-- What is written under a name is loaded from it. -/
lemma load_of_returnsAs {disk after : Disk} {name : Text} {t : Settings}
    (h : Value.ReturnsAs s.toValue t.toValue) (hsave : s.save disk name = .ok after) :
    load after name = .ok t := by
  have htext := Disk.readText_of_write hsave (Value.allPrinted_write s.toValue)
  rw [load, if_pos (Disk.contains_of_write hsave), htext]
  simp only [ofText, toText, h.read]
  rfl

end File

/-- Settings that were loaded, updated, saved and loaded again in any order are in their file once
they are saved: every value is loaded as it was, unless an update gave an address with pairs of
surrogates, which are joined.  Saving what was loaded writes the same text and leaves the disk as it
is.  It is taken that the numeral of a finite double denotes it. -/
theorem load_of_save {name : Text} {disk after : Disk} {s : Settings} (h : Reached name disk s)
    (hsave : s.save disk name = .ok after)
    (hdoubles : ∀ key x, Value.Occurs x (s.get key) → Number.ReadsBack (.double x)) :
    ∃ t, load after name = .ok t ∧ t.toText = s.toText ∧ t.save after name = .ok after ∧
      ∀ key, t.get key = s.get key ∨ key = .robotUrl ∧
        ∃ url, s.robotUrl = .text url ∧ ¬ url.Unpaired ∧ t.robotUrl = .text url.joined := by
  have htext := toText_joined s
  refine ⟨s.joined, load_of_returnsAs (toValue_returnsAs (h.sound.returnsAs hdoubles)) hsave, htext,
    ?_, fun key => ?_⟩
  · rw [save, htext]
    exact Disk.write_of_write hsave
  · by_cases hpair : ∃ url, s.robotUrl = .text url ∧ ¬ url.Unpaired
    · obtain ⟨url, hurl, hpair⟩ := hpair
      by_cases hkey : key = .robotUrl
      · exact .inr ⟨hkey, url, hurl, hpair, robotUrl_joined hurl⟩
      · exact .inl (get_joined_of_ne s hkey)
    · push Not at hpair
      rw [joined_of_unpaired hpair]
      exact .inl rfl

/-- A double is read back when its numeral denotes it. -/
lemma readsBack_of_text {x : Float} {numeral : String} (hplace : jsonLayout.place x = numeral)
    (hread : Value.readNumber (Text.ofString numeral) = .ok (.double x, [])) :
    Number.ReadsBack (.double x) := by
  intro _
  rw [Value.writeNumber, hplace]
  exact hread

/-- The doubles of the default settings are read back. -/
lemma readsBack_standard {key : Setting} {x : Float} (h : Value.Occurs x key.standard) :
    Number.ReadsBack (.double x) := by
  cases key with
  | reconnectDelay =>
    cases h
    exact readsBack_of_text (show _ = "1.0" by decide +kernel) rfl
  | settleDelay =>
    cases h
    exact readsBack_of_text (show _ = "0.5" by decide +kernel) rfl
  | turnPhaseTime =>
    cases h
    exact readsBack_of_text (show _ = "1.3" by decide +kernel) rfl
  | forwardTimePerUnit =>
    cases h
    exact readsBack_of_text (show _ = "0.2" by decide +kernel) rfl
  | _ => exact nomatch h

/-- The doubles of the default settings are read back, setting by setting. -/
lemma readsBack_get_standard (key : Setting) (x : Float) (h : Value.Occurs x (standard.get key)) :
    Number.ReadsBack (.double x) := by
  rw [standard, get_ofFunction] at h
  exact readsBack_standard h

/-- The numerals of settings still denote their doubles when a setting has got a value without
doubles. -/
lemma readsBack_set {s : Settings}
    (h : ∀ key x, Value.Occurs x (s.get key) → Number.ReadsBack (.double x)) (changed : Setting)
    {v : Value} (hv : ∀ x, ¬ Value.Occurs x v) (key : Setting) (x : Float)
    (hx : Value.Occurs x ((s.set changed v).get key)) : Number.ReadsBack (.double x) := by
  by_cases hkey : key = changed
  · subst hkey
    rw [get_set_self] at hx
    exact absurd hx (hv x)
  · rw [get_set_of_ne _ _ hkey] at hx
    exact h key x hx

/-- There is no settings file at first.  A power is updated and saved, the file is loaded, a
rehearsal is asked for and saved, and then the file has both. -/
theorem load_of_save_reloaded :
    ∃ first saved reloaded second after t,
      standard.update [("turn_power", .int 30)] = .ok first ∧
      first.save [] "config.json" = .ok saved ∧ load saved "config.json" = .ok reloaded ∧
      reloaded.update [("dry_run", .flag true)] = .ok second ∧
      second.save saved "config.json" = .ok after ∧ load after "config.json" = .ok t ∧
      t.toText = second.toText ∧ t.turnPower = .int 30 ∧ t.dryRun = .flag true := by
  have hshort : (Number.int 30).Short := by
    rw [Number.Short]
    decide
  have hload : load [] "config.json" = .ok standard := rfl
  have hupdate : standard.update [("turn_power", .int 30)] =
      .ok (standard.set .turnPower (.int 30)) := rfl
  have hreached : Reached "config.json" [] (standard.set .turnPower (.int 30)) := by
    refine .update (.load hload) (List.forall_mem_singleton.mpr fun n hn => ?_) hupdate
    obtain rfl := Value.number.inj hn
    exact hshort
  have hpowers (x : Float) : ¬ Value.Occurs x (.int 30) := by
    intro hx
    cases hx
  have hflags (x : Float) : ¬ Value.Occurs x (.flag true) := by
    intro hx
    cases hx
  have hfirst := readsBack_set readsBack_get_standard .turnPower hpowers
  obtain ⟨reloaded, hagain, -, -, hkeys⟩ := load_of_save hreached rfl hfirst
  have hreturned (key : Setting) :
      reloaded.get key = (standard.set .turnPower (.int 30)).get key := by
    obtain hsame | ⟨-, url, hurl, hpair, -⟩ := hkeys key
    · exact hsame
    · obtain rfl := Value.text.inj hurl
      exact absurd (Text.plain_ofString _).unpaired hpair
  have hreset : reloaded.update [("dry_run", .flag true)] =
      .ok (reloaded.set .dryRun (.flag true)) := rfl
  have hreached' : Reached "config.json" _ (reloaded.set .dryRun (.flag true)) :=
    .update (.load hagain) (List.forall_mem_singleton.mpr fun n hn => Value.noConfusion hn) hreset
  have hreloaded (key : Setting) (x : Float) (hx : Value.Occurs x (reloaded.get key)) :
      Number.ReadsBack (.double x) := by
    rw [hreturned key] at hx
    exact hfirst key x hx
  obtain ⟨t, hlast, htext, -, hvalues⟩ :=
    load_of_save hreached' rfl (readsBack_set hreloaded .dryRun hflags)
  have hpower : t.turnPower = (reloaded.set .dryRun (.flag true)).turnPower :=
    (hvalues .turnPower).resolve_right fun hurl => Setting.noConfusion hurl.1
  have hrehearsal : t.dryRun = .flag true :=
    (hvalues .dryRun).resolve_right fun hurl => Setting.noConfusion hurl.1
  exact ⟨_, _, reloaded, _, _, t, hupdate, rfl, hagain, hreset, rfl, hlast, htext,
    hpower.trans (hreturned .turnPower), hrehearsal⟩

/-- An address of two surrogates that together name a code point comes from an update, and once it
is saved the file denotes the code point. -/
theorem load_of_save_pair :
    ∃ s t after, Reached "config.json" [] s ∧ s.save [] "config.json" = .ok after ∧
      (∀ key x, Value.Occurs x (s.get key) → Number.ReadsBack (.double x)) ∧
      load after "config.json" = .ok t ∧
      s.robotUrl = .text [CodePoint.ofNat 0xD83D, CodePoint.ofNat 0xDE00] ∧
      t.robotUrl = .text [CodePoint.ofNat 0x1F600] ∧ t.robotUrl ≠ s.robotUrl := by
  obtain ⟨url, hurl⟩ : ∃ url : Text, url = [CodePoint.ofNat 0xD83D, CodePoint.ofNat 0xDE00] :=
    ⟨_, rfl⟩
  have hjoined : url.joined = [CodePoint.ofNat 0x1F600] := by
    subst hurl
    decide
  have hload : load [] "config.json" = .ok standard := rfl
  have hupdate : standard.update [("robot_url", .text url)] =
      .ok (standard.set .robotUrl (.text url)) := rfl
  have hreached : Reached "config.json" [] (standard.set .robotUrl (.text url)) :=
    .update (.load hload) (List.forall_mem_singleton.mpr fun n hn => Value.noConfusion hn) hupdate
  have hsave : (standard.set .robotUrl (.text url)).save [] "config.json" =
      .ok [(["config.json"],
        .file (.bytes (Utf8.encode (standard.set .robotUrl (.text url)).toText)))] := rfl
  have hdoubles : ∀ key x, Value.Occurs x ((standard.set .robotUrl (.text url)).get key) →
      Number.ReadsBack (.double x) :=
    readsBack_set readsBack_get_standard .robotUrl fun x hx => nomatch hx
  have hagain := load_of_returnsAs (toValue_returnsAs (hreached.sound.returnsAs hdoubles)) hsave
  have hreturned : (standard.set .robotUrl (.text url)).joined.robotUrl =
      .text [CodePoint.ofNat 0x1F600] := hjoined ▸ robotUrl_joined rfl
  refine ⟨_, _, _, hreached, hsave, hdoubles, hagain, congrArg Value.text hurl, hreturned, ?_⟩
  rw [hreturned]
  intro heq
  have hlength := congrArg List.length (Value.text.inj heq)
  rw [hurl] at hlength
  exact absurd hlength (by decide)

end Settings

end PenRover
