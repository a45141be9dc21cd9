import PenRover.Dashboard.Reply
import PenRover.Proofs.Text.Encoding

/-!
# Answers that can be written

An answer is written in two steps, and either can fail: JSON has no numeral for a double that is not
finite, and UTF-8 has no bytes for a surrogate.  The writer keeps every code point of a text but for
a few that it escapes, so the written value has a surrogate exactly when one of its texts has
(`Value.plain_write_iff`).  Hence a value can be answered exactly when its doubles are finite and
its texts are plain (`Answer.check_json_iff`).
-/

namespace PenRover

namespace Text

/-- Two texts are plain together when both are. -/
@[simp] lemma plain_append {t u : Text} : (t ++ u).Plain ↔ t.Plain ∧ u.Plain :=
  List.forall_mem_append

/-- A text that is written piece by piece is plain when its pieces are. -/
lemma plain_flatMap {f : CodePoint → Text} {t : Text} :
    Text.Plain (t.flatMap f) ↔ ∀ c ∈ t, (f c).Plain := by
  simp only [Plain, List.mem_flatMap]
  constructor
  · exact fun h c hc d hd => h d ⟨c, hc, hd⟩
  · rintro h d ⟨c, hc, hd⟩
    exact h c hc d hd

end Text

/-! ### Values -/

namespace Value

/-- No text in the value has a surrogate. -/
inductive Plain : Value → Prop
  | null : Plain .null
  | flag (b : Bool) : Plain (.flag b)
  | number (n : Number) : Plain (.number n)
  | text {t : Text} (h : t.Plain) : Plain (.text t)
  | list {items : List Value} (h : ∀ v ∈ items, Plain v) : Plain (.list items)
  | record {fields : List (Text × Value)} (hnames : ∀ f ∈ fields, f.1.Plain)
    (h : ∀ f ∈ fields, Plain f.2) : Plain (.record fields)

/-- A surrogate is no code point that is escaped. -/
lemma plain_escapePoint {c : CodePoint} :
    (escapePoint false c).Plain ↔ c.isSurrogate = false := by
  have hliteral (s : String) (hc : c.val < 0xD800) :
      (Text.ofString s).Plain ↔ c.isSurrogate = false :=
    iff_of_true (Text.plain_ofString s) (CodePoint.isSurrogate_eq_false_iff.mpr (.inl hc))
  unfold escapePoint
  split
  case h_8 n =>
    split
    next hlow => exact hliteral _ (by omega)
    · rw [if_pos (.inl rfl)]
      exact List.forall_mem_singleton
  all_goals exact hliteral _ (by omega)

/-- A text is written in an answer as a plain text when it is one. -/
lemma plain_writeText {t : Text} : (writeText false t).Plain ↔ t.Plain := by
  have hquote : (Text.ofString "\"").Plain := Text.plain_ofString _
  simp only [writeText, Text.plain_append, hquote, true_and, and_true, Text.plain_flatMap,
    plain_escapePoint]
  rfl

/-- A numeral is plain. -/
lemma plain_writeNumber (n : Number) : (writeNumber n).Plain := by
  cases n <;> exact Text.plain_ofString _

/-- Parts with separators between them are plain when all of them are. -/
lemma plain_separated {separator : String} {parts : List Text} :
    (separated separator parts).Plain ↔ ∀ part ∈ parts, part.Plain := by
  induction parts with
  | nil => exact iff_of_true nofun nofun
  | cons part parts ih =>
    cases parts with
    | nil => exact List.forall_mem_singleton.symm
    | cons next rest =>
      have hseparated : separated separator (part :: next :: rest) =
          part ++ Text.ofString separator ++ separated separator (next :: rest) := rfl
      simp only [hseparated, Text.plain_append, ih, List.forall_mem_cons, Text.plain_ofString,
        and_true]

mutual

/-- A surrogate is written exactly where one of the texts has it. -/
lemma plain_write_iff : ∀ v : Value, (v.write answerStyle).Plain ↔ v.Plain
  | .null => iff_of_true (Text.plain_ofString _) .null
  | .flag b => by
    refine iff_of_true ?_ (.flag b)
    cases b <;> exact Text.plain_ofString _
  | .number n => iff_of_true (plain_writeNumber n) (.number n)
  | .text t => by
    have htext : (Value.text t).Plain ↔ t.Plain := ⟨fun | .text h => h, .text⟩
    rw [htext]
    exact plain_writeText
  | .list items => by
    have hopen : (Text.ofString "[").Plain := Text.plain_ofString _
    have hclose : (Text.ofString "]").Plain := Text.plain_ofString _
    rw [write, Text.plain_append, Text.plain_append, plain_separated, plain_writeItems_iff]
    simp only [hopen, hclose, true_and, and_true]
    exact ⟨.list, fun | .list h => h⟩
  | .record fields => by
    have hopen : (Text.ofString "\x7b").Plain := Text.plain_ofString _
    have hclose : (Text.ofString "\x7d").Plain := Text.plain_ofString _
    rw [write, Text.plain_append, Text.plain_append, plain_separated, plain_writeFields_iff]
    simp only [hopen, hclose, true_and, and_true]
    exact ⟨fun h => .record (fun f hf => (h f hf).1) fun f hf => (h f hf).2,
      fun | .record hnames h => fun f hf => ⟨hnames f hf, h f hf⟩⟩

/-- The items of a list are written plainly when their texts are plain. -/
lemma plain_writeItems_iff : ∀ items : List Value,
    (∀ part ∈ writeItems answerStyle items, part.Plain) ↔ ∀ v ∈ items, v.Plain
  | [] => iff_of_true nofun nofun
  | v :: items => by
    rw [writeItems, List.forall_mem_cons, List.forall_mem_cons, plain_write_iff v,
      plain_writeItems_iff items]

/-- The fields of a record are written plainly when their names and texts are plain. -/
lemma plain_writeFields_iff : ∀ fields : List (Text × Value),
    (∀ part ∈ writeFields answerStyle fields, part.Plain) ↔
      ∀ f ∈ fields, f.1.Plain ∧ f.2.Plain
  | [] => iff_of_true nofun nofun
  | (name, v) :: fields => by
    have hcolon : (Text.ofString answerStyle.colon).Plain := Text.plain_ofString _
    have hname : (writeText answerStyle.asciiOnly name).Plain ↔ name.Plain := plain_writeText
    rw [writeFields, List.forall_mem_cons, List.forall_mem_cons, plain_writeFields_iff fields,
      Text.plain_append, Text.plain_append, hname, plain_write_iff v]
    simp only [hcolon, and_true]

end

end Value

/-! ### Answers -/

namespace Answer

/-- A text can be encoded when it is plain. -/
lemma firstSurrogates_eq_none_iff {position : Nat} {t : Text} :
    firstSurrogates position t = none ↔ t.Plain := by
  induction t generalizing position with
  | nil => exact iff_of_true rfl nofun
  | cons c t ih =>
    rw [firstSurrogates, Text.plain_cons]
    cases c.isSurrogate with
    | true => simp
    | false => simp [ih]

/-- A value can be answered when its doubles are finite and its texts are plain, and only then. -/
lemma check_json_iff {code : Nat} {body : Value} :
    (Answer.json code body).check = .ok (.json code body) ↔
      body.isFinite = true ∧ body.Plain := by
  rw [← Value.plain_write_iff, ← firstSurrogates_eq_none_iff]
  unfold check
  cases hfinite : body.isFinite with
  | false => simp [hfinite]
  | true => cases hfirst : firstSurrogates 0 (body.write answerStyle) <;> simp [hfinite, hfirst]

/-- An answer that can be written is written as it is. -/
lemma check_eq_ok {answer checked : Answer} (h : answer.check = .ok checked) :
    checked = answer := by
  unfold Answer.check at h
  split at h
  next code body =>
    split at h
    · simp at h
    · split at h
      · simp at h
      · exact (Except.ok.inj h).symm
  · exact (Except.ok.inj h).symm

/-- A record in an answer is plain when its fields are. -/
lemma plain_record {fields : List (String × Value)} (h : ∀ f ∈ fields, f.2.Plain) :
    (Answer.record fields).Plain := by
  refine .record ?_ ?_ <;> rw [List.forall_mem_map]
  · exact fun f _ => Text.plain_ofString f.1
  · exact h

/-- A status is answered plainly. -/
lemma plain_ofStatus (status : Status) : (Answer.ofStatus status).Plain := by
  refine plain_record ?_
  simp only [List.forall_mem_cons]
  exact ⟨.text (Text.plain_ofString _), .text (Text.plain_ofString _), nofun⟩

/-- Every refusal can be written. -/
lemma check_refusal (code : Nat) (reason : String) :
    (Answer.refusal code reason).check = .ok (.refusal code reason) :=
  check_json_iff.mpr
    ⟨rfl, plain_record (List.forall_mem_singleton.mpr (.text (Text.plain_ofString reason)))⟩

end Answer

end PenRover
