import PenRover.Proofs.Value.Numbers

/-!
# Writing and reading JSON

A value that is written as in a settings file is read back as itself, provided that its numbers are
and that no text in it has a pair of surrogates (`Sound.returnsAs`).  What is proved of a value is
that it is read back in front of anything that cannot belong to it, with as much fuel as its text
asks for (`ReturnsAs`); so the items of a list and the fields of a record can be put one behind the
other.

Whatever the reader makes of a text without surrogates is such a value (`sound_of_read`).
-/

namespace PenRover

/-- The number is read back from its numeral: an integer has few enough digits, and a finite double
has a numeral that denotes it. -/
def Number.ReadsBack : Number → Prop
  | .int n => (Number.int n).Short
  | .double x => Double.isFinite x = true →
    Value.readNumber (Value.writeNumber (.double x)) = .ok (.double x, [])

namespace Value

open Text

/-- The numbers in the value are all of a kind, no text in it has a pair of surrogates, and the
names of a record are different. -/
inductive Sound (numbers : Number → Prop) : Value → Prop
  | null : Sound numbers .null
  | flag (b : Bool) : Sound numbers (.flag b)
  | number {n : Number} (h : numbers n) : Sound numbers (.number n)
  | text {t : Text} (h : t.Unpaired) : Sound numbers (.text t)
  | list {items : List Value} (h : ∀ v ∈ items, Sound numbers v) : Sound numbers (.list items)
  | record {fields : List (Text × Value)} (hnames : (fields.map Prod.fst).Nodup)
    (htexts : ∀ f ∈ fields, f.1.Unpaired) (h : ∀ f ∈ fields, Sound numbers f.2) :
    Sound numbers (.record fields)

/-- In a file, in front of what cannot belong to it, the first value is read as the second. -/
def ReturnsAs (v w : Value) : Prop :=
  ∀ (fuel : Nat) (rest : Text), rest.EndsNumeral → 2 * (v.write fileStyle).length ≤ fuel + 1 →
    readValue fuel (v.write fileStyle ++ rest) = .ok (w, rest)

/-! ### How values begin -/

/-- A quotation mark begins a text. -/
lemma readValue_string (fuel : Nat) (t : Text) :
    readValue (fuel + 1) (CodePoint.ofChar '"' :: t) =
      (readString (CodePoint.ofChar '"' :: t)).map fun found => (Value.text found.1, found.2) := by
  have hval : (CodePoint.ofChar '"').val = 0x22 := rfl
  rw [readValue]
  simp only [hval]
  cases readString (CodePoint.ofChar '"' :: t) <;> rfl

/-- A square bracket begins a list, whose items follow unless it is empty. -/
lemma readValue_list (fuel : Nat) {t after : Text} {c : CodePoint} (ht : skipBlanks t = c :: after)
    (hc : c ≠ CodePoint.ofChar ']') :
    readValue (fuel + 1) (CodePoint.ofChar '[' :: t) =
      (readItems fuel (c :: after)).map fun found => (Value.list found.1, found.2) := by
  have hval : (CodePoint.ofChar '[').val = 0x5B := rfl
  rw [readValue]
  simp only [hval, ht, if_neg hc]
  cases readItems fuel (c :: after) <;> rfl

/-- A brace begins a record, whose fields follow unless it is empty. -/
lemma readValue_record (fuel : Nat) {t after : Text} {c : CodePoint}
    (ht : skipBlanks t = c :: after)
    (hc : c.val ≠ 0x7D) :
    readValue (fuel + 1) (CodePoint.ofNat 0x7B :: t) =
      (readFields fuel [] (c :: after)).map fun found => (Value.record found.1, found.2) := by
  have hval : (CodePoint.ofNat 0x7B).val = 0x7B := rfl
  rw [readValue]
  simp only [hval, ht, if_neg hc]
  cases readFields fuel [] (c :: after) <;> rfl

/-- What begins with no quote and no bracket is a word or a number. -/
lemma readValue_of_plain (fuel : Nat) {c : CodePoint} (t : Text)
    (hc : c.val ≠ 0x22 ∧ c.val ≠ 0x5B ∧ c.val ≠ 0x7B) :
    readValue (fuel + 1) (c :: t) = match readWord? (c :: t) with
      | some found => .ok found
      | none => readNumber (c :: t) := by
  rw [readValue]
  split
  next h => exact absurd h hc.1
  next h => exact absurd h hc.2.1
  next h => exact absurd h hc.2.2
  · rfl

/-- The code points of the digits. -/
lemma val_of_asciiDigit? {c : CodePoint} {d : Nat} (h : asciiDigit? c = some d) :
    0x30 ≤ c.val ∧ c.val ≤ 0x39 := by
  unfold asciiDigit? at h
  split at h
  next hrange => exact hrange
  · exact nomatch h

/-- A numeral is a value. -/
lemma readValue_of_readNumber (fuel : Nat) {t rest : Text} {v : Value}
    (h : readNumber t = .ok (v, rest)) : readValue (fuel + 1) t = .ok (v, rest) := by
  obtain ⟨-, -, c, more, d, hbegin, hd⟩ := readNumber_eq_ok h
  have hword := readWord?_of_digit hbegin hd
  have hrange := val_of_asciiDigit? hd
  have hminus : (CodePoint.ofChar '-').val = 0x2D := rfl
  obtain rfl | rfl := hbegin
  · rw [readValue_of_plain fuel more (by omega), hword]
    exact h
  · rw [readValue_of_plain fuel _ (by rw [hminus]; decide), hword]
    exact h

/-- A value begins with no blank and no closing bracket. -/
lemma begins_of_readValue {fuel : Nat} {t : Text} {found : Value × Text}
    (h : readValue fuel t = .ok found) :
    ∃ c more, t = c :: more ∧ skipBlanks t = t ∧ c ≠ CodePoint.ofChar ']' := by
  cases fuel with
  | zero => exact nomatch h
  | succ fuel =>
    cases t with
    | nil => exact nomatch h
    | cons c more =>
      have hother (hc : c.val = 0x20 ∨ c.val = 0x09 ∨ c.val = 0x0A ∨ c.val = 0x0D ∨ c.val = 0x5D) :
          False := by
        have hletters : ∀ start ∈ wordStarts, 0x5D < (CodePoint.ofChar start.1).val ∨
            (CodePoint.ofChar start.1).val ∈ [0x2D, 0x49, 0x4E] := by decide
        have hword : readWord? (c :: more) = none := by
          refine readWord?_eq_none fun start hstart later ht => ?_
          obtain ⟨rfl, -⟩ := List.cons.inj ht
          have hletter := hletters start hstart
          simp only [List.mem_cons, List.not_mem_nil, or_false] at hletter
          omega
        rw [readValue_of_plain fuel more (by omega), hword] at h
        obtain ⟨-, -, d, later, digit, hbegin | hbegin, hdigit⟩ := readNumber_eq_ok h
        · obtain ⟨rfl, -⟩ := List.cons.inj hbegin
          have hrange := val_of_asciiDigit? hdigit
          omega
        · obtain ⟨rfl, -⟩ := List.cons.inj hbegin
          exact absurd hc (by decide)
      refine ⟨c, more, rfl, ?_, ?_⟩
      · refine List.dropWhile_cons_of_neg fun hblank => hother ?_
        simp only [Bool.or_eq_true, beq_iff_eq] at hblank
        omega
      · rintro rfl
        exact hother (by decide)

/-! ### Values that are read back -/

/-- A written value begins with no blank and no closing bracket. -/
lemma ReturnsAs.begins {v w : Value} (h : ReturnsAs v w) {rest : Text} (hrest : rest.EndsNumeral) :
    ∃ c more, v.write fileStyle ++ rest = c :: more ∧
      skipBlanks (v.write fileStyle ++ rest) = v.write fileStyle ++ rest ∧
      c ≠ CodePoint.ofChar ']' :=
  begins_of_readValue (h _ rest hrest (Nat.le_succ _))

/-- A numeral or a word that is read back. -/
lemma returnsAs_of_forall {v w : Value} (h : ∀ fuel rest, EndsNumeral rest →
    readValue (fuel + 1) (v.write fileStyle ++ rest) = .ok (w, rest))
    (hne : v.write fileStyle ≠ []) :
    ReturnsAs v w := by
  intro fuel rest hrest hfuel
  have hpos := List.length_pos_iff.mpr hne
  obtain ⟨fuel, rfl⟩ := Nat.exists_eq_add_of_lt (show 0 < fuel by omega)
  rw [Nat.zero_add]
  exact h fuel rest hrest

/-- A number that is read back from its numeral is read back as a value. -/
lemma returnsAs_number {n : Number} (h : n.ReadsBack) : ReturnsAs (.number n) (.number n) := by
  have hread (rest : Text) (hrest : EndsNumeral rest)
      (hfinite : ∀ x, n = .double x → Double.isFinite x) :
      readNumber (writeNumber n ++ rest) = .ok (.number n, rest) := by
    cases n with
    | int n => exact readNumber_int h hrest
    | double x => exact readNumber_append hrest (h (hfinite x rfl))
  by_cases hfinite : ∀ x, n = .double x → Double.isFinite x
  · refine returnsAs_of_forall (fun fuel rest hrest => ?_) ?_
    · exact readValue_of_readNumber fuel (hread rest hrest hfinite)
    · intro hnil
      have hempty := hread [] endsNumeral_nil hfinite
      rw [show writeNumber n = [] from hnil] at hempty
      exact nomatch hempty
  · push Not at hfinite
    obtain ⟨x, rfl, hx⟩ := hfinite
    have hword := readWord?_writeNumber (Bool.eq_false_iff.mpr hx)
    have hplain (rest : Text) : ∃ c more, writeNumber (.double x) ++ rest = c :: more ∧
        c.val ≠ 0x22 ∧ c.val ≠ 0x5B ∧ c.val ≠ 0x7B := by
      have hstarts : ∀ start ∈ wordStarts, (CodePoint.ofChar start.1).val ≠ 0x22 ∧
          (CodePoint.ofChar start.1).val ≠ 0x5B ∧ (CodePoint.ofChar start.1).val ≠ 0x7B := by decide
      by_contra hnone
      refine absurd (readWord?_eq_none fun start hstart later ht => ?_)
        (hword rest ▸ Option.some_ne_none _)
      exact hnone ⟨_, _, ht, hstarts start hstart⟩
    refine returnsAs_of_forall (fun fuel rest _ => ?_) ?_
    · obtain ⟨c, more, hbegin, hc⟩ := hplain rest
      change readValue (fuel + 1) (writeNumber (.double x) ++ rest) = _
      rw [hbegin, readValue_of_plain fuel more hc, ← hbegin, hword rest]
      rfl
    · intro hnil
      obtain ⟨c, more, hbegin, -⟩ := hplain []
      rw [show writeNumber (.double x) = [] from hnil] at hbegin
      exact nomatch hbegin

/-- A text is read back with its pairs of surrogates joined. -/
lemma returnsAs_text (t : Text) : ReturnsAs (.text t) (.text t.joined) := by
  have hquote : ∃ more, writeText true t = CodePoint.ofChar '"' :: more := ⟨_, rfl⟩
  refine returnsAs_of_forall (fun fuel rest _ => ?_) ?_
  · obtain ⟨more, hmore⟩ := hquote
    change readValue (fuel + 1) (writeText true t ++ rest) = _
    have hread := readString_writeText t rest
    rw [hmore, List.cons_append] at hread ⊢
    rw [readValue_string, hread]
    rfl
  · exact List.cons_ne_nil _ _

/-! ### Lists and records that are read back -/

/-- A part, a separator, and the parts after it. -/
lemma separated_cons (separator : String) (part : Text) {parts : List Text} (h : parts ≠ []) :
    separated separator (part :: parts) =
      part ++ (Text.ofString separator ++ separated separator parts) := by
  cases parts with
  | nil => exact absurd rfl h
  | cons next parts =>
    rw [separated, List.append_assoc]
    exact List.cons_ne_nil _ _

/-- Behind the first of some parts there is a comma or the closing bracket. -/
lemma separated_append (part : Text) (parts : List Text) {closing : CodePoint} (rest : Text)
    (hclosing : closing = CodePoint.ofChar ']' ∨ closing = CodePoint.ofNat 0x7D) :
    ∃ tail, EndsNumeral tail ∧
      separated fileStyle.comma (part :: parts) ++ closing :: rest = part ++ tail := by
  by_cases hparts : parts = []
  · subst hparts
    refine ⟨closing :: rest, fun c hc => ?_, rfl⟩
    obtain rfl : closing = c := by simpa using hc
    exact .inr hclosing
  · rw [separated_cons _ _ hparts, List.append_assoc]
    refine ⟨_, fun c hc => ?_, rfl⟩
    obtain rfl : CodePoint.ofChar ',' = c := Option.some.inj hc
    exact .inl rfl

/-- The last item is the one before the closing bracket. -/
lemma readItems_last {fuel : Nat} {t rest : Text} {v : Value}
    (h : readValue fuel t = .ok (v, CodePoint.ofChar ']' :: rest)) :
    readItems (fuel + 1) t = .ok ([v], rest) := by
  rw [readItems, h]
  rfl

/-- Items go on behind a comma. -/
lemma readItems_more {fuel : Nat} {t later rest : Text} {v : Value} {more : List Value}
    (h : readValue fuel t = .ok (v, CodePoint.ofChar ',' :: later))
    (hmore : readItems fuel (skipBlanks later) = .ok (more, rest)) :
    readItems (fuel + 1) t = .ok (v :: more, rest) := by
  rw [readItems, h]
  change (readItems fuel (skipBlanks later) >>= fun found => pure (v :: found.1, found.2)) = _
  rw [hmore]
  rfl

/-- Items are read back up to the closing bracket. -/
lemma readItems_separated {items results : List Value} (h : List.Forall₂ ReturnsAs items results)
    (hne : items ≠ []) (fuel : Nat)
    (hfuel : 2 * (separated fileStyle.comma (writeItems fileStyle items)).length ≤ fuel)
    (rest : Text) :
    readItems fuel (separated fileStyle.comma (writeItems fileStyle items) ++
      CodePoint.ofChar ']' :: rest) = .ok (results, rest) := by
  induction h generalizing fuel with
  | nil => exact absurd rfl hne
  | @cons v w items results hv hitems ih =>
    obtain ⟨c, more, hbegin, -⟩ := hv.begins endsNumeral_nil
    have hpos := congrArg List.length hbegin
    rw [List.append_nil, List.length_cons] at hpos
    cases hitems with
    | nil =>
      change 2 * (v.write fileStyle).length ≤ fuel at hfuel
      change readItems fuel (v.write fileStyle ++ CodePoint.ofChar ']' :: rest) = _
      obtain ⟨fuel, rfl⟩ := Nat.exists_eq_add_of_le' (show 1 ≤ fuel by omega)
      refine readItems_last (hv fuel _ (fun c hc => .inr (.inl ?_)) (by omega))
      exact (Option.some.inj hc).symm
    | @cons next _ later _ hnext hlater =>
      obtain ⟨tail, htail, hsplit⟩ := separated_append (next.write fileStyle)
        (writeItems fileStyle later) rest (.inl rfl)
      obtain ⟨-, -, -, hblanks, -⟩ := hnext.begins htail
      have hcons : writeItems fileStyle (next :: later) =
          next.write fileStyle :: writeItems fileStyle later := rfl
      have hparts : writeItems fileStyle (next :: later) ≠ [] := List.cons_ne_nil _ _
      rw [← hsplit, ← hcons] at hblanks
      rw [writeItems, separated_cons _ _ hparts] at hfuel ⊢
      have hcomma : Text.ofString fileStyle.comma =
          [CodePoint.ofChar ',', CodePoint.ofChar ' '] := rfl
      rw [hcomma] at hfuel ⊢
      simp only [List.length_append, List.length_cons, List.length_nil] at hfuel
      obtain ⟨fuel, rfl⟩ := Nat.exists_eq_add_of_le' (show 1 ≤ fuel by omega)
      have hmore := ih (List.cons_ne_nil _ _) fuel (by omega)
      rw [List.append_assoc, List.append_assoc, List.cons_append]
      refine readItems_more (hv fuel _ (fun c hc => .inl ?_) (by omega)) ?_
      · exact (Option.some.inj hc).symm
      · exact (congrArg (readItems fuel) hblanks).trans hmore

/-- A list is read back when its items are. -/
lemma returnsAs_list {items results : List Value} (h : List.Forall₂ ReturnsAs items results) :
    ReturnsAs (.list items) (.list results) := by
  refine fun fuel rest hrest hfuel => ?_
  cases h with
  | nil =>
    have hlength : ((Value.list []).write fileStyle).length = 2 := rfl
    obtain ⟨fuel, rfl⟩ := Nat.exists_eq_add_of_le' (show 1 ≤ fuel by omega)
    rfl
  | @cons v _ items _ hv hitems =>
    have hall := List.Forall₂.cons hv hitems
    obtain ⟨tail, htail, hsplit⟩ := separated_append (v.write fileStyle)
      (writeItems fileStyle items) rest (.inl rfl)
    obtain ⟨c, more, hbegin, hblanks, hc⟩ := hv.begins htail
    rw [← hsplit] at hbegin hblanks
    have htext : (Value.list (v :: items)).write fileStyle ++ rest = CodePoint.ofChar '[' ::
        (separated fileStyle.comma (writeItems fileStyle (v :: items)) ++
          CodePoint.ofChar ']' :: rest) := by
      simp [write, Text.ofString]
    have hlength := congrArg List.length htext
    simp only [List.length_append, List.length_cons] at hlength
    obtain ⟨fuel, rfl⟩ := Nat.exists_eq_add_of_le' (show 1 ≤ fuel by omega)
    have hread := readItems_separated hall (List.cons_ne_nil _ _) fuel (by omega) rest
    change skipBlanks (separated fileStyle.comma (writeItems fileStyle (v :: items)) ++ _) =
      _ at hblanks
    change separated fileStyle.comma (writeItems fileStyle (v :: items)) ++ _ = _ at hbegin
    rw [htext, readValue_list fuel (hblanks.trans hbegin) hc, ← hbegin, hread]
    rfl

/-- A field that is new is set behind the others. -/
lemma setField_of_notMem {name : Text} {v : Value} {fields : List (Text × Value)}
    (h : name ∉ fields.map Prod.fst) : setField name v fields = fields ++ [(name, v)] := by
  induction fields with
  | nil => rfl
  | cons field fields ih =>
    rw [List.map_cons, List.mem_cons, not_or] at h
    rw [setField, if_neg (by simpa using Ne.symm h.1), ih h.2]
    rfl

/-- The last field is the one before the closing brace. -/
lemma readFields_last {fuel : Nat} {before : List (Text × Value)} {t between rest : Text}
    {name : Text} {v : Value} (hname : readString t = .ok (name, CodePoint.ofChar ':' :: between))
    (hvalue : readValue fuel (skipBlanks between) = .ok (v, CodePoint.ofNat 0x7D :: rest)) :
    readFields (fuel + 1) before t = .ok (setField name v before, rest) := by
  rw [readFields, hname]
  change (readValue fuel (skipBlanks between) >>= _) = _
  rw [hvalue]
  rfl

/-- Fields go on behind a comma. -/
lemma readFields_more {fuel : Nat} {before : List (Text × Value)} {t between later : Text}
    {name : Text} {v : Value} (hname : readString t = .ok (name, CodePoint.ofChar ':' :: between))
    (hvalue : readValue fuel (skipBlanks between) = .ok (v, CodePoint.ofChar ',' :: later)) :
    readFields (fuel + 1) before t =
      readFields fuel (setField name v before) (skipBlanks later) := by
  rw [readFields, hname]
  change (readValue fuel (skipBlanks between) >>= _) = _
  rw [hvalue]
  rfl

/-- A field is read back as the other: it has the same name and is read back as this value. -/
def FieldReturnsAs (f g : Text × Value) : Prop :=
  f.1.Unpaired ∧ f.1 = g.1 ∧ ReturnsAs f.2 g.2

/-- The text of a field. -/
def writeField (f : Text × Value) : Text :=
  writeText true f.1 ++ Text.ofString fileStyle.colon ++ f.2.write fileStyle

/-- The name and then the value of a written field are read back. -/
lemma FieldReturnsAs.read {f g : Text × Value} (h : FieldReturnsAs f g) (rest : Text)
    (hrest : rest.EndsNumeral) :
    ∃ between, readString (writeField f ++ rest) = .ok (g.1, CodePoint.ofChar ':' :: between) ∧
      ∀ fuel, 2 * (writeField f).length ≤ fuel + 1 →
        readValue fuel (skipBlanks between) = .ok (g.2, rest) := by
  obtain ⟨hunpaired, hname, hvalue⟩ := h
  obtain ⟨-, -, -, hblanks, -⟩ := hvalue.begins hrest
  refine ⟨CodePoint.ofChar ' ' :: (f.2.write fileStyle ++ rest), ?_, fun fuel hfuel => ?_⟩
  · rw [writeField, List.append_assoc, List.append_assoc, readString_writeText,
      Text.joined_of_unpaired hunpaired, hname]
    rfl
  · change readValue fuel (skipBlanks (f.2.write fileStyle ++ rest)) = _
    rw [hblanks]
    refine hvalue fuel rest hrest ?_
    simp only [writeField, List.length_append] at hfuel
    omega

/-- The text of some fields begins with a quote. -/
lemma separated_writeFields (f : Text × Value) (fields : List (Text × Value)) (rest : Text) :
    ∃ more, separated fileStyle.comma (writeFields fileStyle (f :: fields)) ++
      CodePoint.ofNat 0x7D :: rest = CodePoint.ofChar '"' :: more := by
  obtain ⟨tail, -, hsplit⟩ := separated_append (writeField f) (writeFields fileStyle fields) rest
    (.inr rfl)
  exact ⟨_, hsplit⟩

/-- Fields are read back up to the closing brace. -/
lemma readFields_separated {fields results : List (Text × Value)}
    (h : List.Forall₂ FieldReturnsAs fields results) (hne : fields ≠ [])
    (before : List (Text × Value)) (hnames : ((before ++ results).map Prod.fst).Nodup) (fuel : Nat)
    (hfuel : 2 * (separated fileStyle.comma (writeFields fileStyle fields)).length ≤ fuel)
    (rest : Text) :
    readFields fuel before (separated fileStyle.comma (writeFields fileStyle fields) ++
      CodePoint.ofNat 0x7D :: rest) = .ok (before ++ results, rest) := by
  induction h generalizing before fuel with
  | nil => exact absurd rfl hne
  | @cons f g fields results hf hfields ih =>
    -- a name that is read for the first time is put behind the fields before
    have hnew : g.1 ∉ before.map Prod.fst := by
      rw [List.map_append, List.map_cons] at hnames
      exact fun hmem => List.disjoint_of_nodup_append hnames hmem List.mem_cons_self
    have hquote : ∃ more, writeField f = CodePoint.ofChar '"' :: more := ⟨_, rfl⟩
    obtain ⟨more, hmore⟩ := hquote
    have hpos := congrArg List.length hmore
    rw [List.length_cons] at hpos
    cases hfields with
    | nil =>
      change 2 * (writeField f).length ≤ fuel at hfuel
      change readFields fuel before (writeField f ++ CodePoint.ofNat 0x7D :: rest) = _
      obtain ⟨fuel, rfl⟩ := Nat.exists_eq_add_of_le' (show 1 ≤ fuel by omega)
      obtain ⟨between, hname, hvalue⟩ := hf.read (CodePoint.ofNat 0x7D :: rest) fun c hc =>
        .inr (.inr (Option.some.inj hc).symm)
      rw [readFields_last hname (hvalue fuel (by omega)), setField_of_notMem hnew]
    | @cons next _ later _ hnext hlater =>
      have hparts : writeFields fileStyle (next :: later) ≠ [] := List.cons_ne_nil _ _
      have htext : writeFields fileStyle (f :: next :: later) =
          writeField f :: writeFields fileStyle (next :: later) := rfl
      have hcomma : Text.ofString fileStyle.comma =
          [CodePoint.ofChar ',', CodePoint.ofChar ' '] := rfl
      rw [htext, separated_cons _ _ hparts, hcomma] at hfuel ⊢
      simp only [List.length_append, List.length_cons, List.length_nil] at hfuel
      obtain ⟨fuel, rfl⟩ := Nat.exists_eq_add_of_le' (show 1 ≤ fuel by omega)
      have hrest := ih (List.cons_ne_nil _ _) (before ++ [g]) (by simpa using hnames) fuel
        (by omega)
      obtain ⟨between, hname, hvalue⟩ := hf.read
        (CodePoint.ofChar ',' :: CodePoint.ofChar ' ' ::
          (separated fileStyle.comma (writeFields fileStyle (next :: later)) ++
            CodePoint.ofNat 0x7D :: rest)) fun c hc => .inl (Option.some.inj hc).symm
      have hblanks : skipBlanks (CodePoint.ofChar ' ' ::
          (separated fileStyle.comma (writeFields fileStyle (next :: later)) ++
            CodePoint.ofNat 0x7D :: rest)) =
          separated fileStyle.comma (writeFields fileStyle (next :: later)) ++
            CodePoint.ofNat 0x7D :: rest := by
        obtain ⟨more, hmore⟩ := separated_writeFields next later rest
        rw [hmore]
        rfl
      rw [List.append_assoc, List.append_assoc]
      refine (readFields_more hname (hvalue fuel (by omega))).trans ?_
      rw [setField_of_notMem hnew, hblanks]
      simpa using hrest

/-- A record is read back when its fields are, as long as their names differ. -/
lemma returnsAs_record {fields results : List (Text × Value)}
    (h : List.Forall₂ FieldReturnsAs fields results) (hnames : (results.map Prod.fst).Nodup) :
    ReturnsAs (.record fields) (.record results) := by
  refine fun fuel rest hrest hfuel => ?_
  cases h with
  | nil =>
    have hlength : ((Value.record []).write fileStyle).length = 2 := rfl
    obtain ⟨fuel, rfl⟩ := Nat.exists_eq_add_of_le' (show 1 ≤ fuel by omega)
    rfl
  | @cons f _ fields _ hf hfields =>
    have hall := List.Forall₂.cons hf hfields
    have htext : (Value.record (f :: fields)).write fileStyle ++ rest = CodePoint.ofNat 0x7B ::
        (separated fileStyle.comma (writeFields fileStyle (f :: fields)) ++
          CodePoint.ofNat 0x7D :: rest) := by
      rw [write, List.append_assoc, List.append_assoc]
      rfl
    obtain ⟨more, hmore⟩ := separated_writeFields f fields rest
    have hlength := congrArg List.length htext
    simp only [List.length_append, List.length_cons] at hlength
    obtain ⟨fuel, rfl⟩ := Nat.exists_eq_add_of_le' (show 1 ≤ fuel by omega)
    have hread := readFields_separated hall (List.cons_ne_nil _ _) [] hnames fuel (by omega) rest
    rw [hmore] at hread
    rw [htext, hmore, readValue_record fuel rfl (by decide), hread]
    rfl

/-- A sound value is read back. -/
lemma Sound.returnsAs {v : Value} (h : v.Sound Number.ReadsBack) : ReturnsAs v v := by
  induction h with
  | null => exact returnsAs_of_forall (fun fuel rest _ => rfl) (List.cons_ne_nil _ _)
  | flag b =>
    cases b <;> exact returnsAs_of_forall (fun fuel rest _ => rfl) (List.cons_ne_nil _ _)
  | number h => exact returnsAs_number h
  | @text t h =>
    have hreturns := returnsAs_text t
    rwa [Text.joined_of_unpaired h] at hreturns
  | list h ih => exact returnsAs_list (List.forall₂_same.mpr ih)
  | record hnames htexts h ih =>
    refine returnsAs_record (List.forall₂_same.mpr fun f hf => ?_) hnames
    exact ⟨htexts f hf, rfl, ih f hf⟩

/-- The text of a value that is read back denotes what it is read back as. -/
lemma ReturnsAs.read {v w : Value} (h : ReturnsAs v w) : read (v.write fileStyle) = .ok w := by
  obtain ⟨-, -, -, hblanks, -⟩ := h.begins endsNumeral_nil
  rw [List.append_nil] at hblanks
  have hvalue := h (2 * (v.write fileStyle).length + 2) [] endsNumeral_nil (by omega)
  rw [List.append_nil] at hvalue
  rw [Value.read, hblanks, hvalue]
  rfl

/-! ### What is read is sound -/

/-- A field that was set is the new one, or one of those before. -/
lemma mem_setField {name : Text} {v : Value} {fields : List (Text × Value)} {f : Text × Value}
    (h : f ∈ setField name v fields) : f ∈ fields ∨ f = (name, v) := by
  induction fields with
  | nil => exact .inr (List.mem_singleton.mp h)
  | cons field fields ih =>
    rw [setField] at h
    split at h
    next hname =>
      obtain rfl := beq_iff_eq.mp hname
      rcases List.mem_cons.mp h with rfl | h
      · exact .inr rfl
      · exact .inl (List.mem_cons_of_mem _ h)
    · rcases List.mem_cons.mp h with rfl | h
      · exact .inl List.mem_cons_self
      · exact (ih h).imp_left (List.mem_cons_of_mem _)

/-- A field that is set keeps the names different. -/
lemma nodup_setField (name : Text) (v : Value) {fields : List (Text × Value)}
    (h : (fields.map Prod.fst).Nodup) : ((setField name v fields).map Prod.fst).Nodup := by
  induction fields with
  | nil => exact List.nodup_singleton _
  | cons field fields ih =>
    obtain ⟨hnew, hrest⟩ := List.nodup_cons.mp h
    rw [setField]
    split
    · exact h
    next hname =>
      rw [List.map_cons, List.nodup_cons]
      refine ⟨fun hmem => ?_, ih hrest⟩
      obtain ⟨f, hf, hfst⟩ := List.mem_map.mp hmem
      obtain hf | rfl := mem_setField hf
      · exact hnew (List.mem_map.mpr ⟨f, hf, hfst⟩)
      · exact hname (beq_iff_eq.mpr hfst.symm)

/-- A record that is sound stays so when a field is set to a sound value. -/
lemma Sound.setField {numbers : Number → Prop} {fields : List (Text × Value)} {name : Text}
    {v : Value} (h : (Value.record fields).Sound numbers) (hname : name.Unpaired)
    (hv : v.Sound numbers) : (Value.record (setField name v fields)).Sound numbers := by
  cases h with
  | record hnames htexts hfields =>
    refine .record (nodup_setField name v hnames) (fun f hf => ?_) (fun f hf => ?_)
    · obtain hf | rfl := mem_setField hf
      · exact htexts f hf
      · exact hname
    · obtain hf | rfl := mem_setField hf
      · exact hfields f hf
      · exact hv

/-- What is behind blanks is an end of the text. -/
lemma skipBlanks_suffix (t : Text) : skipBlanks t <:+ t := List.dropWhile_suffix _

/-- A value that is read from a word is sound. -/
lemma readWord?_eq_some {t rest : Text} {v : Value} (h : readWord? t = some (v, rest)) :
    rest <:+ t ∧ v.Sound Number.Short := by
  obtain ⟨⟨word, w⟩, hmem, hword⟩ := List.exists_of_findSome?_eq_some h
  obtain ⟨after, hafter, hpair⟩ := Option.map_eq_some_iff.mp hword
  obtain ⟨rfl, rfl⟩ := Prod.mk.inj hpair
  constructor
  · unfold afterWord? at hafter
    dsimp only at hafter
    split at hafter
    · obtain rfl := Option.some.inj hafter
      exact List.drop_suffix _ _
    · exact nomatch hafter
  · simp only [words, List.mem_cons, Prod.mk.injEq, List.not_mem_nil, or_false] at hmem
    obtain ⟨-, rfl⟩ | ⟨-, rfl⟩ | ⟨-, rfl⟩ | ⟨-, rfl⟩ | ⟨-, rfl⟩ | ⟨-, rfl⟩ := hmem
    · exact .null
    · exact .flag true
    · exact .flag false
    · exact .number trivial
    · exact .number trivial
    · exact .number trivial

/-- An empty record is sound. -/
lemma sound_nil {numbers : Number → Prop} : (Value.record []).Sound numbers :=
  .record (by simp) nofun nofun

/-- With so much fuel, what is read from a plain text is sound: a value, items, and fields behind
others. -/
structure ReadsSound (fuel : Nat) : Prop where
  value : ∀ {t rest : Text} {v : Value}, t.Plain → readValue fuel t = .ok (v, rest) →
    rest <:+ t ∧ v.Sound Number.Short
  items : ∀ {t rest : Text} {items : List Value}, t.Plain → readItems fuel t = .ok (items, rest) →
    rest <:+ t ∧ ∀ v ∈ items, v.Sound Number.Short
  fields : ∀ {t rest : Text} {before fields : List (Text × Value)}, t.Plain →
    (Value.record before).Sound Number.Short → readFields fuel before t = .ok (fields, rest) →
    rest <:+ t ∧ (Value.record fields).Sound Number.Short

section Step

variable {fuel : Nat} {t rest : Text}

/-- With one more unit of fuel, a value that is read from a plain text is sound. -/
lemma ReadsSound.value_succ (h : ReadsSound fuel) {v : Value} (hplain : t.Plain)
    (hvalue : readValue (fuel + 1) t = .ok (v, rest)) : rest <:+ t ∧ v.Sound Number.Short := by
  cases t with
  | nil => exact nomatch hvalue
  | cons c t =>
    have htail : t <:+ c :: t := ⟨[c], rfl⟩
    have hblanks := (skipBlanks_suffix t).trans htail
    rw [readValue] at hvalue
    split at hvalue
    · -- a string
      obtain ⟨⟨s, after⟩, hstring, hpair⟩ := bind_eq_ok.mp hvalue
      obtain ⟨rfl, rfl⟩ := Prod.mk.inj (Except.ok.inj hpair)
      obtain ⟨hrest, hunpaired⟩ := unpaired_of_readString hplain hstring
      exact ⟨hrest, .text hunpaired⟩
    · -- a list
      split at hvalue
      · exact nomatch hvalue
      next d after hskip =>
        rw [hskip] at hblanks
        split at hvalue
        · obtain ⟨rfl, rfl⟩ := Prod.mk.inj (Except.ok.inj hvalue)
          exact ⟨List.IsSuffix.trans ⟨[d], rfl⟩ hblanks, .list nofun⟩
        · obtain ⟨⟨items, last⟩, hitems, hpair⟩ := bind_eq_ok.mp hvalue
          obtain ⟨rfl, rfl⟩ := Prod.mk.inj (Except.ok.inj hpair)
          obtain ⟨hrest, hall⟩ := h.items (plain_of_suffix hplain hblanks) hitems
          exact ⟨hrest.trans hblanks, .list hall⟩
    · -- a record
      split at hvalue
      · exact nomatch hvalue
      next d after hskip =>
        rw [hskip] at hblanks
        split at hvalue
        · obtain ⟨rfl, rfl⟩ := Prod.mk.inj (Except.ok.inj hvalue)
          exact ⟨List.IsSuffix.trans ⟨[d], rfl⟩ hblanks, sound_nil⟩
        · obtain ⟨⟨fields, last⟩, hfields, hpair⟩ := bind_eq_ok.mp hvalue
          obtain ⟨rfl, rfl⟩ := Prod.mk.inj (Except.ok.inj hpair)
          obtain ⟨hrest, hall⟩ := h.fields (plain_of_suffix hplain hblanks) sound_nil hfields
          exact ⟨hrest.trans hblanks, hall⟩
    · -- a word or a number
      split at hvalue
      next found hword =>
        obtain rfl := Except.ok.inj hvalue
        exact readWord?_eq_some hword
      · obtain ⟨hrest, ⟨n, rfl, hn⟩, -⟩ := readNumber_eq_ok hvalue
        exact ⟨hrest, .number hn⟩

/-- With one more unit of fuel, items that are read from a plain text are sound. -/
lemma ReadsSound.items_succ (h : ReadsSound fuel) {items : List Value} (hplain : t.Plain)
    (hitems : readItems (fuel + 1) t = .ok (items, rest)) :
    rest <:+ t ∧ ∀ v ∈ items, v.Sound Number.Short := by
  rw [readItems] at hitems
  obtain ⟨⟨v, after⟩, hvalue, hitems⟩ := bind_eq_ok.mp hitems
  obtain ⟨hafter, hv⟩ := h.value hplain hvalue
  have hblanks := (skipBlanks_suffix after).trans hafter
  dsimp only at hitems
  split at hitems
  · exact nomatch hitems
  next c later hskip =>
    rw [hskip] at hblanks
    have hlater : later <:+ t := List.IsSuffix.trans ⟨[c], rfl⟩ hblanks
    split at hitems
    · obtain ⟨rfl, rfl⟩ := Prod.mk.inj (Except.ok.inj hitems)
      exact ⟨hlater, List.forall_mem_singleton.mpr hv⟩
    · split at hitems
      · obtain ⟨⟨more, last⟩, hmore, hpair⟩ := bind_eq_ok.mp hitems
        obtain ⟨rfl, rfl⟩ := Prod.mk.inj (Except.ok.inj hpair)
        have hagain := (skipBlanks_suffix later).trans hlater
        obtain ⟨hrest, hall⟩ := h.items (plain_of_suffix hplain hagain) hmore
        exact ⟨hrest.trans hagain, List.forall_mem_cons.mpr ⟨hv, hall⟩⟩
      · exact nomatch hitems

/-- With one more unit of fuel, fields that are read from a plain text are sound. -/
lemma ReadsSound.fields_succ (h : ReadsSound fuel) {before fields : List (Text × Value)}
    (hplain : t.Plain) (hbefore : (Value.record before).Sound Number.Short)
    (hfields : readFields (fuel + 1) before t = .ok (fields, rest)) :
    rest <:+ t ∧ (Value.record fields).Sound Number.Short := by
  rw [readFields] at hfields
  obtain ⟨⟨name, between⟩, hname, hfields⟩ := bind_eq_ok.mp hfields
  obtain ⟨hbetween, hunpaired⟩ := unpaired_of_readString hplain hname
  have hblanks := (skipBlanks_suffix between).trans hbetween
  dsimp only at hfields
  split at hfields
  · exact nomatch hfields
  next c later hskip =>
    rw [hskip] at hblanks
    have hlater : later <:+ t := List.IsSuffix.trans ⟨[c], rfl⟩ hblanks
    have hvalueAt := (skipBlanks_suffix later).trans hlater
    split at hfields
    · obtain ⟨⟨v, after⟩, hvalue, hfields⟩ := bind_eq_ok.mp hfields
      obtain ⟨hafter, hv⟩ := h.value (plain_of_suffix hplain hvalueAt) hvalue
      have hsound := hbefore.setField hunpaired hv
      have hend := (skipBlanks_suffix after).trans (hafter.trans hvalueAt)
      dsimp only at hfields
      split at hfields
      · exact nomatch hfields
      next d last hlast =>
        rw [hlast] at hend
        have hlast : last <:+ t := List.IsSuffix.trans ⟨[d], rfl⟩ hend
        split at hfields
        · obtain ⟨rfl, rfl⟩ := Prod.mk.inj (Except.ok.inj hfields)
          exact ⟨hlast, hsound⟩
        · split at hfields
          · have hagain := (skipBlanks_suffix last).trans hlast
            obtain ⟨hrest, hall⟩ := h.fields (plain_of_suffix hplain hagain) hsound hfields
            exact ⟨hrest.trans hagain, hall⟩
          · exact nomatch hfields
    · exact nomatch hfields

end Step

/-- With any fuel, what is read from a plain text is sound. -/
lemma readsSound (fuel : Nat) : ReadsSound fuel := by
  induction fuel with
  | zero =>
    refine ⟨fun _ h => ?_, fun _ h => ?_, fun _ _ h => ?_⟩
    · rw [readValue] at h
      exact nomatch h
    · rw [readItems] at h
      exact nomatch h
    · rw [readFields] at h
      exact nomatch h
  | succ fuel ih => exact ⟨ih.value_succ, ih.items_succ, ih.fields_succ⟩

/-- What a text without surrogates denotes is sound. -/
lemma sound_of_read {t : Text} {v : Value} (hplain : t.Plain) (h : read t = .ok v) :
    v.Sound Number.Short := by
  obtain ⟨⟨w, rest⟩, hvalue, hend⟩ := bind_eq_ok.mp h
  have hsound := ((readsSound _).value (plain_of_suffix hplain (skipBlanks_suffix t)) hvalue).2
  dsimp only at hend
  split at hend
  · obtain rfl := Except.ok.inj hend
    exact hsound
  · exact nomatch hend

/-! ### Numbers that are read -/

/-- What is read from any text: a text, a list, a record whose fields are read, or a sound value. -/
lemma readValue_cases {fuel : Nat} {t rest : Text} {v : Value}
    (h : readValue fuel t = .ok (v, rest)) :
    (∃ s, v = .text s) ∨ (∃ items, v = .list items) ∨
      (∃ fields less later, v = .record fields ∧ readFields less [] later = .ok (fields, rest)) ∨
      v.Sound Number.Short := by
  cases fuel with
  | zero =>
    rw [readValue] at h
    exact nomatch h
  | succ fuel =>
    cases t with
    | nil => exact nomatch h
    | cons c t =>
      rw [readValue] at h
      split at h
      · obtain ⟨found, -, hpair⟩ := bind_eq_ok.mp h
        obtain ⟨rfl, -⟩ := Prod.mk.inj (Except.ok.inj hpair)
        exact .inl ⟨_, rfl⟩
      · split at h
        · exact nomatch h
        · split at h
          · obtain ⟨rfl, -⟩ := Prod.mk.inj (Except.ok.inj h)
            exact .inr (.inl ⟨_, rfl⟩)
          · obtain ⟨found, -, hpair⟩ := bind_eq_ok.mp h
            obtain ⟨rfl, -⟩ := Prod.mk.inj (Except.ok.inj hpair)
            exact .inr (.inl ⟨_, rfl⟩)
      · split at h
        · exact nomatch h
        · split at h
          · obtain ⟨rfl, -⟩ := Prod.mk.inj (Except.ok.inj h)
            exact .inr (.inr (.inr sound_nil))
          · obtain ⟨⟨fields, last⟩, hfields, hpair⟩ := bind_eq_ok.mp h
            obtain ⟨rfl, rfl⟩ := Prod.mk.inj (Except.ok.inj hpair)
            exact .inr (.inr (.inl ⟨_, _, _, rfl, hfields⟩))
      · split at h
        next found hword =>
          obtain rfl := Except.ok.inj h
          exact .inr (.inr (.inr (readWord?_eq_some hword).2))
        · obtain ⟨-, ⟨n, rfl, hn⟩, -⟩ := readNumber_eq_ok h
          exact .inr (.inr (.inr (.number hn)))

/-- A number that is read is short. -/
lemma short_of_readValue {fuel : Nat} {t rest : Text} {n : Number}
    (h : readValue fuel t = .ok (.number n, rest)) : n.Short := by
  obtain ⟨s, hs⟩ | ⟨items, hitems⟩ | ⟨fields, -, -, hfields, -⟩ | hsound := readValue_cases h
  · exact nomatch hs
  · exact nomatch hitems
  · exact nomatch hfields
  · cases hsound with
    | number hn => exact hn

/-- The fields that hold numbers hold short ones. -/
def FieldsShort (fields : List (Text × Value)) : Prop :=
  ∀ f ∈ fields, ∀ n, f.2 = .number n → n.Short

/-- Without fields there are no long numbers. -/
lemma fieldsShort_nil : FieldsShort [] := by
  intro f hf
  exact nomatch hf

/-- A field may be set to a short number. -/
lemma FieldsShort.setField {fields : List (Text × Value)} (h : FieldsShort fields) {name : Text}
    {v : Value} (hv : ∀ n, v = .number n → n.Short) : FieldsShort (setField name v fields) := by
  intro f hf
  obtain hf | rfl := mem_setField hf
  · exact h f hf
  · exact hv

/-- The fields that are read hold short numbers. -/
lemma fieldsShort_of_readFields {fuel : Nat} {t rest : Text} {before fields : List (Text × Value)}
    (hbefore : FieldsShort before) (h : readFields fuel before t = .ok (fields, rest)) :
    FieldsShort fields := by
  induction fuel generalizing t before with
  | zero =>
    rw [readFields] at h
    exact nomatch h
  | succ fuel ih =>
    rw [readFields] at h
    obtain ⟨⟨name, between⟩, -, h⟩ := bind_eq_ok.mp h
    dsimp only at h
    split at h
    · exact nomatch h
    · split at h
      · obtain ⟨⟨v, after⟩, hvalue, h⟩ := bind_eq_ok.mp h
        have hset : FieldsShort (setField name v before) := by
          refine hbefore.setField fun n hn => ?_
          subst hn
          exact short_of_readValue hvalue
        dsimp only at h
        split at h
        · exact nomatch h
        · split at h
          · obtain ⟨rfl, -⟩ := Prod.mk.inj (Except.ok.inj h)
            exact hset
          · split at h
            · exact ih hset h
            · exact nomatch h
      · exact nomatch h

/-- The numbers of a record that is read are short. -/
lemma fieldsShort_of_readValue {fuel : Nat} {t rest : Text} {fields : List (Text × Value)}
    (h : readValue fuel t = .ok (.record fields, rest)) : FieldsShort fields := by
  obtain ⟨s, hs⟩ | ⟨items, hitems⟩ | ⟨found, less, later, hfound, hfields⟩ | hsound :=
    readValue_cases h
  · exact nomatch hs
  · exact nomatch hitems
  · obtain rfl := Value.record.inj hfound
    exact fieldsShort_of_readFields fieldsShort_nil hfields
  · cases hsound with
    | record hnames htexts hvalues =>
      intro f hf n hn
      have hnumber := hvalues f hf
      rw [hn] at hnumber
      cases hnumber with
      | number hshort => exact hshort

/-- The fields of a record that is read hold short numbers. -/
lemma fieldsShort_of_read {t : Text} {fields : List (Text × Value)}
    (h : read t = .ok (.record fields)) : FieldsShort fields := by
  obtain ⟨⟨v, rest⟩, hvalue, hend⟩ := bind_eq_ok.mp h
  dsimp only at hend
  split at hend
  · obtain rfl := Except.ok.inj hend
    exact fieldsShort_of_readValue hvalue
  · exact nomatch hend

/-! ### Doubles -/

/-- The double occurs in the value. -/
inductive Occurs (x : Float) : Value → Prop
  | here : Occurs x (.double x)
  | item {items : List Value} {v : Value} (hv : v ∈ items) (h : Occurs x v) : Occurs x (.list items)
  | field {fields : List (Text × Value)} {f : Text × Value} (hf : f ∈ fields) (h : Occurs x f.2) :
    Occurs x (.record fields)

/-- A sound value whose doubles have numerals that denote them. -/
lemma Sound.readsBack {v : Value} (h : v.Sound Number.Short)
    (hdoubles : ∀ x, Occurs x v → Number.ReadsBack (.double x)) : v.Sound Number.ReadsBack := by
  induction h with
  | null => exact .null
  | flag b => exact .flag b
  | @number n h =>
    cases n with
    | int n => exact .number h
    | double x => exact .number (hdoubles x .here)
  | text h => exact .text h
  | list h ih => exact .list fun v hv => ih v hv fun x hx => hdoubles x (.item hv hx)
  | record hnames htexts h ih =>
    exact .record hnames htexts fun f hf => ih f hf fun x hx => hdoubles x (.field hf hx)

/-! ### What is written is printable -/

/-- All characters are printable. -/
def AllPrinted (t : Text) : Prop := ∀ c ∈ t, c.IsPrinted

/-- Printable texts are printable one behind the other. -/
lemma AllPrinted.append {t u : Text} (ht : AllPrinted t) (hu : AllPrinted u) :
    AllPrinted (t ++ u) :=
  fun c hc => (List.mem_append.mp hc).elim (ht c) (hu c)

/-- A text of printable characters is printable. -/
lemma allPrinted_ofString {s : String} (h : ∀ c ∈ s.toList, (CodePoint.ofChar c).IsPrinted) :
    AllPrinted (Text.ofString s) := by
  intro c hc
  obtain ⟨d, hd, rfl⟩ := List.mem_map.mp hc
  exact h d hd

/-- A character is printable when a list of printable ones has it. -/
lemma isPrinted_of_mem {cs : List Char} {c : Char}
    (hcs : (cs.all fun c => decide (CodePoint.ofChar c).IsPrinted) = true) (h : c ∈ cs) :
    (CodePoint.ofChar c).IsPrinted :=
  of_decide_eq_true (List.all_eq_true.mp hcs c h)

/-- Digits are printable. -/
lemma isPrinted_of_isDigit {c : Char} (h : c.isDigit = true) : (CodePoint.ofChar c).IsPrinted := by
  have hdigit := val_of_asciiDigit? (asciiDigit?_ofChar h)
  exact ⟨by omega, by omega⟩

/-- The decimal digits of a number are printable. -/
lemma isPrinted_of_mem_toDigits {n : Nat} {c : Char} (h : c ∈ Nat.toDigits 10 n) :
    (CodePoint.ofChar c).IsPrinted :=
  isPrinted_of_isDigit (Nat.isDigit_of_mem_toDigits (by decide) le_rfl h)

/-- Digits with zeros in front of them are printable. -/
lemma isPrinted_of_mem_padLeft {width : Nat} {cs : List Char} {c : Char}
    (hcs : ∀ c ∈ cs, (CodePoint.ofChar c).IsPrinted) (h : c ∈ DoubleLayout.padLeft width cs) :
    (CodePoint.ofChar c).IsPrinted := by
  rcases List.mem_append.mp h with h | h
  · obtain rfl := List.eq_of_mem_replicate h
    decide
  · exact hcs c h

/-- A decimal is printable, however it is laid out. -/
lemma isPrinted_of_mem_placeDecimal {layout : DoubleLayout} {d : Decimal} {c : Char}
    (h : c ∈ layout.placeDecimal d) : (CodePoint.ofChar c).IsPrinted := by
  have hdigits (n : Nat) : ∀ c ∈ Nat.toDigits 10 n, (CodePoint.ofChar c).IsPrinted := fun _ =>
    isPrinted_of_mem_toDigits
  have hzeros (n : Nat) : ∀ c ∈ List.replicate n '0', (CodePoint.ofChar c).IsPrinted := by
    intro c hc
    obtain rfl := List.eq_of_mem_replicate hc
    decide
  unfold DoubleLayout.placeDecimal at h
  dsimp only at h
  split at h
  · -- with an exponent
    have hsign (leading : Int) :
        (CodePoint.ofChar (if leading < 0 then '-' else '+')).IsPrinted := by
      split <;> decide
    rcases List.mem_append.mp h with h | h
    · rcases List.mem_append.mp h with h | h
      · exact hdigits _ c (List.mem_of_mem_take h)
      · split at h
        · exact nomatch h
        · rcases List.mem_cons.mp h with rfl | h
          · decide
          · exact hdigits _ c (List.mem_of_mem_drop h)
    · rcases List.mem_cons.mp h with rfl | h
      · decide
      · rcases List.mem_cons.mp h with rfl | h
        · exact hsign _
        · exact isPrinted_of_mem_padLeft (hdigits _) h
  · split at h
    · rcases List.mem_cons.mp h with rfl | h
      · decide
      · rcases List.mem_cons.mp h with rfl | h
        · decide
        · exact (List.mem_append.mp h).elim (hzeros _ c) (hdigits _ c)
    · split at h
      · rcases List.mem_append.mp h with h | h
        · exact (List.mem_append.mp h).elim (hdigits _ c) (hzeros _ c)
        · exact isPrinted_of_mem (by decide) h
      · rcases List.mem_append.mp h with h | h
        · exact hdigits _ c (List.mem_of_mem_take h)
        · rcases List.mem_cons.mp h with rfl | h
          · decide
          · exact hdigits _ c (List.mem_of_mem_drop h)

/-- A numeral is printable. -/
lemma allPrinted_writeNumber (n : Number) : AllPrinted (writeNumber n) := by
  cases n with
  | int n =>
    refine allPrinted_ofString fun c hc => ?_
    rw [toList_toString] at hc
    split at hc
    · rcases List.mem_cons.mp hc with rfl | hc
      · decide
      · exact isPrinted_of_mem_toDigits hc
    · exact isPrinted_of_mem_toDigits hc
  | double x =>
    refine allPrinted_ofString fun c hc => ?_
    have hsign (negative : Bool) : ∀ c ∈ if negative then ['-'] else [],
        (CodePoint.ofChar c).IsPrinted := by
      cases negative <;> exact fun c => isPrinted_of_mem (by decide)
    unfold DoubleLayout.place at hc
    split at hc
    · exact isPrinted_of_mem (by decide) hc
    next negative hview =>
      cases negative <;> exact isPrinted_of_mem (by decide) hc
    next negative mantissa exponent hview =>
      dsimp only at hc
      split at hc
      · rw [String.toList_ofList] at hc
        exact (List.mem_append.mp hc).elim (hsign negative c) (isPrinted_of_mem (by decide))
      · rw [String.toList_ofList] at hc
        exact (List.mem_append.mp hc).elim (hsign negative c) isPrinted_of_mem_placeDecimal

/-- Printable parts with a printable separator between them are printable. -/
lemma allPrinted_separated {separator : String} (hseparator : AllPrinted (Text.ofString separator))
    {parts : List Text} (h : ∀ part ∈ parts, AllPrinted part) :
    AllPrinted (separated separator parts) := by
  induction parts with
  | nil => exact nofun
  | cons part parts ih =>
    have hrest := ih fun p hp => h p (List.mem_cons_of_mem _ hp)
    by_cases hparts : parts = []
    · subst hparts
      exact h part List.mem_cons_self
    · rw [separated_cons _ _ hparts]
      exact (h part List.mem_cons_self).append (hseparator.append hrest)

mutual

/-- A settings file is printable ASCII. -/
lemma allPrinted_write : ∀ v : Value, AllPrinted (v.write fileStyle)
  | .null => allPrinted_ofString fun _ => isPrinted_of_mem (by decide)
  | .flag true => allPrinted_ofString fun _ => isPrinted_of_mem (by decide)
  | .flag false => allPrinted_ofString fun _ => isPrinted_of_mem (by decide)
  | .number n => allPrinted_writeNumber n
  | .text _ => fun _ => isPrinted_of_mem_writeText
  | .list items =>
    .append (.append (allPrinted_ofString fun _ => isPrinted_of_mem (by decide))
      (allPrinted_separated (allPrinted_ofString fun _ => isPrinted_of_mem (by decide))
        (allPrinted_writeItems items))) (allPrinted_ofString fun _ => isPrinted_of_mem (by decide))
  | .record fields =>
    .append (.append (allPrinted_ofString fun _ => isPrinted_of_mem (by decide))
      (allPrinted_separated (allPrinted_ofString fun _ => isPrinted_of_mem (by decide))
        (allPrinted_writeFields fields)))
      (allPrinted_ofString fun _ => isPrinted_of_mem (by decide))

/-- The items of a list are printable in a file. -/
lemma allPrinted_writeItems : ∀ items : List Value, ∀ part ∈ writeItems fileStyle items,
    AllPrinted part
  | [], _, h => nomatch h
  | v :: items, part, h => by
    rcases List.mem_cons.mp h with rfl | h
    · exact allPrinted_write v
    · exact allPrinted_writeItems items part h

/-- The fields of a record are printable in a file. -/
lemma allPrinted_writeFields : ∀ fields : List (Text × Value),
    ∀ part ∈ writeFields fileStyle fields,
    AllPrinted part
  | [], _, h => nomatch h
  | (name, v) :: fields, part, h => by
    rcases List.mem_cons.mp h with rfl | h
    · refine .append (.append (fun _ => isPrinted_of_mem_writeText) ?_) (allPrinted_write v)
      exact allPrinted_ofString fun _ => isPrinted_of_mem (by decide)
    · exact allPrinted_writeFields fields part h

end

end Value

end PenRover
