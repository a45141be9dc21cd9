import Mathlib.Data.List.Chain
import PenRover.Proofs.Text.Encoding
import PenRover.Value.Reader
import PenRover.Value.Writer

/-!
# JSON strings

The writer of files escapes a code point beyond sixteen bits as two surrogates, and the reader makes
one code point of two surrogates that are escaped one behind the other.  So a text with a high and a
low surrogate next to each other cannot be told from one with the code point that they name: it
comes back as `Text.joined`, and every other text as it was (`readString_writeText`).

The reader never gives a text with such a pair, as long as what it reads has no surrogates of its
own (`unpaired_of_readString`).
-/

namespace PenRover

namespace CodePoint

/-- A high surrogate, the first of a pair. -/
def IsHigh (c : CodePoint) : Prop := 0xD800 ≤ c.val ∧ c.val ≤ 0xDBFF

/-- A low surrogate, the second of a pair. -/
def IsLow (c : CodePoint) : Prop := 0xDC00 ≤ c.val ∧ c.val ≤ 0xDFFF

instance (c : CodePoint) : Decidable c.IsHigh := inferInstanceAs (Decidable (_ ∧ _))

instance (c : CodePoint) : Decidable c.IsLow := inferInstanceAs (Decidable (_ ∧ _))

/-- The code point that a pair of surrogates names. -/
def pair (high low : CodePoint) : CodePoint :=
  ofNat (0x10000 + (high.val - 0xD800) * 0x400 + (low.val - 0xDC00))

/-- The number of the code point that a pair of surrogates names. -/
lemma val_pair {high low : CodePoint} (hhigh : high.IsHigh) (hlow : low.IsLow) :
    (pair high low).val = 0x10000 + (high.val - 0xD800) * 0x400 + (low.val - 0xDC00) := by
  refine val_ofNat ?_
  simp only [IsHigh, IsLow] at hhigh hlow
  omega

/-- A code point is that of its number. -/
@[simp] lemma ofNat_val (c : CodePoint) : ofNat c.val = c := by
  cases c
  simp [ofNat, *]

/-- The code point is printable ASCII. -/
def IsPrinted (c : CodePoint) : Prop := 0x20 ≤ c.val ∧ c.val < 0x7F

instance (c : CodePoint) : Decidable c.IsPrinted := inferInstanceAs (Decidable (_ ∧ _))

end CodePoint

namespace Text

/-- The text with every pair of surrogates as the code point that it names. -/
def joined : Text → Text
  | [] => []
  | [c] => [c]
  | c :: d :: rest =>
    if c.IsHigh ∧ d.IsLow then CodePoint.pair c d :: joined rest else c :: joined (d :: rest)

/-- No low surrogate stands right behind a high one. -/
def Unpaired (t : Text) : Prop := t.IsChain fun c d => ¬ (c.IsHigh ∧ d.IsLow)

/-- A text without pairs has nothing to join. -/
lemma joined_of_unpaired {t : Text} (h : t.Unpaired) : t.joined = t := by
  induction t using joined.induct with
  | case1 => rfl
  | case2 c => rfl
  | case3 c d rest hpair ih => exact absurd hpair (List.isChain_cons_cons.mp h).1
  | case4 c d rest hpair ih => rw [joined, if_neg hpair, ih (List.isChain_cons_cons.mp h).2]

/-- A text of plain code points has no pairs. -/
lemma Plain.unpaired {t : Text} (h : t.Plain) : t.Unpaired := by
  refine List.Pairwise.isChain (List.pairwise_of_forall_mem_list ?_)
  rintro c hc d - ⟨⟨hlow, hhigh⟩, -⟩
  have hsurrogate := CodePoint.isSurrogate_eq_false_iff.mp (h c hc)
  omega

end Text

namespace Value

/-! ### Units -/

/-- One hexadecimal digit. -/
lemma hexText_one {n : Nat} (h : n < 16) : hexText 1 n = [n.digitChar] := by
  simp [hexText, Nat.toDigits_of_lt_base h]

/-- Hexadecimal digits, all but the last one and the last one. -/
lemma hexText_succ {k : Nat} (hk : 1 ≤ k) (n : Nat) :
    hexText (k + 1) n = hexText k (n / 16) ++ [(n % 16).digitChar] := by
  by_cases hn : n < 16
  · have hzero : n / 16 = 0 := Nat.div_eq_of_lt hn
    rw [hexText, hexText, hzero, Nat.mod_eq_of_lt hn, Nat.toDigits_of_lt_base hn,
      Nat.toDigits_of_lt_base (by decide)]
    obtain ⟨k, rfl⟩ := Nat.exists_eq_add_of_le' hk
    simp [List.replicate_succ', Nat.digitChar]
  · rw [hexText, hexText, Nat.toDigits_of_base_le (by decide) (by omega)]
    simp

/-- An escape is a backslash, the letter `u` and four hexadecimal digits. -/
lemma escapeUnit_eq {n : Nat} (h : n < 0x10000) :
    escapeUnit n = [CodePoint.ofChar '\\', CodePoint.ofChar 'u',
      CodePoint.ofChar (n / 0x1000).digitChar, CodePoint.ofChar (n / 0x100 % 16).digitChar,
      CodePoint.ofChar (n / 0x10 % 16).digitChar, CodePoint.ofChar (n % 16).digitChar] := by
  rw [escapeUnit, Text.ofString, hexText_succ (by decide), hexText_succ (by decide),
    hexText_succ (by decide), hexText_one (by omega)]
  simp [Nat.div_div_eq_div_mul]

/-- A hexadecimal digit is read as its value. -/
lemma hexDigit?_digitChar {d : Nat} (h : d < 16) :
    hexDigit? (CodePoint.ofChar d.digitChar) = some d := by
  revert d
  decide

/-- Hexadecimal digits are printable. -/
lemma isPrinted_digitChar {d : Nat} (h : d < 16) :
    (CodePoint.ofChar d.digitChar).IsPrinted := by
  revert d
  decide

/-- An escaped unit is read as this unit. -/
lemma takeUnit_escapeUnit {n : Nat} (h : n < 0x10000) (rest : Text) :
    ∃ digits, escapeUnit n ++ rest = CodePoint.ofChar '\\' :: CodePoint.ofChar 'u' :: digits ∧
      takeUnit digits = some (n, rest) := by
  have hdigit (m : Nat) : hexDigit? (CodePoint.ofChar (m % 16).digitChar) = some (m % 16) :=
    hexDigit?_digitChar (Nat.mod_lt _ (by decide))
  have hfirst := hexDigit?_digitChar (show n / 0x1000 < 16 by omega)
  refine ⟨CodePoint.ofChar (n / 0x1000).digitChar :: CodePoint.ofChar (n / 0x100 % 16).digitChar ::
    CodePoint.ofChar (n / 0x10 % 16).digitChar :: CodePoint.ofChar (n % 16).digitChar :: rest,
    by rw [escapeUnit_eq h]; rfl, ?_⟩
  simp only [takeUnit, hfirst, hdigit, Option.bind_eq_bind, Option.bind_some, Option.pure_def,
    Option.some.injEq, Prod.mk.injEq, and_true]
  omega

/-! ### Escapes -/

/-- A code point is escaped by a letter, stands for itself, or is written as one unit or two. -/
lemma escapePoint_cases (c : CodePoint) :
    (∃ letter, letter ≠ CodePoint.ofChar 'u' ∧ namedEscape? letter = some c ∧ letter.IsPrinted ∧
      c.val < 0x7F ∧ escapePoint true c = [CodePoint.ofChar '\\', letter]) ∨
    (c.IsPrinted ∧ c ≠ CodePoint.ofChar '"' ∧ c ≠ CodePoint.ofChar '\\' ∧
      escapePoint true c = [c]) ∨
    (c.val < 0x10000 ∧ escapePoint true c = escapeUnit c.val) ∨
    (0x10000 ≤ c.val ∧ escapePoint true c =
      escapeUnit (0xD800 + (c.val - 0x10000) / 0x400) ++
        escapeUnit (0xDC00 + (c.val - 0x10000) % 0x400)) := by
  obtain ⟨t, ht⟩ : ∃ t, escapePoint true c = t := ⟨_, rfl⟩
  rw [ht]
  have hname {letter : CodePoint} {n : Nat} (hn : c.val = n)
      (hletter : namedEscape? letter = some (CodePoint.ofNat n)) :
      namedEscape? letter = some c := by
    rw [hletter, ← hn, CodePoint.ofNat_val]
  unfold escapePoint at ht
  split at ht
  next hn =>
    exact .inl ⟨CodePoint.ofChar '"', by decide, hname hn rfl, by decide, by omega, ht.symm⟩
  next hn =>
    exact .inl ⟨CodePoint.ofChar '\\', by decide, hname hn rfl, by decide, by omega, ht.symm⟩
  next hn =>
    exact .inl ⟨CodePoint.ofChar 'n', by decide, hname hn rfl, by decide, by omega, ht.symm⟩
  next hn =>
    exact .inl ⟨CodePoint.ofChar 'r', by decide, hname hn rfl, by decide, by omega, ht.symm⟩
  next hn =>
    exact .inl ⟨CodePoint.ofChar 't', by decide, hname hn rfl, by decide, by omega, ht.symm⟩
  next hn =>
    exact .inl ⟨CodePoint.ofChar 'b', by decide, hname hn rfl, by decide, by omega, ht.symm⟩
  next hn =>
    exact .inl ⟨CodePoint.ofChar 'f', by decide, hname hn rfl, by decide, by omega, ht.symm⟩
  next hquote hbackslash _ _ _ _ _ =>
    right
    split at ht
    · exact .inr (.inl ⟨by omega, ht.symm⟩)
    next hcontrol =>
      split at ht
      next hascii =>
        refine .inl ⟨⟨by omega, by simpa using hascii⟩, ?_, ?_, ht.symm⟩
        · rintro rfl
          exact hquote rfl
        · rintro rfl
          exact hbackslash rfl
      · split at ht
        next hsmall => exact .inr (.inl ⟨hsmall, ht.symm⟩)
        next hlarge => exact .inr (.inr ⟨by omega, ht.symm⟩)

/-- No code point is written as nothing. -/
lemma escapePoint_ne_nil (c : CodePoint) : escapePoint true c ≠ [] := by
  obtain ⟨letter, -, -, -, -, h⟩ | ⟨-, -, -, h⟩ | ⟨hc, h⟩ | ⟨hc, h⟩ :=
    escapePoint_cases c <;> rw [h]
  · exact List.cons_ne_nil _ _
  · exact List.cons_ne_nil _ _
  · rw [escapeUnit_eq hc]
    exact List.cons_ne_nil _ _
  · have hlt := c.val_lt
    rw [escapeUnit_eq (by omega)]
    exact List.cons_ne_nil _ _

/-- What is written in a string is printable. -/
lemma isPrinted_of_mem_escapePoint {c d : CodePoint} (h : d ∈ escapePoint true c) :
    d.IsPrinted := by
  have hunit {n : Nat} (hn : n < 0x10000) (hd : d ∈ escapeUnit n) : d.IsPrinted := by
    rw [escapeUnit_eq hn] at hd
    simp only [List.mem_cons, List.not_mem_nil, or_false] at hd
    obtain rfl | rfl | rfl | rfl | rfl | rfl := hd
    · decide
    · decide
    · exact isPrinted_digitChar (by omega)
    · exact isPrinted_digitChar (Nat.mod_lt _ (by decide))
    · exact isPrinted_digitChar (Nat.mod_lt _ (by decide))
    · exact isPrinted_digitChar (Nat.mod_lt _ (by decide))
  obtain ⟨letter, -, -, hletter, -, hc⟩ | ⟨hplain, -, -, hc⟩ | ⟨hsmall, hc⟩ | ⟨hlarge, hc⟩ :=
    escapePoint_cases c <;> rw [hc] at h
  · obtain rfl | rfl : d = CodePoint.ofChar '\\' ∨ d = letter := by simpa using h
    · decide
    · exact hletter
  · obtain rfl : d = c := by simpa using h
    exact hplain
  · exact hunit hsmall h
  · have hlt := c.val_lt
    rcases List.mem_append.mp h with h | h
    · exact hunit (by omega) h
    · exact hunit (by omega) h

/-- A pair of surrogates is written like the code point that it names. -/
lemma escapePoint_pair {high low : CodePoint} (hhigh : high.IsHigh) (hlow : low.IsLow) :
    escapePoint true (CodePoint.pair high low) = escapePoint true high ++ escapePoint true low := by
  have hunit {c : CodePoint} (hc : 0xD800 ≤ c.val ∧ c.val ≤ 0xDFFF) :
      escapePoint true c = escapeUnit c.val := by
    obtain ⟨letter, -, -, -, hsmall, -⟩ | ⟨⟨-, hsmall⟩, -⟩ | ⟨-, h⟩ | ⟨hlarge, -⟩ :=
      escapePoint_cases c
    · omega
    · omega
    · exact h
    · omega
  have hval := CodePoint.val_pair hhigh hlow
  simp only [CodePoint.IsHigh, CodePoint.IsLow] at hhigh hlow
  have hfirst : 0xD800 + ((CodePoint.pair high low).val - 0x10000) / 0x400 = high.val := by omega
  have hsecond : 0xDC00 + ((CodePoint.pair high low).val - 0x10000) % 0x400 = low.val := by omega
  rw [hunit (c := high) (by omega), hunit (c := low) (by omega)]
  obtain ⟨letter, -, -, -, hsmall, -⟩ | ⟨⟨-, hsmall⟩, -⟩ | ⟨hsmall, -⟩ | ⟨-, h⟩ :=
    escapePoint_cases (CodePoint.pair high low)
  · omega
  · omega
  · omega
  · rw [h, hfirst, hsecond]

/-! ### Reading escapes -/

/-- An escape of one letter is read as what the letter names. -/
lemma takeEscape_letter {letter c : CodePoint} (hne : letter ≠ CodePoint.ofChar 'u')
    (hname : namedEscape? letter = some c) (rest : Text) :
    takeEscape (letter :: rest) = some (c, rest) := by
  rw [takeEscape, if_neg hne, hname]
  rfl

/-- An escape that is no half of a pair is read as its code point. -/
lemma takeEscape_unit {digits rest : Text} {n : Nat} (h : takeUnit digits = some (n, rest))
    (halone : 0xD800 ≤ n → n ≤ 0xDBFF → takeLowSurrogate rest = none) :
    takeEscape (CodePoint.ofChar 'u' :: digits) = some (CodePoint.ofNat n, rest) := by
  rw [takeEscape, if_pos rfl, h]
  dsimp only
  split
  next hhigh => rw [halone hhigh.1 hhigh.2]
  · rfl

/-- Two escapes that make a pair are read as the code point of the pair. -/
lemma takeEscape_units {digits rest after : Text} {n low : Nat}
    (h : takeUnit digits = some (n, rest)) (hhigh : 0xD800 ≤ n ∧ n ≤ 0xDBFF)
    (hlow : takeLowSurrogate rest = some (low, after)) :
    takeEscape (CodePoint.ofChar 'u' :: digits) =
      some (CodePoint.ofNat (0x10000 + (n - 0xD800) * 0x400 + (low - 0xDC00)), after) := by
  rw [takeEscape, if_pos rfl, h]
  dsimp only
  rw [if_pos hhigh, hlow]

/-- An escape is the second half of a pair when it is a low surrogate. -/
lemma takeLowSurrogate_escapeUnit {n : Nat} (h : n < 0x10000) (rest : Text) :
    takeLowSurrogate (escapeUnit n ++ rest) =
      if 0xDC00 ≤ n ∧ n ≤ 0xDFFF then some (n, rest) else none := by
  obtain ⟨digits, hsplit, hunit⟩ := takeUnit_escapeUnit h rest
  rw [hsplit, takeLowSurrogate, if_pos ⟨rfl, rfl⟩, hunit]

/-- What is no escape is no half of a pair. -/
lemma takeLowSurrogate_of_ne {c : CodePoint} (h : c ≠ CodePoint.ofChar '\\') (rest : Text) :
    takeLowSurrogate (c :: rest) = none := by
  cases rest with
  | nil => rfl
  | cons d rest => rw [takeLowSurrogate, if_neg fun hboth => h hboth.1]

/-- What is written for any other code point is not taken for a low surrogate. -/
lemma takeLowSurrogate_escapePoint {c : CodePoint} (h : ¬ c.IsLow) (rest : Text) :
    takeLowSurrogate (escapePoint true c ++ rest) = none := by
  obtain ⟨letter, hne, -, -, -, hc⟩ | ⟨-, -, hbackslash, hc⟩ | ⟨hsmall, hc⟩ | ⟨hlarge, hc⟩ :=
    escapePoint_cases c <;> rw [hc]
  · change takeLowSurrogate (CodePoint.ofChar '\\' :: letter :: rest) = none
    rw [takeLowSurrogate, if_neg fun hboth => hne hboth.2]
  · exact takeLowSurrogate_of_ne hbackslash rest
  · rw [takeLowSurrogate_escapeUnit hsmall]
    exact if_neg h
  · have hlt := c.val_lt
    rw [List.append_assoc, takeLowSurrogate_escapeUnit (by omega), if_neg (by omega)]

/-! ### Reading strings -/

/-- A code point before the rest of a string. -/
def consTaken (c : CodePoint) : Option (Text × Text) → Option (Text × Text) :=
  Option.map fun found => (c :: found.1, found.2)

/-- A string goes on behind an escape. -/
lemma takeString_of_escape {t rest : Text} {c : CodePoint} (h : takeEscape t = some (c, rest))
    (fuel : Nat) :
    takeString (fuel + 1) (CodePoint.ofChar '\\' :: t) = consTaken c (takeString fuel rest) := by
  have hne : CodePoint.ofChar '\\' ≠ CodePoint.ofChar '"' := by decide
  rw [takeString, if_neg hne, if_pos rfl, h]
  cases hrest : takeString fuel rest <;> simp [hrest, consTaken]

/-- A written code point is read as this code point, unless it is a high surrogate with a low one
behind it. -/
lemma takeString_escapePoint (c : CodePoint) {rest : Text}
    (halone : c.IsHigh → takeLowSurrogate rest = none) (fuel : Nat) :
    takeString (fuel + 1) (escapePoint true c ++ rest) = consTaken c (takeString fuel rest) := by
  obtain ⟨letter, hne, hname, -, -, hc⟩ | ⟨hplain, hquote, hbackslash, hc⟩ | ⟨hsmall, hc⟩ |
    ⟨hlarge, hc⟩ := escapePoint_cases c <;> rw [hc]
  · exact takeString_of_escape (takeEscape_letter hne hname rest) fuel
  · have hcontrol : ¬ c.val < 0x20 := not_lt.mpr hplain.1
    rw [List.singleton_append, takeString, if_neg hquote, if_neg hbackslash, if_neg hcontrol]
    cases takeString fuel rest <;> rfl
  · obtain ⟨digits, hsplit, hunit⟩ := takeUnit_escapeUnit hsmall rest
    have hescape := takeEscape_unit hunit fun hlow hhigh => halone ⟨hlow, hhigh⟩
    rw [hsplit, takeString_of_escape hescape, CodePoint.ofNat_val]
  · have hlt := c.val_lt
    obtain ⟨digits, hsplit, hunit⟩ :=
      takeUnit_escapeUnit (n := 0xD800 + (c.val - 0x10000) / 0x400) (by omega)
        (escapeUnit (0xDC00 + (c.val - 0x10000) % 0x400) ++ rest)
    have hlow := takeLowSurrogate_escapeUnit (n := 0xDC00 + (c.val - 0x10000) % 0x400) (by omega)
      rest
    rw [if_pos (by omega)] at hlow
    have hescape := takeEscape_units hunit (by omega) hlow
    have hnumber : 0x10000 + (0xD800 + (c.val - 0x10000) / 0x400 - 0xD800) * 0x400 +
        (0xDC00 + (c.val - 0x10000) % 0x400 - 0xDC00) = c.val := by omega
    rw [List.append_assoc, hsplit, takeString_of_escape hescape, hnumber, CodePoint.ofNat_val]

/-- A written pair of surrogates is read as the code point that it names. -/
lemma takeString_pair {high low : CodePoint} (hhigh : high.IsHigh) (hlow : low.IsLow) (rest : Text)
    (fuel : Nat) :
    takeString (fuel + 1) (escapePoint true high ++ (escapePoint true low ++ rest)) =
      consTaken (CodePoint.pair high low) (takeString fuel rest) := by
  rw [← List.append_assoc, ← escapePoint_pair hhigh hlow]
  refine takeString_escapePoint _ (fun hpair => ?_) fuel
  have hval := CodePoint.val_pair hhigh hlow
  obtain ⟨-, hle⟩ := hpair
  omega

/-- What is written between the quotes is read with its pairs joined. -/
lemma takeString_flatMap (t rest : Text) {fuel : Nat} (hfuel : t.length < fuel) :
    takeString fuel (t.flatMap (escapePoint true) ++ CodePoint.ofChar '"' :: rest) =
      some (t.joined, rest) := by
  obtain ⟨fuel, rfl⟩ := Nat.exists_eq_add_of_lt (Nat.zero_lt_of_lt hfuel)
  rw [Nat.zero_add] at hfuel ⊢
  induction t using Text.joined.induct generalizing fuel with
  | case1 => rw [List.flatMap_nil, List.nil_append, takeString, if_pos rfl]; rfl
  | case2 c =>
    obtain ⟨fuel, rfl⟩ := Nat.exists_eq_add_of_lt (show 0 < fuel by simpa using hfuel)
    rw [List.flatMap_singleton, Nat.zero_add,
      takeString_escapePoint c fun _ => takeLowSurrogate_of_ne (by decide) rest, takeString,
      if_pos rfl]
    rfl
  | case3 c d more hpair ih =>
    simp only [List.length_cons] at hfuel
    obtain ⟨fuel, rfl⟩ := Nat.exists_eq_add_of_lt (show 0 < fuel by omega)
    rw [List.flatMap_cons, List.flatMap_cons, List.append_assoc, List.append_assoc, Nat.zero_add,
      takeString_pair hpair.1 hpair.2, ih fuel (by omega), Text.joined, if_pos hpair]
    rfl
  | case4 c d more hpair ih =>
    simp only [List.length_cons] at hfuel ih
    obtain ⟨fuel, rfl⟩ := Nat.exists_eq_add_of_lt (show 0 < fuel by omega)
    have halone : c.IsHigh → takeLowSurrogate ((d :: more).flatMap (escapePoint true) ++
        CodePoint.ofChar '"' :: rest) = none := by
      intro hhigh
      rw [List.flatMap_cons, List.append_assoc]
      exact takeLowSurrogate_escapePoint (fun hlow => hpair ⟨hhigh, hlow⟩) _
    rw [List.flatMap_cons, List.append_assoc, Nat.zero_add, takeString_escapePoint c halone,
      ih fuel (by omega), Text.joined, if_neg hpair]
    rfl

/-- A text is no longer than its escaped form. -/
lemma length_le_length_flatMap (t : Text) :
    t.length ≤ (t.flatMap (escapePoint true)).length := by
  induction t with
  | nil => exact Nat.le_refl 0
  | cons c rest ih =>
    have hpos := List.length_pos_iff.mpr (escapePoint_ne_nil c)
    rw [List.flatMap_cons, List.length_append, List.length_cons]
    omega

/-- A written text is read with its pairs joined. -/
lemma readString_writeText (t rest : Text) :
    readString (writeText true t ++ rest) = .ok (t.joined, rest) := by
  have hquote : writeText true t ++ rest =
      CodePoint.ofChar '"' :: (t.flatMap (escapePoint true) ++ CodePoint.ofChar '"' :: rest) := by
    simp [writeText, Text.ofString]
  have hlength := length_le_length_flatMap t
  rw [hquote, readString, if_pos rfl, takeString_flatMap]
  rw [List.length_cons, List.length_append]
  omega

/-- A text is written like the text with its pairs joined. -/
lemma writeText_joined (t : Text) : writeText true t.joined = writeText true t := by
  have hescape : t.joined.flatMap (escapePoint true) = t.flatMap (escapePoint true) := by
    induction t using Text.joined.induct with
    | case1 => rfl
    | case2 c => rfl
    | case3 c d rest hpair ih =>
      rw [Text.joined, if_pos hpair, List.flatMap_cons, List.flatMap_cons, List.flatMap_cons, ih,
        escapePoint_pair hpair.1 hpair.2, List.append_assoc]
    | case4 c d rest hpair ih =>
      rw [Text.joined, if_neg hpair, List.flatMap_cons, List.flatMap_cons, ih]
  rw [writeText, writeText, hescape]

/-- A text is written in printable characters. -/
lemma isPrinted_of_mem_writeText {t : Text} {c : CodePoint} (h : c ∈ writeText true t) :
    c.IsPrinted := by
  have hquote : (CodePoint.ofChar '"').IsPrinted := by decide
  obtain rfl | ⟨d, -, hd⟩ | rfl : c = CodePoint.ofChar '"' ∨ (∃ d ∈ t, c ∈ escapePoint true d) ∨
      c = CodePoint.ofChar '"' := by
    simpa [writeText, Text.ofString] using h
  · exact hquote
  · exact isPrinted_of_mem_escapePoint hd
  · exact hquote

/-! ### What strings are read as -/

/-- The value of a hexadecimal digit is below 16. -/
lemma hexDigit?_lt {c : CodePoint} {n : Nat} (h : hexDigit? c = some n) : n < 16 := by
  unfold hexDigit? at h
  split_ifs at h <;> simp only [Option.some.injEq] at h <;> omega

/-- What is behind four hexadecimal digits is an end of the text, and their value has 16 bits. -/
lemma takeUnit_eq_some {t rest : Text} {n : Nat} (h : takeUnit t = some (n, rest)) :
    rest <:+ t ∧ n < 0x10000 := by
  unfold takeUnit at h
  split at h
  next a b c d later =>
    simp only [Option.bind_eq_bind, Option.bind_eq_some_iff, Option.pure_def, Option.some.injEq,
      Prod.mk.injEq] at h
    obtain ⟨i, hi, j, hj, k, hk, l, hl, rfl, rfl⟩ := h
    have hi := hexDigit?_lt hi
    have hj := hexDigit?_lt hj
    have hk := hexDigit?_lt hk
    have hl := hexDigit?_lt hl
    exact ⟨⟨[a, b, c, d], rfl⟩, by omega⟩
  · exact nomatch h

/-- What is behind the second half of a pair is an end of the text, and the half is a low
surrogate. -/
lemma takeLowSurrogate_eq_some {t rest : Text} {n : Nat} (h : takeLowSurrogate t = some (n, rest)) :
    rest <:+ t ∧ 0xDC00 ≤ n ∧ n ≤ 0xDFFF := by
  unfold takeLowSurrogate at h
  split at h
  next a b digits =>
    split at h
    · split at h
      next m later hunit =>
        split at h
        next hrange =>
          obtain ⟨rfl, rfl⟩ := Prod.mk.inj (Option.some.inj h)
          exact ⟨(takeUnit_eq_some hunit).1.trans ⟨[a, b], rfl⟩, hrange⟩
        · exact nomatch h
      · exact nomatch h
    · exact nomatch h
  · exact nomatch h

/-- An escape of one letter names an ASCII character. -/
lemma namedEscape?_lt {letter c : CodePoint} (h : namedEscape? letter = some c) : c.val < 0x7F := by
  unfold namedEscape? at h
  split at h <;> simp only [Option.some.injEq, reduceCtorEq] at h <;> subst h <;> decide

/-- A high surrogate is the result of an escape only if no low one is escaped behind it. -/
lemma takeEscape_eq_some {t rest : Text} {c : CodePoint} (h : takeEscape t = some (c, rest)) :
    rest <:+ t ∧ (c.IsHigh → takeLowSurrogate rest = none) ∧
      (c.IsLow → takeLowSurrogate (CodePoint.ofChar '\\' :: t) ≠ none) := by
  cases t with
  | nil => exact nomatch h
  | cons letter digits =>
    rw [takeEscape] at h
    split at h
    next hu =>
      subst hu
      split at h
      · exact nomatch h
      next n later hunit =>
        obtain ⟨hsuffix, hn⟩ := takeUnit_eq_some hunit
        have hval : (CodePoint.ofNat n).val = n := CodePoint.val_ofNat (by omega)
        have hlater : later <:+ CodePoint.ofChar 'u' :: digits := hsuffix.trans ⟨[_], rfl⟩
        split at h
        next hhigh =>
          split at h
          next low after htake =>
            obtain ⟨rfl, rfl⟩ := Prod.mk.inj (Option.some.inj h)
            obtain ⟨hafter, hlow⟩ := takeLowSurrogate_eq_some htake
            have hpair : (CodePoint.ofNat (0x10000 + (n - 0xD800) * 0x400 + (low - 0xDC00))).val =
                0x10000 + (n - 0xD800) * 0x400 + (low - 0xDC00) := CodePoint.val_ofNat (by omega)
            refine ⟨hafter.trans hlater, ?_, ?_⟩
            · rintro ⟨-, hle⟩
              omega
            · rintro ⟨-, hle⟩
              omega
          next hnone =>
            obtain ⟨rfl, rfl⟩ := Prod.mk.inj (Option.some.inj h)
            refine ⟨hlater, fun _ => hnone, ?_⟩
            rintro ⟨hge, -⟩
            omega
        next hhigh =>
          obtain ⟨rfl, rfl⟩ := Prod.mk.inj (Option.some.inj h)
          refine ⟨hlater, fun hboth => absurd (by rwa [CodePoint.IsHigh, hval] at hboth) hhigh, ?_⟩
          intro hlow
          rw [CodePoint.IsLow, hval] at hlow
          rw [takeLowSurrogate, if_pos ⟨rfl, rfl⟩, hunit]
          simp [hlow]
    next hne =>
      obtain ⟨named, hname, hboth⟩ := Option.map_eq_some_iff.mp h
      obtain ⟨rfl, rfl⟩ := Prod.mk.inj hboth
      have hsmall := namedEscape?_lt hname
      refine ⟨⟨[letter], rfl⟩, ?_, ?_⟩
      · rintro ⟨hge, -⟩
        omega
      · rintro ⟨hge, -⟩
        omega

/-- An end of a plain text is plain. -/
lemma plain_of_suffix {t rest : Text} (h : t.Plain) (hsuffix : rest <:+ t) : rest.Plain :=
  fun c hc => h c (hsuffix.subset hc)

/-- A string that is read holds no pair.  It begins with a low surrogate only if that is escaped. -/
lemma takeString_eq_some {fuel : Nat} {t s rest : Text} (hplain : t.Plain)
    (h : takeString fuel t = some (s, rest)) :
    rest <:+ t ∧ s.Unpaired ∧
      (takeLowSurrogate t = none → ∀ c ∈ s.head?, ¬ c.IsLow) := by
  induction fuel generalizing t s with
  | zero => exact nomatch h
  | succ fuel ih =>
    cases t with
    | nil => exact nomatch h
    | cons c t =>
      have htail : t <:+ c :: t := ⟨[c], rfl⟩
      rw [takeString] at h
      split at h
      · obtain ⟨rfl, rfl⟩ := Prod.mk.inj (Option.some.inj h)
        exact ⟨htail, .nil, fun _ => nofun⟩
      · split at h
        next hbackslash =>
          subst hbackslash
          simp only [Option.bind_eq_bind, Option.bind_eq_some_iff, Option.pure_def,
            Option.some.injEq, Prod.mk.injEq] at h
          obtain ⟨⟨escaped, between⟩, hescape, ⟨more, after⟩, hmore, rfl, rfl⟩ := h
          obtain ⟨hbetween, hhigh, hlow⟩ := takeEscape_eq_some hescape
          obtain ⟨hrest, hunpaired, hhead⟩ :=
            ih (plain_of_suffix hplain (hbetween.trans htail)) hmore
          refine ⟨hrest.trans (hbetween.trans htail), ?_, ?_⟩
          · rw [Text.Unpaired, List.isChain_cons]
            exact ⟨fun d hd hpair => hhead (hhigh hpair.1) d hd hpair.2, hunpaired⟩
          · intro hnone d hd hdlow
            obtain rfl : escaped = d := by simpa using hd
            exact hlow hdlow hnone
        · split at h
          · exact nomatch h
          · simp only [Option.bind_eq_bind, Option.bind_eq_some_iff, Option.pure_def,
              Option.some.injEq, Prod.mk.injEq] at h
            obtain ⟨⟨more, after⟩, hmore, rfl, rfl⟩ := h
            obtain ⟨hc, ht⟩ := Text.plain_cons.mp hplain
            rw [CodePoint.isSurrogate_eq_false_iff] at hc
            obtain ⟨hrest, hunpaired, -⟩ := ih ht hmore
            refine ⟨hrest.trans htail, ?_, ?_⟩
            · rw [Text.Unpaired, List.isChain_cons]
              refine ⟨fun d hd hpair => ?_, hunpaired⟩
              obtain ⟨⟨hge, hle⟩, -⟩ := hpair
              omega
            · rintro - d hd ⟨hge, hle⟩
              obtain rfl : c = d := by simpa using hd
              omega

/-- A string that is read from a plain text has no pairs, and an end of the text is left. -/
lemma unpaired_of_readString {t s rest : Text} (hplain : t.Plain)
    (h : readString t = .ok (s, rest)) : rest <:+ t ∧ s.Unpaired := by
  unfold readString at h
  split at h
  next c t =>
    split at h
    · split at h
      next found htake =>
        obtain rfl := Except.ok.inj h
        obtain ⟨hrest, hunpaired, -⟩ := takeString_eq_some (Text.plain_cons.mp hplain).2 htake
        exact ⟨hrest.trans ⟨[c], rfl⟩, hunpaired⟩
      · exact nomatch h
    · exact nomatch h
  · exact nomatch h

end Value

end PenRover
