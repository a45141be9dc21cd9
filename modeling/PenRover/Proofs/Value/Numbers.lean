import Mathlib.Data.Nat.Digits.Lemmas
import PenRover.Proofs.Numeric.Layout
import PenRover.Proofs.Text.Numerals
import PenRover.Proofs.Value.Strings

/-!
# JSON numbers

A numeral ends where a comma or a closing bracket follows, so what is behind it does not matter to
its reader (`readNumber_append`).  An integer of at most 4300 digits is read back as itself, and
nothing longer is read.  A double that is not finite is written as a word, and this word stands for
the same double (`readWord?_writeNumber`).
-/

namespace PenRover

namespace Number

/-- An integer has at most as many digits as are read. -/
def Short : Number → Prop
  | .int n => (Nat.toDigits 10 n.natAbs).length ≤ maxNumeralDigits
  | .double _ => True

end Number

namespace Text

/-- Nothing that belongs to a numeral stands here: the text is at an end, at a comma, or at a
closing bracket. -/
def EndsNumeral (t : Text) : Prop :=
  ∀ c ∈ t.head?, c = CodePoint.ofChar ',' ∨ c = CodePoint.ofChar ']' ∨ c = CodePoint.ofNat 0x7D

/-- A numeral ends where the text does. -/
lemma endsNumeral_nil : EndsNumeral [] := nofun

/-- A number is below the power of ten with as many zeros as it has digits. -/
lemma ofDigits_lt {ds : List Nat} (h : ∀ d ∈ ds, d < 10) : ofDigits ds < 10 ^ ds.length := by
  rw [ofDigits_eq, ← List.length_reverse]
  exact Nat.ofDigits_lt_base_pow_length (by decide) fun d hd => h d (List.mem_reverse.mp hd)

end Text

namespace Value

open Text

/-! ### Digits -/

/-- A decimal digit is read as its value. -/
lemma asciiDigit?_ofChar {c : Char} (h : c.isDigit = true) :
    asciiDigit? (CodePoint.ofChar c) = some (c.toNat - 48) := by
  have hrange : 48 ≤ c.toNat ∧ c.toNat ≤ 57 := by
    simpa [Char.isDigit, UInt32.le_iff_toNat_le] using h
  have hval : (CodePoint.ofChar c).val = c.toNat := CodePoint.val_ofNat (by omega)
  rw [asciiDigit?, hval, if_pos hrange]

/-- The value of a digit is below ten. -/
lemma asciiDigit?_lt {c : CodePoint} {d : Nat} (h : asciiDigit? c = some d) : d < 10 := by
  unfold asciiDigit? at h
  split at h
  · obtain rfl := Option.some.inj h
    omega
  · exact nomatch h

/-- Digits end before a code point that is none. -/
lemma takeDigits_of_none {c : CodePoint} (h : asciiDigit? c = none) (rest : Text) :
    takeDigits (c :: rest) = ([], c :: rest) := by
  rw [takeDigits, h]

/-- Digits go on with a code point that is one. -/
lemma takeDigits_of_some {c : CodePoint} {d : Nat} (h : asciiDigit? c = some d) (rest : Text) :
    takeDigits (c :: rest) = (d :: (takeDigits rest).1, (takeDigits rest).2) := by
  rw [takeDigits, h]

/-- There are no digits where a numeral ends. -/
lemma takeDigits_of_endsNumeral {t : Text} (h : t.EndsNumeral) : takeDigits t = ([], t) := by
  cases t with
  | nil => rfl
  | cons c rest =>
    refine takeDigits_of_none ?_ rest
    obtain rfl | rfl | rfl := h c rfl <;> decide

/-- Digits end at the same place whatever follows. -/
lemma takeDigits_append (t : Text) {rest : Text} (h : rest.EndsNumeral) :
    takeDigits (t ++ rest) = ((takeDigits t).1, (takeDigits t).2 ++ rest) := by
  induction t with
  | nil => exact takeDigits_of_endsNumeral h
  | cons c t ih =>
    rw [List.cons_append]
    cases hc : asciiDigit? c with
    | none => rw [takeDigits_of_none hc, takeDigits_of_none hc]; rfl
    | some d => rw [takeDigits_of_some hc, takeDigits_of_some hc, ih]

/-- What is behind the digits is an end of the text, and the digits are below ten. -/
lemma takeDigits_eq (t : Text) : (takeDigits t).2 <:+ t ∧ ∀ d ∈ (takeDigits t).1, d < 10 := by
  induction t with
  | nil => exact ⟨List.suffix_rfl, nofun⟩
  | cons c t ih =>
    cases hc : asciiDigit? c with
    | none =>
      rw [takeDigits_of_none hc]
      exact ⟨List.suffix_rfl, nofun⟩
    | some d =>
      rw [takeDigits_of_some hc]
      exact ⟨ih.1.trans ⟨[c], rfl⟩, List.forall_mem_cons.mpr ⟨asciiDigit?_lt hc, ih.2⟩⟩

/-- The values of decimal digits. -/
def digitValues (cs : List Char) : List Nat := cs.map fun c => c.toNat - 48

/-- Digits are taken up to what is no digit. -/
lemma takeDigits_digits {cs : List Char} (hcs : ∀ c ∈ cs, c.isDigit = true) {rest : Text}
    (hrest : takeDigits rest = ([], rest)) :
    takeDigits (cs.map CodePoint.ofChar ++ rest) = (digitValues cs, rest) := by
  induction cs with
  | nil => exact hrest
  | cons c cs ih =>
    obtain ⟨hc, hcs⟩ := List.forall_mem_cons.mp hcs
    rw [List.map_cons, List.cons_append, takeDigits_of_some (asciiDigit?_ofChar hc), ih hcs]
    rfl

/-- The decimal digits of a number are digits. -/
lemma isDigit_toDigits (n : Nat) : ∀ c ∈ Nat.toDigits 10 n, c.isDigit = true := fun _ =>
  Nat.isDigit_of_mem_toDigits (by decide) le_rfl

/-- The digits of a natural number stand for it. -/
lemma ofDigits_toDigits (n : Nat) : ofDigits (digitValues (Nat.toDigits 10 n)) = n := by
  rw [ofDigits, digitValues, List.foldl_map]
  exact Nat.ofDigitChars_toDigits (by decide) le_rfl

/-- A number with these digits has at most as many. -/
lemma length_toDigits_ofDigits_le {ds : List Nat} (h : ∀ d ∈ ds, d < 10) {k : Nat} (hk : 0 < k)
    (hlength : ds.length ≤ k) : (Nat.toDigits 10 (ofDigits ds)).length ≤ k :=
  (Nat.length_toDigits_le_iff (by decide) hk).mpr
    ((ofDigits_lt h).trans_le (Nat.pow_le_pow_right (by decide) hlength))

/-! ### Parts of a numeral -/

/-- The digits before the point are read in front of what ends a numeral. -/
lemma takeWhole_append {t rest : Text} (h : rest.EndsNumeral) {ds : List Nat} {after : Text}
    (hwhole : takeWhole t = some (ds, after)) :
    takeWhole (t ++ rest) = some (ds, after ++ rest) := by
  unfold takeWhole at hwhole ⊢
  rw [takeDigits_append t h]
  rcases hdigits : takeDigits t with ⟨_ | ⟨_ | d, more⟩, later⟩ <;> rw [hdigits] at hwhole
  · exact nomatch hwhole
  · obtain ⟨rfl, rfl⟩ := Prod.mk.inj (Option.some.inj hwhole)
    cases t with
    | nil => exact nomatch hdigits
    | cons c t => rfl
  · obtain ⟨rfl, rfl⟩ := Prod.mk.inj (Option.some.inj hwhole)
    rfl

/-- The digits before the point. -/
lemma takeWhole_eq_some {t after : Text} {ds : List Nat} (h : takeWhole t = some (ds, after)) :
    after <:+ t ∧ (∀ d ∈ ds, d < 10) ∧ ∃ c more d, t = c :: more ∧ asciiDigit? c = some d := by
  have hdigits := takeDigits_eq t
  have hhead (hne : (takeDigits t).1 ≠ []) :
      ∃ c more d, t = c :: more ∧ asciiDigit? c = some d := by
    cases t with
    | nil => exact absurd rfl hne
    | cons c more =>
      cases hc : asciiDigit? c with
      | none => exact absurd (congrArg Prod.fst (takeDigits_of_none hc more)) hne
      | some d => exact ⟨c, more, d, rfl, hc⟩
  unfold takeWhole at h
  rcases htake : takeDigits t with ⟨_ | ⟨_ | d, more⟩, later⟩ <;> rw [htake] at h hdigits hhead
  · exact nomatch h
  · obtain ⟨rfl, rfl⟩ := Prod.mk.inj (Option.some.inj h)
    exact ⟨List.drop_suffix 1 t, by simp, hhead (List.cons_ne_nil _ _)⟩
  · obtain ⟨rfl, rfl⟩ := Prod.mk.inj (Option.some.inj h)
    exact ⟨hdigits.1, hdigits.2, hhead (List.cons_ne_nil _ _)⟩

/-- The digits of a positive number do not begin with a zero: the rest alone would have the value of
the whole. -/
lemma exists_toDigits_eq_cons {n : Nat} (hn : n ≠ 0) :
    ∃ c more, Nat.toDigits 10 n = c :: more ∧ c.toNat - 48 ≠ 0 := by
  obtain ⟨c, more, hdigits⟩ := List.exists_cons_of_ne_nil (Nat.toDigits_ne_nil (n := n) (b := 10))
  refine ⟨c, more, hdigits, fun hzero => ?_⟩
  have hvalue := ofDigits_toDigits n
  rw [hdigits, digitValues, List.map_cons, hzero] at hvalue
  have hrest : ofDigits (digitValues more) = n := hvalue
  have hbound : ∀ d ∈ digitValues more, d < 10 := by
    intro d hd
    obtain ⟨c, hc, rfl⟩ := List.mem_map.mp hd
    exact asciiDigit?_lt (asciiDigit?_ofChar
      (isDigit_toDigits n c (hdigits ▸ List.mem_cons_of_mem _ hc)))
  rcases eq_or_ne more [] with rfl | hne
  · exact hn hrest.symm
  · have hlt := ofDigits_lt hbound
    rw [hrest, digitValues, List.length_map] at hlt
    have hle := (Nat.length_toDigits_le_iff (by decide) (List.length_pos_iff.mpr hne)).mpr hlt
    rw [hdigits, List.length_cons] at hle
    omega

/-- Digits that do not begin with a zero are all digits before the point. -/
lemma takeWhole_digits {c : Char} {cs : List Char} (hcs : ∀ d ∈ c :: cs, d.isDigit = true)
    (hc : c.toNat - 48 ≠ 0) {rest : Text} (hrest : takeDigits rest = ([], rest)) :
    takeWhole ((c :: cs).map CodePoint.ofChar ++ rest) = some (digitValues (c :: cs), rest) := by
  unfold takeWhole
  rw [takeDigits_digits hcs hrest, digitValues, List.map_cons]
  split
  next h => exact nomatch h
  next h => exact absurd (List.cons.inj (Prod.mk.inj h).1).1 hc
  next h =>
    obtain ⟨rfl, rfl⟩ := Prod.mk.inj h
    rfl

/-- The digits of a natural number are all digits before the point. -/
lemma takeWhole_toDigits (n : Nat) {rest : Text} (h : rest.EndsNumeral) :
    ∃ ds, takeWhole ((Nat.toDigits 10 n).map CodePoint.ofChar ++ rest) = some (ds, rest) ∧
      ds.length = (Nat.toDigits 10 n).length ∧ ofDigits ds = n := by
  have hrest := takeDigits_of_endsNumeral h
  refine ⟨digitValues (Nat.toDigits 10 n), ?_, List.length_map _, ofDigits_toDigits n⟩
  rcases eq_or_ne n 0 with rfl | hn
  · have hzero : takeDigits ((Nat.toDigits 10 0).map CodePoint.ofChar ++ rest) = ([0], rest) :=
      takeDigits_digits (isDigit_toDigits 0) hrest
    unfold takeWhole
    rw [hzero]
    rfl
  · obtain ⟨c, more, hdigits, hc⟩ := exists_toDigits_eq_cons hn
    have hcs := isDigit_toDigits n
    rw [hdigits] at hcs ⊢
    exact takeWhole_digits hcs hc hrest

/-- There is no fraction where a numeral ends. -/
lemma takeFraction_of_endsNumeral {t : Text} (h : t.EndsNumeral) : takeFraction t = none := by
  cases t with
  | nil => rfl
  | cons c rest =>
    rw [takeFraction, if_neg]
    obtain rfl | rfl | rfl := h c rfl <;> decide

/-- There is no exponent where a numeral ends. -/
lemma takeExponent_of_endsNumeral {t : Text} (h : t.EndsNumeral) : takeExponent t = none := by
  cases t with
  | nil => rfl
  | cons c rest =>
    rw [takeExponent, if_neg]
    obtain rfl | rfl | rfl := h c rfl <;> decide

/-- A fraction is read in front of what ends a numeral. -/
lemma takeFraction_append (t : Text) {rest : Text} (h : rest.EndsNumeral) :
    takeFraction (t ++ rest) = (takeFraction t).map fun found => (found.1, found.2 ++ rest) := by
  cases t with
  | nil => exact takeFraction_of_endsNumeral h
  | cons c t =>
    rw [List.cons_append, takeFraction, takeFraction, takeDigits_append t h]
    split
    · rcases takeDigits t with ⟨_ | _, _⟩ <;> rfl
    · rfl

/-- A sign is read in front of what ends a numeral. -/
lemma splitSign_append (t : Text) {rest : Text} (h : rest.EndsNumeral) :
    splitSign (t ++ rest) = ((splitSign t).1, (splitSign t).2 ++ rest) := by
  cases t with
  | nil =>
    cases rest with
    | nil => rfl
    | cons c rest =>
      have hsigns : c ≠ CodePoint.ofChar '-' ∧ c ≠ CodePoint.ofChar '+' := by
        obtain rfl | rfl | rfl := h c rfl <;> decide
      simp [splitSign, hsigns]
  | cons c t =>
    rw [List.cons_append, splitSign, splitSign]
    split
    · rfl
    · split <;> rfl

/-- An exponent is read in front of what ends a numeral. -/
lemma takeExponent_append (t : Text) {rest : Text} (h : rest.EndsNumeral) :
    takeExponent (t ++ rest) = (takeExponent t).map fun found => (found.1, found.2 ++ rest) := by
  cases t with
  | nil => exact takeExponent_of_endsNumeral h
  | cons c t =>
    rw [List.cons_append, takeExponent, takeExponent, splitSign_append t h]
    split
    · dsimp only
      rw [takeDigits_append _ h]
      rcases takeDigits (splitSign t).2 with ⟨_ | _, _⟩ <;> rfl
    · rfl

/-- What is behind a fraction is an end of the text. -/
lemma takeFraction_eq_some {t after : Text} {ds : List Nat}
    (h : takeFraction t = some (ds, after)) :
    after <:+ t := by
  cases t with
  | nil => exact nomatch h
  | cons c t =>
    have hdigits := (takeDigits_eq t).1
    rw [takeFraction] at h
    split at h
    · rcases htake : takeDigits t with ⟨_ | ⟨d, more⟩, later⟩ <;> rw [htake] at h hdigits
      · exact nomatch h
      · obtain ⟨-, rfl⟩ := Prod.mk.inj (Option.some.inj h)
        exact hdigits.trans ⟨[c], rfl⟩
    · exact nomatch h

/-- What is behind a sign is an end of the text. -/
lemma splitSign_suffix (t : Text) : (splitSign t).2 <:+ t := by
  obtain h | ⟨rest, rfl, h⟩ | ⟨rest, rfl, h⟩ := splitSign_cases t <;> rw [h]
  · exact ⟨[_], rfl⟩
  · exact ⟨[_], rfl⟩

/-- What is behind an exponent is an end of the text. -/
lemma takeExponent_eq_some {t after : Text} {power : Int}
    (h : takeExponent t = some (power, after)) :
    after <:+ t := by
  cases t with
  | nil => exact nomatch h
  | cons c t =>
    have hdigits := (takeDigits_eq (splitSign t).2).1.trans (splitSign_suffix t)
    rw [takeExponent] at h
    split at h
    · dsimp only at h
      rcases htake : takeDigits (splitSign t).2 with ⟨_ | ⟨d, more⟩, later⟩ <;>
        rw [htake] at h hdigits
      · exact nomatch h
      · obtain ⟨-, rfl⟩ := Prod.mk.inj (Option.some.inj h)
        exact hdigits.trans ⟨[c], rfl⟩
    · exact nomatch h

/-! ### Numerals -/

/-- The sign before a number, and what follows it. -/
def splitMinus : Text → Bool × Text
  | c :: rest => if c = CodePoint.ofChar '-' then (true, rest) else (false, c :: rest)
  | [] => (false, [])

/-- The number without its sign, from the digits before the point on. -/
def readUnsigned (negative : Bool) (whole : List Nat) (t : Text) :
    Except JsonError (Value × Text) :=
  match takeFraction t with
  | none =>
    match takeExponent t with
    | none =>
      if maxNumeralDigits < whole.length then .error (.numeralTooLong whole.length)
      else .ok (.int (if negative then -(ofDigits whole : Int) else ofDigits whole), t)
    | some (power, after) => .ok (.double (Double.ofDecimal negative (ofDigits whole) power), after)
  | some (digits, later) =>
    let (power, after) := (takeExponent later).getD (0, later)
    .ok (.double (Double.ofDecimal negative (ofDigits (whole ++ digits)) (power - digits.length)),
      after)

/-- A number is read as its sign, the digits before the point, and the rest. -/
lemma readNumber_eq (t : Text) :
    readNumber t = match takeWhole (splitMinus t).2 with
      | none => .error .malformed
      | some (whole, rest) => readUnsigned (splitMinus t).1 whole rest := by
  cases t with
  | nil => rfl
  | cons c t =>
    by_cases hc : c = CodePoint.ofChar '-'
    all_goals
      simp only [readNumber, splitMinus, hc, if_true, if_false]
      rcases takeWhole _ with _ | ⟨whole, rest⟩
      · rfl
      · dsimp only [readUnsigned]
        cases hfraction : takeFraction rest with
        | none => cases hexponent : takeExponent rest <;> simp [hexponent]
        | some found => cases hexponent : takeExponent found.2 <;> simp [hexponent]

/-- A number without its sign is read in front of what ends a numeral. -/
lemma readUnsigned_append {negative : Bool} {whole : List Nat} {t rest after : Text} {v : Value}
    (hrest : rest.EndsNumeral) (h : readUnsigned negative whole t = .ok (v, after)) :
    readUnsigned negative whole (t ++ rest) = .ok (v, after ++ rest) := by
  unfold readUnsigned at h ⊢
  rw [takeFraction_append t hrest]
  cases hfraction : takeFraction t with
  | none =>
    rw [hfraction] at h
    dsimp only [Option.map_none] at h ⊢
    rw [takeExponent_append t hrest]
    cases hexponent : takeExponent t with
    | none =>
      rw [hexponent] at h
      dsimp only [Option.map_none] at h ⊢
      split at h
      · exact nomatch h
      next hlength =>
        obtain ⟨rfl, rfl⟩ := Prod.mk.inj (Except.ok.inj h)
        rw [if_neg hlength]
    | some found =>
      rw [hexponent] at h
      obtain ⟨rfl, rfl⟩ := Prod.mk.inj (Except.ok.inj h)
      rfl
  | some found =>
    rw [hfraction] at h
    dsimp only [Option.map_some] at h ⊢
    rw [takeExponent_append _ hrest]
    cases hexponent : takeExponent found.2 with
    | none =>
      rw [hexponent] at h
      obtain ⟨rfl, rfl⟩ := Prod.mk.inj (Except.ok.inj h)
      rfl
    | some more =>
      rw [hexponent] at h
      obtain ⟨rfl, rfl⟩ := Prod.mk.inj (Except.ok.inj h)
      rfl

/-- What is read as a number is one with few enough digits, and an end of the text is left. -/
lemma readUnsigned_eq_ok {negative : Bool} {whole : List Nat} {t after : Text} {v : Value}
    (hdigits : ∀ d ∈ whole, d < 10) (h : readUnsigned negative whole t = .ok (v, after)) :
    after <:+ t ∧ ∃ n, v = .number n ∧ n.Short := by
  unfold readUnsigned at h
  cases hfraction : takeFraction t with
  | none =>
    rw [hfraction] at h
    dsimp only at h
    cases hexponent : takeExponent t with
    | none =>
      rw [hexponent] at h
      dsimp only at h
      split at h
      · exact nomatch h
      next hlength =>
        obtain ⟨rfl, rfl⟩ := Prod.mk.inj (Except.ok.inj h)
        refine ⟨List.suffix_rfl, _, rfl, ?_⟩
        have hshort := length_toDigits_ofDigits_le hdigits (by decide) (not_lt.mp hlength)
        cases negative <;> simpa [Number.Short] using hshort
    | some found =>
      rw [hexponent] at h
      obtain ⟨rfl, rfl⟩ := Prod.mk.inj (Except.ok.inj h)
      exact ⟨takeExponent_eq_some hexponent, _, rfl, trivial⟩
  | some found =>
    rw [hfraction] at h
    dsimp only at h
    have hlater := takeFraction_eq_some hfraction
    cases hexponent : takeExponent found.2 with
    | none =>
      rw [hexponent] at h
      obtain ⟨rfl, rfl⟩ := Prod.mk.inj (Except.ok.inj h)
      exact ⟨hlater, _, rfl, trivial⟩
    | some more =>
      rw [hexponent] at h
      obtain ⟨rfl, rfl⟩ := Prod.mk.inj (Except.ok.inj h)
      exact ⟨(takeExponent_eq_some hexponent).trans hlater, _, rfl, trivial⟩

/-- A numeral is read the same whatever follows it. -/
lemma readNumber_append {t rest after : Text} {v : Value} (hrest : rest.EndsNumeral)
    (h : readNumber t = .ok (v, after)) : readNumber (t ++ rest) = .ok (v, after ++ rest) := by
  rw [readNumber_eq] at h ⊢
  have hsign (hne : t ≠ []) :
      splitMinus (t ++ rest) = ((splitMinus t).1, (splitMinus t).2 ++ rest) := by
    cases t with
    | nil => exact absurd rfl hne
    | cons c t =>
      rw [List.cons_append, splitMinus, splitMinus]
      split <;> rfl
  cases hwhole : takeWhole (splitMinus t).2 with
  | none =>
    rw [hwhole] at h
    exact nomatch h
  | some found =>
    obtain ⟨whole, later⟩ := found
    rw [hwhole] at h
    have hne : t ≠ [] := by
      rintro rfl
      exact nomatch hwhole
    rw [hsign hne, takeWhole_append hrest hwhole]
    exact readUnsigned_append hrest h

/-- What is read as a number, and how it begins. -/
lemma readNumber_eq_ok {t after : Text} {v : Value} (h : readNumber t = .ok (v, after)) :
    after <:+ t ∧ (∃ n, v = .number n ∧ n.Short) ∧
      ∃ c more d, (t = c :: more ∨ t = CodePoint.ofChar '-' :: c :: more) ∧
        asciiDigit? c = some d := by
  rw [readNumber_eq] at h
  have hsuffix : (splitMinus t).2 <:+ t := by
    cases t with
    | nil => exact List.suffix_rfl
    | cons c t =>
      rw [splitMinus]
      split
      · exact ⟨[c], rfl⟩
      · exact List.suffix_rfl
  cases hwhole : takeWhole (splitMinus t).2 with
  | none =>
    rw [hwhole] at h
    exact nomatch h
  | some found =>
    obtain ⟨whole, later⟩ := found
    rw [hwhole] at h
    obtain ⟨hlater, hdigits, c, more, d, hbegin, hd⟩ := takeWhole_eq_some hwhole
    have hrest := readUnsigned_eq_ok hdigits h
    refine ⟨hrest.1.trans (hlater.trans hsuffix), hrest.2, c, more, d, ?_, hd⟩
    cases t with
    | nil => exact nomatch hwhole
    | cons first t =>
      rw [splitMinus] at hbegin
      split at hbegin
      next hminus =>
        subst hminus
        exact .inr (congrArg _ hbegin)
      · exact .inl hbegin

/-! ### Integers -/

/-- An integer is written as its sign and its decimal digits. -/
lemma toList_toString (n : Int) :
    (toString n).toList = if n < 0 then '-' :: Nat.toDigits 10 n.natAbs
      else Nat.toDigits 10 n.natAbs := by
  change n.repr.toList = _
  rw [Int.repr_eq_if]
  split
  next hn =>
    rw [if_neg (not_lt.mpr hn), Nat.toList_repr]
    congr 1
    omega
  next hn =>
    rw [if_pos (not_le.mp hn), String.toList_append, Nat.toList_repr]
    have habs : (-n).toNat = n.natAbs := by omega
    rw [habs]
    rfl

/-- An integer is read back. -/
lemma readNumber_int {n : Int} (h : (Number.int n).Short) {rest : Text} (hrest : rest.EndsNumeral) :
    readNumber (writeNumber (.int n) ++ rest) = .ok (.int n, rest) := by
  obtain ⟨ds, hwhole, hlength, hvalue⟩ := takeWhole_toDigits n.natAbs hrest
  have hshort : ¬ maxNumeralDigits < ds.length := by
    rw [hlength]
    exact not_lt.mpr h
  have hunsigned (negative : Bool) : readUnsigned negative ds rest =
      .ok (.int (if negative then -(n.natAbs : Int) else n.natAbs), rest) := by
    simp only [readUnsigned, takeFraction_of_endsNumeral hrest, takeExponent_of_endsNumeral hrest,
      if_neg hshort, hvalue]
  rw [readNumber_eq, writeNumber, Text.ofString, toList_toString]
  by_cases hn : n < 0
  · rw [if_pos hn]
    have hsign : splitMinus (('-' :: Nat.toDigits 10 n.natAbs).map CodePoint.ofChar ++ rest) =
        (true, (Nat.toDigits 10 n.natAbs).map CodePoint.ofChar ++ rest) := rfl
    have hvalue : -(n.natAbs : Int) = n := by omega
    rw [hsign, hwhole]
    dsimp only
    rw [hunsigned, if_pos rfl, hvalue]
  · rw [if_neg hn]
    obtain ⟨-, -, c, more, d, hbegin, hd⟩ := takeWhole_eq_some hwhole
    have hne : c ≠ CodePoint.ofChar '-' := by
      rintro rfl
      exact Option.some_ne_none d hd.symm
    have hsign : splitMinus ((Nat.toDigits 10 n.natAbs).map CodePoint.ofChar ++ rest) =
        (false, (Nat.toDigits 10 n.natAbs).map CodePoint.ofChar ++ rest) := by
      rw [hbegin, splitMinus, if_neg hne]
    have hvalue : (n.natAbs : Int) = n := by omega
    rw [hsign, hwhole]
    dsimp only
    rw [hunsigned, if_neg Bool.false_ne_true, hvalue]

/-! ### Words -/

/-- A double that is not finite is written as a word for it. -/
lemma readWord?_writeNumber {x : Float} (h : Double.isFinite x = false) (rest : Text) :
    readWord? (writeNumber (.double x) ++ rest) = some (.double x, rest) := by
  unfold Double.isFinite at h
  rw [writeNumber, DoubleLayout.place]
  cases hview : Double.view x with
  | nan =>
    rw [Double.eq_of_view_nan hview]
    rfl
  | infinite negative =>
    rw [Double.eq_of_view_infinite hview]
    cases negative <;> rfl
  | finite negative mantissa exponent =>
    rw [hview] at h
    exact nomatch h

/-- The first two letters of the words. -/
def wordStarts : List (Char × Char) :=
  [('n', 'u'), ('t', 'r'), ('f', 'a'), ('N', 'a'), ('I', 'n'), ('-', 'I')]

/-- A text that does not begin like a word is none. -/
lemma readWord?_eq_none {t : Text}
    (h : ∀ start ∈ wordStarts, ∀ later,
      t ≠ CodePoint.ofChar start.1 :: CodePoint.ofChar start.2 :: later) : readWord? t = none := by
  have hnone (word : String) (start : Char × Char) (hstart : start ∈ wordStarts)
      (hword : ∃ letters, word.toList = start.1 :: start.2 :: letters) :
      afterWord? word t = none := by
    obtain ⟨letters, hword⟩ := hword
    rw [afterWord?, Text.ofString, hword]
    refine if_neg fun hprefix => ?_
    obtain ⟨later, hlater⟩ := List.isPrefixOf_iff_prefix.mp hprefix
    exact h start hstart _ hlater.symm
  simp [readWord?, words, hnone "null" ('n', 'u') (by decide) ⟨_, rfl⟩,
    hnone "true" ('t', 'r') (by decide) ⟨_, rfl⟩, hnone "false" ('f', 'a') (by decide) ⟨_, rfl⟩,
    hnone "NaN" ('N', 'a') (by decide) ⟨_, rfl⟩, hnone "Infinity" ('I', 'n') (by decide) ⟨_, rfl⟩,
    hnone "-Infinity" ('-', 'I') (by decide) ⟨_, rfl⟩]

/-- What begins with a digit, or with a minus sign and a digit, is no word. -/
lemma readWord?_of_digit {t more : Text} {c : CodePoint} {d : Nat}
    (hbegin : t = c :: more ∨ t = CodePoint.ofChar '-' :: c :: more) (hd : asciiDigit? c = some d) :
    readWord? t = none := by
  have hletters : ∀ start ∈ wordStarts, asciiDigit? (CodePoint.ofChar start.1) = none ∧
      asciiDigit? (CodePoint.ofChar start.2) = none := by decide
  refine readWord?_eq_none fun start hstart later ht => ?_
  obtain ⟨hfirst, hsecond⟩ := hletters start hstart
  obtain rfl | rfl := hbegin
  · obtain ⟨rfl, -⟩ := List.cons.inj ht
    exact nomatch hfirst.symm.trans hd
  · obtain ⟨rfl, -⟩ := List.cons.inj (List.cons.inj ht).2
    exact nomatch hsecond.symm.trans hd

end Value

end PenRover
