import PenRover.Proofs.Numeric.Decimals
import PenRover.Proofs.Value.RoundTrip

/-!
# Doubles in JSON

A finite double is written as its shortest decimal, and there are four ways in which a decimal is
laid out: with an exponent, as a fraction below one, as a whole number with a zero behind the point,
and with the point between its digits.  Each of them is read as digits with an exponent that denote
the decimal again (`readsDecimal_placeDecimal`), so the reader comes back to the double that was
written (`Number.readsBack_double`).
-/

namespace PenRover

namespace Value

open Text

/-! ### Digits side by side -/

/-- The number of two runs of digits, one behind the other. -/
lemma ofDigits_append (ds es : List Nat) :
    ofDigits (ds ++ es) = ofDigits ds * 10 ^ es.length + ofDigits es := by
  rw [ofDigits, List.foldl_append, foldl_digits, ← ofDigits_eq]
  rfl

/-- The values of two runs of digits come one behind the other. -/
lemma digitValues_append (cs ds : List Char) :
    digitValues (cs ++ ds) = digitValues cs ++ digitValues ds := List.map_append

/-- Zeros have the value zero. -/
lemma ofDigits_zeros (k : Nat) : ofDigits (digitValues (List.replicate k '0')) = 0 := by
  induction k with
  | zero => rfl
  | succ k ih => exact ih

/-- Zero is a digit. -/
lemma isDigit_zero : ∀ c ∈ ['0'], c.isDigit = true := List.forall_mem_singleton.mpr rfl

/-- Zeros are digits. -/
lemma isDigit_zeros (k : Nat) : ∀ c ∈ List.replicate k '0', c.isDigit = true := by
  intro c hc
  obtain rfl := List.eq_of_mem_replicate hc
  decide

/-- Zeros before a natural number. -/
lemma ofDigits_padded (k n : Nat) :
    ofDigits (digitValues (List.replicate k '0' ++ Nat.toDigits 10 n)) = n := by
  rw [digitValues_append, ofDigits_append, ofDigits_zeros, zero_mul, zero_add, ofDigits_toDigits]

/-- Zeros behind a natural number. -/
lemma ofDigits_scaled (n k : Nat) :
    ofDigits (digitValues (Nat.toDigits 10 n ++ List.replicate k '0')) = n * 10 ^ k := by
  rw [digitValues_append, ofDigits_append, ofDigits_toDigits, ofDigits_zeros, digitValues,
    List.length_map, List.length_replicate, add_zero]

/-! ### Parts of a double -/

/-- There are no digits in an empty text. -/
lemma takeDigits_nil : takeDigits [] = ([], []) := rfl

/-- The text stands where digits end. -/
lemma takeDigits_of_ofChar {c : Char} (hc : asciiDigit? (CodePoint.ofChar c) = none)
    (cs : List Char) :
    takeDigits ((c :: cs).map CodePoint.ofChar) = ([], (c :: cs).map CodePoint.ofChar) :=
  takeDigits_of_none hc _

/-- All digits of a text. -/
lemma takeDigits_all {cs : List Char} (hcs : ∀ c ∈ cs, c.isDigit = true) :
    takeDigits (cs.map CodePoint.ofChar) = (digitValues cs, []) := by
  have h := takeDigits_digits hcs takeDigits_nil
  rwa [List.append_nil] at h

/-- The digits behind a point. -/
lemma takeFraction_digits {cs : List Char} (hcs : ∀ c ∈ cs, c.isDigit = true) (hne : cs ≠ [])
    {rest : Text} (hrest : takeDigits rest = ([], rest)) :
    takeFraction (('.' :: cs).map CodePoint.ofChar ++ rest) = some (digitValues cs, rest) := by
  obtain ⟨c, more, rfl⟩ := List.exists_cons_of_ne_nil hne
  rw [List.map_cons, List.cons_append, takeFraction, if_pos rfl, takeDigits_digits hcs hrest]
  rfl

/-- An exponent with its sign. -/
lemma takeExponent_digits {n : Int} {cs : List Char} (hcs : ∀ c ∈ cs, c.isDigit = true)
    (hne : cs ≠ []) (hn : ofDigits (digitValues cs) = n.natAbs) :
    takeExponent (('e' :: (if n < 0 then '-' else '+') :: cs).map CodePoint.ofChar) =
      some (n, []) := by
  have hvalues : digitValues cs ≠ [] := mt List.map_eq_nil_iff.mp hne
  have hdigits := takeDigits_all hcs
  obtain ⟨d, ds, hd⟩ := List.exists_cons_of_ne_nil hvalues
  rw [hd] at hdigits hn
  rw [List.map_cons, List.map_cons, takeExponent, if_pos (.inl rfl)]
  by_cases hneg : n < 0
  · have hvalue : -(n.natAbs : Int) = n := by omega
    rw [if_pos hneg, splitSign_minus]
    simp only [hdigits, hn, if_true, hvalue]
  · have hvalue : (n.natAbs : Int) = n := by omega
    rw [if_neg hneg, splitSign_plus]
    simp only [hdigits, hn, Bool.false_eq_true, if_false, hvalue]

/-- A fraction without an exponent. -/
lemma readUnsigned_fraction (negative : Bool) (whole : List Nat) {cs : List Char}
    (hcs : ∀ c ∈ cs, c.isDigit = true) (hne : cs ≠ []) :
    readUnsigned negative whole (('.' :: cs).map CodePoint.ofChar) =
      .ok (.double (Double.ofDecimal negative (ofDigits (whole ++ digitValues cs)) (0 - cs.length)),
        []) := by
  have hfraction := takeFraction_digits hcs hne takeDigits_nil
  have hlength : (digitValues cs).length = cs.length := List.length_map _
  rw [List.append_nil] at hfraction
  rw [readUnsigned, hfraction]
  simp only [takeExponent, Option.getD_none, hlength]

/-- Digits behind a point; without digits there is no point. -/
def pointed : List Char → List Char
  | [] => []
  | cs => '.' :: cs

/-- An exponent, after a fraction or without one. -/
lemma readUnsigned_exponent (negative : Bool) (whole : List Nat) {cs es : List Char} {power : Int}
    (hcs : ∀ c ∈ cs, c.isDigit = true)
    (hexponent : takeExponent (('e' :: es).map CodePoint.ofChar) = some (power, [])) :
    readUnsigned negative whole ((pointed cs ++ 'e' :: es).map CodePoint.ofChar) =
      .ok (.double (Double.ofDecimal negative (ofDigits (whole ++ digitValues cs))
        (power - cs.length)), []) := by
  rcases eq_or_ne cs [] with rfl | hne
  · have hfraction : takeFraction (('e' :: es).map CodePoint.ofChar) = none := rfl
    have hvalues : whole ++ digitValues [] = whole := List.append_nil whole
    rw [pointed, List.nil_append, readUnsigned, hfraction]
    simp only [hexponent, hvalues, List.length_nil, Nat.cast_zero, sub_zero]
  · have hnone : asciiDigit? (CodePoint.ofChar 'e') = none := rfl
    have hfraction := takeFraction_digits hcs hne (takeDigits_of_ofChar hnone es)
    have hlength : (digitValues cs).length = cs.length := List.length_map _
    have hpointed : pointed cs = '.' :: cs := by
      obtain ⟨c, more, rfl⟩ := List.exists_cons_of_ne_nil hne
      rfl
    rw [hpointed, List.map_append, readUnsigned, hfraction]
    simp only [hexponent, Option.getD_some, hlength]

/-- A number begins with its sign. -/
lemma readNumber_signed (negative : Bool) {cs : List Char} {whole : List Nat} {rest : Text}
    (h : takeWhole (cs.map CodePoint.ofChar) = some (whole, rest)) :
    readNumber (((if negative then ['-'] else []) ++ cs).map CodePoint.ofChar) =
      readUnsigned negative whole rest := by
  have hsign : splitMinus (((if negative then ['-'] else []) ++ cs).map CodePoint.ofChar) =
      (negative, cs.map CodePoint.ofChar) := by
    cases negative with
    | true => rfl
    | false =>
      obtain ⟨-, -, c, more, d, hbegin, hd⟩ := takeWhole_eq_some h
      have hne : c ≠ CodePoint.ofChar '-' := by
        rintro rfl
        exact nomatch hd
      rw [if_neg Bool.false_ne_true, List.nil_append, hbegin, splitMinus, if_neg hne]
  rw [readNumber_eq, hsign]
  simp only [h]

/-! ### The four layouts -/

/-- The number is read as a double whose digits and exponent denote the decimal. -/
def ReadsDecimal (negative : Bool) (d : Decimal) (cs : List Char) : Prop :=
  ∃ digits exponent,
    readNumber (((if negative then ['-'] else []) ++ cs).map CodePoint.ofChar) =
      .ok (.double (Double.ofDecimal negative digits exponent), []) ∧
    (digits : ℚ) * 10 ^ exponent = d.value

/-- The digits before the point, of which the first is not zero, and what is read behind them. -/
lemma readsDecimal_of_parts {negative : Bool} {d : Decimal} {c : Char} {cs rest : List Char}
    {digits : Nat} {exponent : Int} (hcs : ∀ d ∈ c :: cs, d.isDigit = true) (hc : c.toNat - 48 ≠ 0)
    (hstop : takeDigits (rest.map CodePoint.ofChar) = ([], rest.map CodePoint.ofChar))
    (hrest : readUnsigned negative (digitValues (c :: cs)) (rest.map CodePoint.ofChar) =
      .ok (.double (Double.ofDecimal negative digits exponent), []))
    (hvalue : (digits : ℚ) * 10 ^ exponent = d.value) :
    ReadsDecimal negative d (c :: cs ++ rest) := by
  have hwhole := takeWhole_digits hcs hc hstop
  rw [← List.map_append] at hwhole
  exact ⟨digits, exponent, (readNumber_signed negative hwhole).trans hrest, hvalue⟩

section Layouts

variable (negative : Bool) {d : Decimal} (hd : d.digits ≠ 0)

include hd

/-- A decimal that is laid out with an exponent is read back. -/
lemma readsDecimal_exponent (layout : DoubleLayout) (leading : Int)
    (hleading : leading = d.exponent + (Nat.toDigits 10 d.digits).length - 1) :
    ReadsDecimal negative d ((Nat.toDigits 10 d.digits).take 1 ++
      pointed ((Nat.toDigits 10 d.digits).drop 1) ++ 'e' :: (if leading < 0 then '-' else '+') ::
        DoubleLayout.padLeft layout.exponentWidth (Nat.toDigits 10 leading.natAbs)) := by
  obtain ⟨c, more, hdigits, hc⟩ := exists_toDigits_eq_cons hd
  have hcs := isDigit_toDigits d.digits
  have hvalue := ofDigits_toDigits d.digits
  rw [hdigits] at hcs hvalue hleading ⊢
  obtain ⟨hfirst, hmore⟩ := List.forall_mem_cons.mp hcs
  have hexponent : takeExponent (('e' :: (if leading < 0 then '-' else '+') ::
      DoubleLayout.padLeft layout.exponentWidth (Nat.toDigits 10 leading.natAbs)).map
        CodePoint.ofChar) = some (leading, []) := by
    refine takeExponent_digits ?_ ?_ (ofDigits_padded _ _)
    · exact List.forall_mem_append.mpr ⟨isDigit_zeros _, isDigit_toDigits _⟩
    · exact List.append_ne_nil_of_right_ne_nil _ Nat.toDigits_ne_nil
  have hrest := readUnsigned_exponent negative (digitValues [c]) hmore hexponent
  have hpower : leading - more.length = d.exponent := by
    rw [hleading, List.length_cons]
    omega
  rw [← digitValues_append, List.singleton_append, hvalue, hpower] at hrest
  rw [List.append_assoc]
  have honly : ∀ d ∈ [c], d.isDigit = true := List.forall_mem_singleton.mpr hfirst
  refine readsDecimal_of_parts honly hc ?_ hrest rfl
  cases more with
  | nil => exact takeDigits_of_ofChar rfl _
  | cons => exact takeDigits_of_ofChar rfl _

omit hd in

/-- A decimal below one that is laid out with leading zeros is read back. -/
lemma readsDecimal_small (leading : Int) (hneg : leading < 0)
    (hleading : leading = d.exponent + (Nat.toDigits 10 d.digits).length - 1) :
    ReadsDecimal negative d
      ('0' :: '.' :: (List.replicate (leading.natAbs - 1) '0' ++ Nat.toDigits 10 d.digits)) := by
  have hrest := readUnsigned_fraction negative [0]
    (List.forall_mem_append.mpr ⟨isDigit_zeros (leading.natAbs - 1), isDigit_toDigits d.digits⟩)
    (List.append_ne_nil_of_right_ne_nil _ Nat.toDigits_ne_nil)
  have hvalue : ofDigits ([0] ++
      digitValues (List.replicate (leading.natAbs - 1) '0' ++ Nat.toDigits 10 d.digits)) =
        d.digits :=
    ofDigits_padded _ _
  have hexponent : (0 : Int) - ((List.replicate (leading.natAbs - 1) '0' ++
      Nat.toDigits 10 d.digits).length : Nat) = d.exponent := by
    rw [List.length_append, List.length_replicate]
    omega
  rw [hvalue, hexponent] at hrest
  exact ⟨_, _, (readNumber_signed negative rfl).trans hrest, rfl⟩

/-- A decimal that is whole is laid out with the fraction zero and read back. -/
lemma readsDecimal_whole (hexponent : 0 ≤ d.exponent) :
    ReadsDecimal negative d
      (Nat.toDigits 10 d.digits ++ List.replicate d.exponent.toNat '0' ++ ['.', '0']) := by
  obtain ⟨c, more, hdigits, hc⟩ := exists_toDigits_eq_cons hd
  have hcs : ∀ c ∈ Nat.toDigits 10 d.digits ++ List.replicate d.exponent.toNat '0',
      c.isDigit = true :=
    List.forall_mem_append.mpr ⟨isDigit_toDigits _, isDigit_zeros _⟩
  have hvalue : ofDigits (digitValues (Nat.toDigits 10 d.digits ++
      List.replicate d.exponent.toNat '0') ++ digitValues ['0']) =
        d.digits * 10 ^ (d.exponent.toNat + 1) := by
    rw [← digitValues_append, List.append_assoc, ← List.replicate_succ', ofDigits_scaled]
  have hrest := readUnsigned_fraction negative (digitValues (Nat.toDigits 10 d.digits ++
    List.replicate d.exponent.toNat '0')) isDigit_zero (List.cons_ne_nil _ _)
  rw [hvalue] at hrest
  rw [hdigits, List.cons_append] at hcs hrest ⊢
  refine readsDecimal_of_parts hcs hc rfl hrest ?_
  rw [Decimal.value, List.length_singleton, Nat.cast_mul, mul_assoc, Nat.cast_pow, Nat.cast_ofNat,
    ← zpow_natCast, ← zpow_add₀ (by norm_num)]
  congr 2
  omega

/-- A decimal with a point among its digits is read back. -/
lemma readsDecimal_mixed (whole : Nat) (hpos : 0 < whole)
    (hwhole : (whole : Int) = d.exponent + (Nat.toDigits 10 d.digits).length)
    (hexponent : d.exponent < 0) :
    ReadsDecimal negative d
      ((Nat.toDigits 10 d.digits).take whole ++ '.' :: (Nat.toDigits 10 d.digits).drop whole) := by
  have hcs := isDigit_toDigits d.digits
  have hbehind : ∀ c ∈ (Nat.toDigits 10 d.digits).drop whole, c.isDigit = true := fun c hc =>
    hcs c (List.mem_of_mem_drop hc)
  have hne : (Nat.toDigits 10 d.digits).drop whole ≠ [] := by
    rw [Ne, List.drop_eq_nil_iff]
    omega
  have hrest := readUnsigned_fraction negative
    (digitValues ((Nat.toDigits 10 d.digits).take whole)) hbehind hne
  have hlength : (0 : Int) - ((Nat.toDigits 10 d.digits).drop whole).length = d.exponent := by
    rw [List.length_drop]
    omega
  rw [← digitValues_append, List.take_append_drop, ofDigits_toDigits, hlength] at hrest
  obtain ⟨c, more, hdigits, hc⟩ := exists_toDigits_eq_cons hd
  obtain ⟨k, rfl⟩ : ∃ k, whole = k + 1 := ⟨whole - 1, by omega⟩
  rw [hdigits] at hcs hrest ⊢
  rw [List.take_succ_cons] at hrest ⊢
  refine readsDecimal_of_parts (fun d hd => hcs d ?_) hc rfl hrest rfl
  exact List.mem_of_mem_take (by rwa [List.take_succ_cons])

/-- However a decimal is laid out, it is read as digits with an exponent that denote it. -/
lemma readsDecimal_placeDecimal (layout : DoubleLayout) :
    ReadsDecimal negative d (layout.placeDecimal d) := by
  unfold DoubleLayout.placeDecimal
  dsimp only
  split
  · exact readsDecimal_exponent negative hd layout _ rfl
  · split
    next hneg => exact readsDecimal_small negative _ hneg rfl
    next hneg =>
      split
      next hexponent => exact readsDecimal_whole negative hd hexponent
      next hexponent =>
        refine readsDecimal_mixed negative hd _ (Nat.succ_pos _) ?_ (not_le.mp hexponent)
        push_cast
        omega

end Layouts

/-! ### Doubles -/

/-- A zero keeps its sign. -/
lemma ofDecimal_zero {x : Float} {negative : Bool} {e : Int}
    (h : Double.view x = .finite negative 0 e) (exponent : Int) :
    Double.ofDecimal negative 0 exponent = x := by
  obtain rfl : e = -1074 := (Double.hasForm_of_view h).full.resolve_left (by decide)
  refine Double.eq_of_view_finite ?_ h
  have hzero : Double.ofDecimal negative 0 exponent = Double.ofQuotient negative 0 1 := if_pos rfl
  rw [hzero]
  cases negative <;> decide +kernel

/-- The decimal of a finite double other than zero, however it is laid out, is read as the
double. -/
lemma ofDecimal_of_readsDecimal {x : Float} {negative : Bool} {m : Nat} {e : Int}
    (h : Double.view x = .finite negative m e) (hm : m ≠ 0) (layout : DoubleLayout) :
    let quotient := Double.scaleDown m 1 (-e)
    let d := Decimal.shortest (x.toBits.toNat % 2 ^ 63) quotient.1 quotient.2
    readNumber (((if negative then ['-'] else []) ++ layout.placeDecimal (d.strip 20)).map
      CodePoint.ofChar) = .ok (.double x, []) := by
  intro quotient d
  obtain ⟨hden, hratio⟩ := Double.scaleDown_spec m one_pos (-e)
  rw [Nat.cast_one, div_one, zpow_neg, div_inv_eq_mul] at hratio
  have hpos : (0 : ℚ) < m * 2 ^ e := by
    have hcast : (0 : ℚ) < m := by exact_mod_cast Nat.pos_of_ne_zero hm
    positivity
  have hnum : 0 < quotient.1 := by
    refine Nat.pos_of_ne_zero fun hzero => hpos.ne' ?_
    rw [← hratio, hzero, Nat.cast_zero, zero_div]
  have hbound := (Decimal.shortest_bounds hnum hden (Double.hasForm_of_view h) hratio
    (Double.toNat_toBits_mod_of_view h) (Nat.pos_of_ne_zero hm)).1
  have hdigits : (d.strip 20).digits ≠ 0 := by
    intro hzero
    have hvalue := Decimal.value_strip 20 d
    rw [Decimal.value, hzero, Nat.cast_zero, zero_mul] at hvalue
    exact (lt_of_lt_of_le (by positivity) hbound).ne hvalue
  obtain ⟨digits, exponent, hread, hvalue⟩ := readsDecimal_placeDecimal negative hdigits layout
  rw [Decimal.value_strip] at hvalue
  rw [hread, Double.ofDecimal_shortest h hm hnum hden hratio hvalue]

/-- A finite double is read back from its numeral. -/
theorem readNumber_double {x : Float} (h : Double.isFinite x = true) :
    readNumber (writeNumber (.double x)) = .ok (.double x, []) := by
  unfold Double.isFinite at h
  rw [writeNumber, DoubleLayout.place]
  cases hview : Double.view x with
  | nan =>
    rw [hview] at h
    exact absurd h Bool.false_ne_true
  | infinite negative =>
    rw [hview] at h
    exact absurd h Bool.false_ne_true
  | finite negative m e =>
    dsimp only
    split
    next hm =>
      subst hm
      have hwhole : takeWhole (['0', '.', '0'].map CodePoint.ofChar) =
          some ([0], ['.', '0'].map CodePoint.ofChar) := rfl
      rw [Text.ofString, String.toList_ofList, readNumber_signed negative hwhole]
      refine (readUnsigned_fraction negative [0] isDigit_zero (List.cons_ne_nil _ _)).trans ?_
      rw [← ofDecimal_zero hview]
      rfl
    next hm =>
      rw [Text.ofString, String.toList_ofList]
      exact ofDecimal_of_readsDecimal hview hm jsonLayout

end Value

/-- The numeral of a double denotes it. -/
theorem Number.readsBack_double (x : Float) : Number.ReadsBack (.double x) :=
  Value.readNumber_double

end PenRover
