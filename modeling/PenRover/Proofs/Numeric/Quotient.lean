import PenRover.Proofs.Numeric.Rounding

/-!
# Rounding a quotient

Integers and the values of the circular functions become doubles by one rounding of an exact
quotient.  The rounded mantissa and the last place make the bit pattern by one sum, also when the
rounding carries (`viewBits_of_mantissa`), so the double is nearest to the quotient in the same
sense as the results of the operations are (`isNearest_ofQuotient`).
-/

namespace PenRover

namespace Double

/-! ### The size of a quotient -/

/-- Scaling a quotient down divides it by a power of two. -/
lemma scaleDown_spec (num : Nat) {den : Nat} (hden : 0 < den) (e : Int) :
    0 < (scaleDown num den e).2 ∧
      ((scaleDown num den e).1 : ℚ) / (scaleDown num den e).2 = num / den / 2 ^ e := by
  cases e with
  | ofNat k =>
    refine ⟨by simp only [scaleDown]; positivity, ?_⟩
    simp only [scaleDown, Int.ofNat_eq_natCast, zpow_natCast]
    push_cast
    rw [div_div]
  | negSucc k =>
    refine ⟨hden, ?_⟩
    simp only [scaleDown, zpow_negSucc, div_inv_eq_mul]
    push_cast
    ring

/-- A quotient that was scaled down is below one when it was below the power of two. -/
lemma scaleDown_lt_iff {num den : Nat} (hden : 0 < den) (e : Int) :
    (scaleDown num den e).1 < (scaleDown num den e).2 ↔ (num : ℚ) / den < 2 ^ e := by
  obtain ⟨hpos, hvalue⟩ := scaleDown_spec num hden e
  have hcast : (0 : ℚ) < (scaleDown num den e).2 := by exact_mod_cast hpos
  rw [← Nat.cast_lt (α := ℚ), ← div_lt_one hcast, hvalue, div_lt_one (by positivity)]

/-- Between which powers a quotient is, when it is known of both its parts. -/
lemma zpow_le_div_lt_zpow {b x y : ℚ} (hb : 1 < b) {i j : Int} (hx : b ^ i ≤ x ∧ x < b ^ (i + 1))
    (hy : b ^ j ≤ y ∧ y < b ^ (j + 1)) : b ^ (i - j - 1) ≤ x / y ∧ x / y < b ^ (i - j + 1) := by
  have hbase : b ≠ 0 := by positivity
  have hpos : 0 < y := lt_of_lt_of_le (by positivity) hy.1
  constructor
  · rw [le_div_iff₀ hpos]
    calc b ^ (i - j - 1) * y ≤ b ^ (i - j - 1) * b ^ (j + 1) := by
          gcongr
          exact hy.2.le
      _ = b ^ i := by
        rw [← zpow_add₀ hbase]
        congr 1
        omega
      _ ≤ x := hx.1
  · rw [div_lt_iff₀ hpos]
    calc x < b ^ (i + 1) := hx.2
      _ = b ^ (i - j + 1) * b ^ j := by
        rw [← zpow_add₀ hbase]
        congr 1
        omega
      _ ≤ b ^ (i - j + 1) * y := by
        gcongr
        exact hy.1

/-- A guess that is at most one too high, and is corrected where it is. -/
lemma zpow_le_lt_zpow_of_guess {b x : ℚ} {guess : Int} {p : Prop} [Decidable p]
    (hp : p ↔ x < b ^ guess) (hbelow : b ^ (guess - 1) ≤ x) (habove : x < b ^ (guess + 1)) :
    b ^ (if p then guess - 1 else guess) ≤ x ∧
      x < b ^ ((if p then guess - 1 else guess) + 1) := by
  by_cases hlow : p
  · rw [if_pos hlow, sub_add_cancel]
    exact ⟨hbelow, hp.mp hlow⟩
  · rw [if_neg hlow]
    exact ⟨not_lt.mp (mt hp.mpr hlow), habove⟩

/-- A number lies between the powers of two of its logarithm. -/
lemma log2_spec {n : Nat} (hn : 0 < n) :
    (2 : ℚ) ^ (n.log2 : Int) ≤ n ∧ (n : ℚ) < 2 ^ ((n.log2 : Int) + 1) := by
  have hhigh : n < 2 ^ (n.log2 + 1) := Nat.lt_log2_self
  constructor
  · rw [zpow_natCast]
    exact_mod_cast Nat.log2_self_le hn.ne'
  · exact_mod_cast hhigh

/-- The binary exponent is that of the leading digit of the quotient. -/
lemma binaryExponent_spec {num den : Nat} (hnum : 0 < num) (hden : 0 < den) :
    (2 : ℚ) ^ binaryExponent num den ≤ num / den ∧
      (num : ℚ) / den < 2 ^ (binaryExponent num den + 1) := by
  obtain ⟨hbelow, habove⟩ := zpow_le_div_lt_zpow one_lt_two (log2_spec hnum) (log2_spec hden)
  unfold binaryExponent
  generalize (num.log2 : Int) - den.log2 = guess at *
  exact zpow_le_lt_zpow_of_guess (scaleDown_lt_iff hden guess) hbelow habove

/-- A rounded quotient is at most one half away. -/
lemma abs_roundDiv_sub_le (num : Nat) {den : Nat} (hden : 0 < den) :
    |(roundDiv num den : ℚ) - num / den| ≤ 1 / 2 := by
  have hcast : (0 : ℚ) < den := by exact_mod_cast hden
  have hrest : ((num % den : Nat) : ℚ) < den := by exact_mod_cast Nat.mod_lt num hden
  unfold roundDiv
  rw [cast_div_eq_add num hden]
  generalize num % den = rest at *
  generalize num / den = whole at *
  have habove : 0 ≤ (rest : ℚ) / den := by positivity
  have hbelow : (rest : ℚ) / den < 1 := (div_lt_one hcast).mpr hrest
  dsimp only
  split_ifs with hlt heq
  · have hhalf := (div_lt_half_iff hden).mpr hlt
    rw [abs_le]
    constructor <;> linarith
  · rw [(div_eq_half_iff hden).mpr heq, abs_le]
    rcases Nat.mod_two_eq_zero_or_one whole with heven | hodd
    · rw [heven]
      push_cast
      constructor <;> linarith
    · rw [hodd]
      push_cast
      constructor <;> linarith
  · have hhalf := (half_lt_div_iff hden).mpr (by omega : den < 2 * rest)
    push_cast
    rw [abs_le]
    constructor <;> linarith

/-! ### The pattern of a quotient -/

/-- The exponent of the last place. -/
def lastPlace (num den : Nat) : Int := max (binaryExponent num den - 52) (-1074)

/-- The mantissa of the nearest double, before a carry. -/
def nearestMantissa (num den : Nat) : Nat :=
  roundDiv (scaleDown num den (lastPlace num den)).1 (scaleDown num den (lastPlace num den)).2

/-- The pattern of the nearest double, with the carry of its mantissa, and up to infinity. -/
lemma nearestBits_eq (num den : Nat) : nearestBits num den =
    min ((lastPlace num den + 1074).toNat * 2 ^ 52 + nearestMantissa num den) (2047 * 2 ^ 52) := rfl

section Positive

variable {num den : Nat} (hnum : 0 < num) (hden : 0 < den)
include hnum hden

/-- The quotient in units of the last place, and the mantissa that it is rounded to. -/
lemma nearestMantissa_spec :
    |(nearestMantissa num den : ℚ) - num / den / 2 ^ lastPlace num den| ≤ 1 / 2 ∧
      (num : ℚ) / den / 2 ^ lastPlace num den < 2 ^ 53 ∧
      (2 ^ 52 ≤ (num : ℚ) / den / 2 ^ lastPlace num den ∨ lastPlace num den = -1074) := by
  obtain ⟨hlow, hhigh⟩ := binaryExponent_spec hnum hden
  obtain ⟨hpos, hvalue⟩ := scaleDown_spec num hden (lastPlace num den)
  have hround := abs_roundDiv_sub_le (scaleDown num den (lastPlace num den)).1 hpos
  rw [hvalue] at hround
  refine ⟨hround, ?_, ?_⟩
  · rw [div_lt_iff₀ (by positivity), ← zpow_natCast, ← zpow_add₀ two_ne_zero]
    refine hhigh.trans_le (zpow_le_zpow_right₀ (by norm_num) ?_)
    unfold lastPlace
    omega
  · by_cases hleast : lastPlace num den = -1074
    · exact .inr hleast
    · left
      rw [le_div_iff₀ (by positivity), ← zpow_natCast, ← zpow_add₀ two_ne_zero]
      refine le_trans (zpow_le_zpow_right₀ (by norm_num) ?_) hlow
      unfold lastPlace at hleast ⊢
      omega

/-- The mantissa has all the digits of a double and at most one too many, or the last place is the
least one. -/
lemma nearestMantissa_bounds :
    nearestMantissa num den ≤ 2 ^ 53 ∧
      (2 ^ 52 ≤ nearestMantissa num den ∨ lastPlace num den = -1074) := by
  obtain ⟨hround, hhigh, hlow⟩ := nearestMantissa_spec hnum hden
  obtain ⟨hbelow, habove⟩ := abs_le.mp hround
  constructor
  · have hlt : (nearestMantissa num den : ℚ) < (2 ^ 53 + 1 : Nat) := by
      push_cast
      linarith
    exact Nat.le_of_lt_succ (by exact_mod_cast hlt)
  · refine hlow.imp_left fun hfull => ?_
    have hlt : ((2 ^ 52 : Nat) : ℚ) < (nearestMantissa num den + 1 : Nat) := by
      push_cast
      linarith
    exact Nat.le_of_lt_succ (by exact_mod_cast hlt)

/-- The mantissa at the last place is nearest to the quotient. -/
lemma nearest_nearestMantissa :
    Nearest (num / den) (nearestMantissa num den * 2 ^ lastPlace num den) := by
  obtain ⟨hround, -, hlow⟩ := nearestMantissa_spec hnum hden
  have hnearest := nearest_of_grid hlow (by exact_mod_cast hround)
  rwa [div_mul_cancel₀ _ (by positivity), Int.cast_natCast] at hnearest

end Positive

/-- The content of a pattern by its fields. -/
lemma viewBits_of_fields (negative : Bool) {field fraction : Nat} (hfield : field < 2047)
    (hfraction : fraction < 2 ^ 52) :
    viewBits (field * 2 ^ 52 + fraction + if negative then 2 ^ 63 else 0) =
      if field = 0 then .finite negative fraction (-1074)
      else .finite negative (2 ^ 52 + fraction) ((field : Int) - 1075) := by
  have hlow : field * 2 ^ 52 + fraction < 2 ^ 63 := by omega
  have hsign : ((field * 2 ^ 52 + fraction + if negative then 2 ^ 63 else 0) / 2 ^ 63 % 2 == 1) =
      negative := by
    cases negative with
    | false =>
      rw [if_neg (by decide), add_zero, Nat.div_eq_of_lt hlow]
      rfl
    | true =>
      rw [if_pos rfl, Nat.add_div_right _ (Nat.two_pow_pos 63), Nat.div_eq_of_lt hlow]
      rfl
  have hf : (field * 2 ^ 52 + fraction + if negative then 2 ^ 63 else 0) / 2 ^ 52 % 2 ^ 11 =
      field := by
    split <;> omega
  have hm : (field * 2 ^ 52 + fraction + if negative then 2 ^ 63 else 0) % 2 ^ 52 = fraction := by
    split <;> omega
  unfold viewBits
  rw [hsign, hf, hm]
  simp only [if_neg (show field ≠ 2047 by omega)]

/-- A mantissa with its last place is shown by the pattern that is their sum. -/
lemma viewBits_of_mantissa (negative : Bool) {m : Nat} {last : Int} (hlast : -1074 ≤ last)
    (hm : m ≤ 2 ^ 53) (hfull : 2 ^ 52 ≤ m ∨ last = -1074)
    (hfinite : (last + 1074).toNat * 2 ^ 52 + m < 2047 * 2 ^ 52) :
    ∃ m' e, viewBits ((last + 1074).toNat * 2 ^ 52 + m + if negative then 2 ^ 63 else 0) =
        .finite negative m' e ∧ (m' : ℚ) * 2 ^ e = m * 2 ^ last := by
  obtain ⟨step, hstep⟩ : ∃ step : Nat, last = step - 1074 := ⟨(last + 1074).toNat, by omega⟩
  have hsame {bits bits' : Nat} (h : bits = bits') :
      viewBits (bits + if negative then 2 ^ 63 else 0) =
        viewBits (bits' + if negative then 2 ^ 63 else 0) := by rw [h]
  have hcount : (last + 1074).toNat = step := by omega
  rw [hcount] at hfinite ⊢
  rcases lt_trichotomy m (2 ^ 52) with hsmall | rfl | hlarge
  · -- a subnormal double
    have hzero : step = 0 := by omega
    have hview := viewBits_of_fields negative (by omega : step < 2047) hsmall
    rw [if_pos hzero] at hview
    exact ⟨m, -1074, hview, by rw [hstep, hzero]; rfl⟩
  · have hview := viewBits_of_fields negative (by omega : step + 1 < 2047) (Nat.two_pow_pos 52)
    rw [if_neg (Nat.succ_ne_zero step)] at hview
    have hpattern : step * 2 ^ 52 + 2 ^ 52 = (step + 1) * 2 ^ 52 + 0 := by omega
    refine ⟨2 ^ 52 + 0, ((step + 1 : Nat) : Int) - 1075, (hsame hpattern).trans hview, ?_⟩
    · rw [hstep]
      congr 2
      omega
  · rcases hm.lt_or_eq with hnormal | rfl
    · have hview := viewBits_of_fields negative (by omega : step + 1 < 2047)
        (by omega : m - 2 ^ 52 < 2 ^ 52)
      rw [if_neg (Nat.succ_ne_zero step)] at hview
      have hpattern : step * 2 ^ 52 + m = (step + 1) * 2 ^ 52 + (m - 2 ^ 52) := by omega
      refine ⟨2 ^ 52 + (m - 2 ^ 52), ((step + 1 : Nat) : Int) - 1075,
        (hsame hpattern).trans hview, ?_⟩
      · rw [hstep, Nat.add_sub_cancel' hlarge.le]
        congr 2
        omega
    · -- a carry
      have hview := viewBits_of_fields negative (by omega : step + 2 < 2047) (Nat.two_pow_pos 52)
      rw [if_neg (Nat.succ_ne_zero (step + 1))] at hview
      have hpattern : step * 2 ^ 52 + 2 ^ 53 = (step + 2) * 2 ^ 52 + 0 := by omega
      refine ⟨2 ^ 52 + 0, ((step + 2 : Nat) : Int) - 1075, (hsame hpattern).trans hview, ?_⟩
      · have hexponent : ((step + 2 : Nat) : Int) - 1075 = last + 1 := by omega
        rw [hexponent, zpow_add_one₀ two_ne_zero]
        push_cast
        ring

/-- The double of a quotient has the value of its pattern. -/
lemma value?_ofQuotient (negative : Bool) {num bits m : Nat} (den : Nat) {e : Int}
    (hbits : bits = if num = 0 ∨ den = 0 then 0 else nearestBits num den) (hlow : bits < 2 ^ 63)
    (hview : viewBits (bits + if negative then 2 ^ 63 else 0) = .finite negative m e) :
    value? (ofQuotient negative num den) = some ((signed negative m : ℚ) * 2 ^ e) := by
  refine value?_of_view ?_
  have hword : bits + (if negative then 2 ^ 63 else 0) < 2 ^ 64 := by
    cases negative with
    | false => rw [if_neg (by decide)]; omega
    | true => rw [if_pos rfl]; omega
  unfold ofQuotient
  rw [← hbits, view_ofBits, UInt64.toNat_ofNat_of_lt' hword]
  exact hview

/-- The double of a quotient is nearest to it. -/
theorem isNearest_ofQuotient (negative : Bool) (num : Nat) {den : Nat} (hden : 0 < den) :
    IsNearest (signed negative num / den) (ofQuotient negative num den) := by
  intro hbound
  rcases Nat.eq_zero_or_pos num with rfl | hnum
  · have hview : viewBits (0 + if negative then 2 ^ 63 else 0) = .finite negative 0 (-1074) := by
      cases negative <;> decide
    have hvalue := value?_ofQuotient negative den (if_pos (.inl rfl)).symm (by decide) hview
    have hzero : signed negative 0 = 0 := by cases negative <;> rfl
    rw [hzero, Int.cast_zero, zero_mul] at hvalue
    rw [hzero, Int.cast_zero, zero_div]
    exact ⟨0, hvalue, Nearest.self 0⟩
  · have hmagnitude : (num : ℚ) / den ≤ 2 ^ 1023 := by
      have habs : |((signed negative num : Int) : ℚ) / den| = num / den := by
        rw [abs_div, Nat.abs_cast]
        cases negative <;> simp
      exact habs.ge.trans hbound
    obtain ⟨hm, hfull⟩ := nearestMantissa_bounds hnum hden
    have hnearest := nearest_nearestMantissa hnum hden
    have hleast : -1074 ≤ lastPlace num den := le_max_right _ _
    have htop : ∀ d : Nat, 2 ^ d ≤ nearestMantissa num den → lastPlace num den + d ≤ 1023 := by
      intro d hd
      have hcap := add_le_of_mul_two_zpow_le (by exact_mod_cast hd)
        (hnearest.le (representable_two_pow 1023) hmagnitude)
      omega
    -- a carry cannot lead to infinity, as the number is within the doubles
    have hfinite : (lastPlace num den + 1074).toNat * 2 ^ 52 + nearestMantissa num den <
        2047 * 2 ^ 52 := by
      rcases hm.lt_or_eq with hlt | heq
      · rcases hfull with hnormal | hsmall
        · have hcap := htop 52 hnormal
          omega
        · omega
      · have hcap := htop 53 heq.ge
        omega
    have hbits : nearestBits num den =
        (lastPlace num den + 1074).toNat * 2 ^ 52 + nearestMantissa num den :=
      (nearestBits_eq num den).trans (min_eq_left hfinite.le)
    obtain ⟨m, e, hview, hvalue⟩ := viewBits_of_mantissa negative hleast hm hfull hfinite
    rw [← hbits] at hview hfinite
    refine ⟨_, value?_ofQuotient negative den (if_neg (by omega)).symm (by omega) hview, ?_⟩
    cases negative with
    | false =>
      rw [signed_false, signed_false, Int.cast_natCast, Int.cast_natCast, hvalue]
      exact hnearest
    | true =>
      rw [signed_true, signed_true, Int.cast_neg, Int.cast_neg, Int.cast_natCast,
        Int.cast_natCast, neg_mul, neg_div, hvalue]
      exact hnearest.neg

/-- The double of a quotient rounds it. -/
theorem rounds_ofQuotient (negative : Bool) (num : Nat) {den : Nat} (hden : 0 < den) :
    Rounds (signed negative num / den) (ofQuotient negative num den) :=
  (isNearest_ofQuotient negative num hden).rounds

/-- An integer in the range of doubles has a nearest double. -/
lemma ofInt?_nearest {m : Int} (h : |(m : ℚ)| ≤ 2 ^ 1023) :
    ∃ x r, ofInt? m = some x ∧ value? x = some r ∧ Nearest m r := by
  have hsigned : signed (decide (m < 0)) m.natAbs = m := by
    unfold signed
    split
    next hneg =>
      have := of_decide_eq_true hneg
      omega
    next hpos =>
      have := of_decide_eq_false (Bool.eq_false_iff.mpr hpos)
      omega
  have hnearest := isNearest_ofQuotient (decide (m < 0)) m.natAbs Nat.one_pos
  rw [hsigned, Nat.cast_one, div_one] at hnearest
  obtain ⟨r, hvalue, hr⟩ := hnearest h
  refine ⟨_, r, ?_, hvalue, hr⟩
  simp only [ofInt?]
  rw [if_pos (isFinite_iff_value?.mpr ⟨r, hvalue⟩)]

/-- An integer within the doubles has a double, which keeps its side of zero and its bound. -/
lemma ofInt?_of_abs_le {m : Int} {n : Nat} (hn : n ≤ 1023) (h : |(m : ℚ)| ≤ 2 ^ n) :
    ∃ x r, ofInt? m = some x ∧ value? x = some r ∧ Keeps m (2 ^ n) r := by
  obtain ⟨x, r, hx, hr, hnearest⟩ := ofInt?_nearest (two_pow_le_of_le hn h)
  exact ⟨x, r, hx, hr, hnearest.keeps h⟩

/-- An integer with at most as many digits as a double is a double. -/
lemma ofInt?_exact {m : Int} (h : |m| ≤ 2 ^ 53) :
    ∃ x, ofInt? m = some x ∧ value? x = some (m : ℚ) := by
  have hcast : |(m : ℚ)| ≤ 2 ^ 53 := by exact_mod_cast h
  obtain ⟨x, r, hx, hr, hnearest⟩ := ofInt?_nearest (two_pow_le_of_le (by norm_num) hcast)
  rw [hnearest.eq ⟨m, 0, h, by norm_num, by simp⟩] at hr
  exact ⟨x, hx, hr⟩

end Double

/-- A number up to a power of two in the range of doubles has a nearest double. -/
lemma Number.toDouble_of_abs_le {a : Number} {q : ℚ} {n : Nat} (ha : a.value? = some q)
    (hn : n ≤ 1023) (h : |q| ≤ 2 ^ n) :
    ∃ x r, a.toDouble = .ok x ∧ Double.value? x = some r ∧ Double.Keeps q (2 ^ n) r := by
  cases a with
  | int m =>
    obtain rfl : (m : ℚ) = q := Option.some.inj ha
    obtain ⟨x, r, hx, hr, hkeeps⟩ := Double.ofInt?_of_abs_le hn h
    exact ⟨x, r, by simp only [toDouble, hx], hr, hkeeps⟩
  | double x => exact ⟨x, q, rfl, ha, Double.Keeps.self h⟩

end PenRover
