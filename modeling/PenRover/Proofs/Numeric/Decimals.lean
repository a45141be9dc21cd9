import PenRover.Numeric.Shortest
import PenRover.Proofs.Numeric.Quotient

/-!
# The shortest decimal denotes its double

Which double is nearest to a quotient depends on the value of the quotient only
(`nearestBits_congr`).  A number that differs from a double by less than a relative error of
`1 / (2 · 10 ^ 16)` is read as that double (`nearestBits_of_close`), and the nearest decimal of
seventeen digits is as close as this.  So the search for the shortest decimal always finds one
(`Decimal.readsAs_shortest`), and the double that the decimal denotes is the one that was written
(`ofDecimal_shortest`).
-/

namespace PenRover

namespace Double

/-! ### The pattern depends on the value only -/

section Congr

variable {num den num' den' : Nat}

/-- Equal quotients have the same binary exponent. -/
lemma binaryExponent_congr (hnum : 0 < num) (hden : 0 < den) (hnum' : 0 < num') (hden' : 0 < den')
    (h : (num : ℚ) / den = num' / den') : binaryExponent num den = binaryExponent num' den' := by
  obtain ⟨hlow, hhigh⟩ := binaryExponent_spec hnum hden
  obtain ⟨hlow', hhigh'⟩ := binaryExponent_spec hnum' hden'
  rw [h] at hlow hhigh
  have hle := (zpow_lt_zpow_iff_right₀ (by norm_num : (1 : ℚ) < 2)).mp (hlow.trans_lt hhigh')
  have hge := (zpow_lt_zpow_iff_right₀ (by norm_num : (1 : ℚ) < 2)).mp (hlow'.trans_lt hhigh)
  omega

/-- A quotient is rounded the same when it is expanded. -/
lemma roundDiv_mul_right (num den : Nat) {k : Nat} (hk : 0 < k) :
    roundDiv (num * k) (den * k) = roundDiv num den := by
  have hlt : 2 * (num % den * k) < den * k ↔ 2 * (num % den) < den := by
    rw [← mul_assoc, Nat.mul_lt_mul_right hk]
  have heq : 2 * (num % den * k) = den * k ↔ 2 * (num % den) = den := by
    rw [← mul_assoc, Nat.mul_left_inj hk.ne']
  simp only [roundDiv, Nat.mul_div_mul_right _ _ hk, Nat.mul_mod_mul_right, hlt, heq]

/-- Equal quotients are rounded the same. -/
lemma roundDiv_congr (hden : 0 < den) (hden' : 0 < den') (h : (num : ℚ) / den = num' / den') :
    roundDiv num den = roundDiv num' den' := by
  have hcross : num * den' = num' * den := by
    rw [div_eq_div_iff (by positivity) (by positivity)] at h
    exact_mod_cast h
  rw [← roundDiv_mul_right num den hden', hcross, mul_comm den, roundDiv_mul_right num' den' hden]

/-- Equal quotients have the same nearest double. -/
lemma nearestBits_congr (hnum : 0 < num) (hden : 0 < den) (hnum' : 0 < num') (hden' : 0 < den')
    (h : (num : ℚ) / den = num' / den') : nearestBits num den = nearestBits num' den' := by
  have hlast : lastPlace num den = lastPlace num' den' := by
    rw [lastPlace, binaryExponent_congr hnum hden hnum' hden' h, lastPlace]
  have hmantissa : nearestMantissa num den = nearestMantissa num' den' := by
    obtain ⟨hpos, hvalue⟩ := scaleDown_spec num hden (lastPlace num' den')
    obtain ⟨hpos', hvalue'⟩ := scaleDown_spec num' hden' (lastPlace num' den')
    rw [nearestMantissa, nearestMantissa, hlast]
    exact roundDiv_congr hpos hpos' (by rw [hvalue, hvalue', h])
  rw [nearestBits_eq, nearestBits_eq, hlast, hmantissa]

end Congr

/-! ### Finite doubles and their patterns -/

/-- The mantissa and the exponent of a finite double: the mantissa has all the digits that there is
room for. -/
structure HasForm (m : Nat) (e : Int) : Prop where
  digits : m < 2 ^ 53
  least : -1074 ≤ e
  greatest : e ≤ 971
  full : 2 ^ 52 ≤ m ∨ e = -1074

section View

variable {x : Float} {negative : Bool} {m : Nat} {e : Int}

/-- The mantissa and the exponent of a double have the form of one. -/
lemma hasForm_of_view (h : view x = .finite negative m e) : HasForm m e := by
  have hcanonical := canonical_unpack_toModel x
  rw [view_eq_content] at h
  cases hunpacked : x.toModel.unpack with
  | notANumber => rw [hunpacked] at h; exact nomatch h
  | infinity sign => rw [hunpacked] at h; exact nomatch h
  | zero sign =>
    rw [hunpacked] at h
    obtain ⟨-, rfl, rfl⟩ := DoubleView.finite.inj h
    exact ⟨by decide, by decide, by decide, .inr rfl⟩
  | finite sign mantissa exponent hpos =>
    rw [hunpacked] at h hcanonical
    obtain ⟨-, rfl, rfl⟩ := DoubleView.finite.inj h
    obtain ⟨hdigits, hleast, hgreatest, hfull⟩ := hcanonical
    exact ⟨hdigits, hleast, hgreatest, hfull⟩

/-- The pattern of a finite double is the sum of its parts. -/
lemma toNat_toBits_of_view (h : view x = .finite negative m e) :
    x.toBits.toNat = (e + 1074).toNat * 2 ^ 52 + m + if negative then 2 ^ 63 else 0 := by
  have hlt := x.toBits.toNat_lt
  unfold view viewBits at h
  dsimp only at h
  generalize x.toBits.toNat = bits at *
  have hsign : (if (bits / 2 ^ 63 % 2 == 1) = true then 2 ^ 63 else 0) =
      bits / 2 ^ 63 * 2 ^ 63 := by
    cases hbit : bits / 2 ^ 63 % 2 == 1 with
    | true =>
      rw [beq_iff_eq] at hbit
      rw [if_pos rfl]
      omega
    | false =>
      rw [beq_eq_false_iff_ne] at hbit
      rw [if_neg Bool.false_ne_true]
      omega
  split at h
  · split at h <;> exact nomatch h
  · split at h
    all_goals
      obtain ⟨rfl, rfl, rfl⟩ := DoubleView.finite.inj h
      rw [hsign]
      omega

/-- A finite double is given by its sign, its mantissa and its exponent. -/
lemma eq_of_view_finite {y : Float} (hx : view x = .finite negative m e)
    (hy : view y = .finite negative m e) : x = y := by
  refine eq_of_toBits_eq (UInt64.toNat_inj.mp ?_)
  rw [toNat_toBits_of_view hx, toNat_toBits_of_view hy]

/-- The pattern without the sign bit. -/
lemma toNat_toBits_mod_of_view (h : view x = .finite negative m e) :
    x.toBits.toNat % 2 ^ 63 = (e + 1074).toNat * 2 ^ 52 + m := by
  obtain ⟨hm, -, he, -⟩ := hasForm_of_view h
  rw [toNat_toBits_of_view h]
  split <;> omega

/-- A finite double is the quotient whose nearest pattern is its own. -/
lemma ofQuotient_of_view (h : view x = .finite negative m e) {num den : Nat} (hnum : 0 < num)
    (hden : 0 < den) (hbits : nearestBits num den = (e + 1074).toNat * 2 ^ 52 + m) :
    ofQuotient negative num den = x := by
  refine eq_of_view_finite ?_ h
  have hpattern := toNat_toBits_of_view h
  have hword := x.toBits.toNat_lt
  have hnonzero : ¬ (num = 0 ∨ den = 0) := by omega
  rw [← hbits] at hpattern
  rw [hpattern] at hword
  rw [ofQuotient, if_neg hnonzero, view_ofBits, UInt64.toNat_ofNat_of_lt' hword, ← hpattern]
  exact h

end View

/-! ### Numbers close to a double -/

section Close

variable {num den m : Nat} {e : Int}

/-- The number in units of its last place, compared with the double in the same units. -/
lemma abs_sub_place_le (last : Int) {q : ℚ}
    (hclose : |q - m * 2 ^ e| * (2 * 10 ^ 16) ≤ m * 2 ^ e) :
    |q / 2 ^ last - m * 2 ^ (e - last)| * (2 * 10 ^ 16) ≤ m * 2 ^ (e - last) := by
  have hplace : (0 : ℚ) < 2 ^ last := by positivity
  have hunits : (m : ℚ) * 2 ^ e / 2 ^ last = m * 2 ^ (e - last) := by
    rw [zpow_sub₀ two_ne_zero, mul_div_assoc]
  rw [← hunits, ← sub_div, abs_div, abs_of_pos hplace, div_mul_eq_mul_div]
  exact div_le_div_of_nonneg_right hclose hplace.le

/-- The nearest mantissa is the one within half a place. -/
lemma nearestMantissa_eq (hnum : 0 < num) (hden : 0 < den) (target : Nat)
    (h : |(num : ℚ) / den / 2 ^ lastPlace num den - target| < 1 / 2) :
    nearestMantissa num den = target := by
  obtain ⟨hround, -, -⟩ := nearestMantissa_spec hnum hden
  obtain ⟨hlow, hhigh⟩ := abs_le.mp hround
  obtain ⟨hlow', hhigh'⟩ := abs_lt.mp h
  have hle : (nearestMantissa num den : ℚ) < (target + 1 : Nat) := by
    push_cast
    linarith
  have hge : (target : ℚ) < (nearestMantissa num den + 1 : Nat) := by
    push_cast
    linarith
  have hle' : nearestMantissa num den < target + 1 := by exact_mod_cast hle
  have hge' : target < nearestMantissa num den + 1 := by exact_mod_cast hge
  omega

/-- A number that is close to a double has its last place there and is rounded to its mantissa.
Only below a power of two does the number have another last place; the mantissa then counts twice,
and a half is still more than the error. -/
lemma nearestMantissa_of_close (hnum : 0 < num) (hden : 0 < den)
    (hform : HasForm m e) (hclose : |(num : ℚ) / den - m * 2 ^ e| * (2 * 10 ^ 16) ≤ m * 2 ^ e) :
    lastPlace num den = e ∧ nearestMantissa num den = m ∨
      lastPlace num den = e - 1 ∧ m = 2 ^ 52 ∧ nearestMantissa num den = 2 ^ 53 := by
  obtain ⟨hdigits, hleast, -, hfull⟩ := hform
  obtain ⟨-, hhigh, hlow⟩ := nearestMantissa_spec hnum hden
  have hmantissa := nearestMantissa_eq hnum hden
  have herror := abs_sub_place_le (lastPlace num den) hclose
  have hlast : -1074 ≤ lastPlace num den := le_max_right _ _
  have hm : (m : ℚ) ≤ 2 ^ 53 - 1 := by
    have hcast : ((m + 1 : Nat) : ℚ) ≤ (2 ^ 53 : Nat) := by exact_mod_cast hdigits
    push_cast at hcast
    linarith
  generalize lastPlace num den = last at *
  generalize (num : ℚ) / den / 2 ^ last = y at *
  rw [← le_div_iff₀ (by norm_num)] at herror
  obtain ⟨hbelow, habove⟩ := abs_le.mp herror
  rcases lt_trichotomy last e with hlt | rfl | hgt
  · -- the double has at least one place more
    obtain ⟨k, rfl⟩ : ∃ k : Nat, e = last + 1 + k := ⟨(e - last - 1).toNat, by omega⟩
    have hexponent : last + 1 + k - last = ((k + 1 : Nat) : Int) := by omega
    rw [hexponent, zpow_natCast] at hbelow habove
    have hfull' : 2 ^ 52 ≤ m := hfull.resolve_right (by omega)
    have hlarge : (2 : ℚ) ^ 52 ≤ m := by exact_mod_cast hfull'
    rcases k with _ | k
    · rw [zero_add, pow_one] at hbelow habove
      have hone : (m : ℚ) < (2 ^ 52 + 1 : Nat) := by
        push_cast
        linarith
      have hm' : m = 2 ^ 52 := by
        have hlt : m < 2 ^ 52 + 1 := by exact_mod_cast hone
        omega
      subst hm'
      push_cast at hbelow habove
      refine .inr ⟨by omega, rfl, hmantissa (2 ^ 53) (abs_lt.mpr ⟨?_, ?_⟩)⟩ <;>
        push_cast <;> linarith
    · have hscale : (2 : ℚ) ^ 52 * 2 ^ 2 ≤ (m : ℚ) * 2 ^ (k + 1 + 1) :=
        mul_le_mul hlarge (pow_le_pow_right₀ (by norm_num) (by omega)) (by positivity)
          (by positivity)
      linarith
  · -- both have the same last place, and no double is closer than `m`
    left
    rw [sub_self, zpow_zero, mul_one] at hbelow habove
    refine ⟨rfl, hmantissa m (abs_lt.mpr ⟨?_, ?_⟩)⟩ <;> linarith
  · -- the number would have at least one place more
    obtain ⟨k, rfl⟩ : ∃ k : Nat, last = e + 1 + k := ⟨(last - e - 1).toNat, by omega⟩
    have hsmall : (m : ℚ) * 2 ^ (e - (e + 1 + k)) ≤ m / 2 := by
      rw [div_eq_mul_inv, ← zpow_neg_one]
      gcongr
      · norm_num
      · omega
    have hy := hlow.resolve_right (by omega)
    linarith

/-- A number that is close to a double is rounded to it. -/
lemma nearestBits_of_close (hnum : 0 < num) (hden : 0 < den)
    (hform : HasForm m e) (hclose : |(num : ℚ) / den - m * 2 ^ e| * (2 * 10 ^ 16) ≤ m * 2 ^ e) :
    nearestBits num den = (e + 1074).toNat * 2 ^ 52 + m := by
  have hdigits := hform.digits
  have hgreatest := hform.greatest
  have hlast : -1074 ≤ lastPlace num den := le_max_right _ _
  rw [nearestBits_eq]
  obtain ⟨hplace, hmantissa⟩ | ⟨hplace, rfl, hmantissa⟩ :=
    nearestMantissa_of_close hnum hden hform hclose
  all_goals
    rw [hplace] at hlast
    rw [hplace, hmantissa]
    omega

end Close

/-- A quotient and an equal one have the same double. -/
lemma ofQuotient_congr (negative : Bool) {num den num' den' : Nat} (hnum : 0 < num) (hden : 0 < den)
    (hnum' : 0 < num') (hden' : 0 < den') (h : (num : ℚ) / den = num' / den') :
    ofQuotient negative num den = ofQuotient negative num' den' := by
  have hnonzero : ¬ (num = 0 ∨ den = 0) := by omega
  have hnonzero' : ¬ (num' = 0 ∨ den' = 0) := by omega
  rw [ofQuotient, ofQuotient, if_neg hnonzero, if_neg hnonzero',
    nearestBits_congr hnum hden hnum' hden' h]

end Double

namespace Decimal

open Double

/-! ### Decimals -/

/-- The number that a decimal denotes. -/
def value (d : Decimal) : ℚ := d.digits * 10 ^ d.exponent

/-- A number lies between the powers of ten of its width. -/
lemma width_spec {n : Nat} (hn : 0 < n) :
    (10 : ℚ) ^ ((width n : Int) - 1) ≤ n ∧ (n : ℚ) < 10 ^ ((width n : Int) - 1 + 1) := by
  have hpos : 0 < width n := List.length_pos_iff.mpr Nat.toDigits_ne_nil
  have hle (k : Nat) (hk : 0 < k) : width n ≤ k ↔ n < 10 ^ k :=
    Nat.length_toDigits_le_iff (by decide) hk
  constructor
  · obtain ⟨k, hk⟩ : ∃ k, width n = k + 1 := ⟨width n - 1, by omega⟩
    have hpower : 10 ^ k ≤ n := by
      rcases Nat.eq_zero_or_pos k with rfl | hkpos
      · rwa [pow_zero]
      · by_contra hlt
        have := (hle k hkpos).mpr (not_le.mp hlt)
        omega
    rw [hk, Nat.cast_succ, add_sub_cancel_right, zpow_natCast]
    exact_mod_cast hpower
  · rw [sub_add_cancel, zpow_natCast]
    exact_mod_cast (hle (width n) hpos).mp le_rfl

/-- Scaling a quotient down divides it by a power of ten. -/
lemma scaleDown_spec (num : Nat) {den : Nat} (hden : 0 < den) (e : Int) :
    0 < (scaleDown num den e).2 ∧
      ((scaleDown num den e).1 : ℚ) / (scaleDown num den e).2 = num / den / 10 ^ e := by
  cases e with
  | ofNat k =>
    refine ⟨by simp only [scaleDown]; positivity, ?_⟩
    simp only [scaleDown, Int.ofNat_eq_natCast, zpow_natCast]
    push_cast
    rw [div_div]
  | negSucc k =>
    refine ⟨hden, ?_⟩
    simp only [scaleDown, zpow_negSucc, div_inv_eq_mul]
    push_cast
    ring

/-- A quotient that was scaled down is below one when it was below the power of ten. -/
lemma scaleDown_lt_iff {num den : Nat} (hden : 0 < den) (e : Int) :
    (scaleDown num den e).1 < (scaleDown num den e).2 ↔ (num : ℚ) / den < 10 ^ e := by
  obtain ⟨hpos, hvalue⟩ := scaleDown_spec num hden e
  have hcast : (0 : ℚ) < (scaleDown num den e).2 := by exact_mod_cast hpos
  rw [← Nat.cast_lt (α := ℚ), ← div_lt_one hcast, hvalue, div_lt_one (by positivity)]

/-- The leading exponent is that of the leading digit of the quotient. -/
lemma leadingExponent_spec {num den : Nat} (hnum : 0 < num) (hden : 0 < den) :
    (10 : ℚ) ^ leadingExponent num den ≤ num / den ∧
      (num : ℚ) / den < 10 ^ (leadingExponent num den + 1) := by
  obtain ⟨hbelow, habove⟩ := zpow_le_div_lt_zpow (by norm_num) (width_spec hnum) (width_spec hden)
  rw [sub_sub_sub_cancel_right] at hbelow habove
  unfold leadingExponent
  generalize (width num : Int) - width den = guess at *
  exact zpow_le_lt_zpow_of_guess (scaleDown_lt_iff hden guess) hbelow habove

/-! ### The search -/

/-- A decimal is read as the double nearest to its value. -/
lemma readsAs_iff {bits num den : Nat} {d : Decimal} (hnum : 0 < num) (hden : 0 < den)
    (h : d.value = num / den) : readsAs bits d = true ↔ nearestBits num den = bits := by
  have hpos : 0 < d.value := h ▸ by positivity
  have hdigits : 0 < d.digits := by
    refine Nat.pos_of_ne_zero fun hzero => hpos.ne' ?_
    rw [value, hzero, Nat.cast_zero, zero_mul]
  rw [readsAs, Bool.and_eq_true, and_iff_right (bne_iff_ne.mpr hdigits.ne')]
  obtain ⟨digits, e⟩ := d
  cases e with
  | ofNat e =>
    dsimp only
    rw [beq_iff_eq, nearestBits_congr (by positivity) one_pos hnum hden]
    rw [← h, value, Int.ofNat_eq_natCast, zpow_natCast]
    push_cast
    rw [div_one]
  | negSucc e =>
    dsimp only
    rw [beq_iff_eq, nearestBits_congr hdigits (by positivity) hnum hden]
    rw [← h, value, zpow_negSucc]
    push_cast
    rfl

/-- A quotient lies between its integral part and the next integer, and is nearer to the former when
the remainder is at most half of the divisor. -/
lemma div_between (n : Nat) {d : Nat} (hd : 0 < d) :
    ((n / d : Nat) : ℚ) ≤ n / d ∧ (n : ℚ) / d ≤ (n / d : Nat) + 1 ∧
      (2 * (n % d) ≤ d → (n : ℚ) / d ≤ (n / d : Nat) + 1 / 2) ∧
      (d ≤ 2 * (n % d) → ((n / d : Nat) : ℚ) + 1 / 2 ≤ n / d) := by
  have hcast : (0 : ℚ) < d := by exact_mod_cast hd
  have hrest : ((n % d : Nat) : ℚ) < d := by exact_mod_cast Nat.mod_lt n hd
  have hbelow : ((n % d : Nat) : ℚ) / d < 1 := (div_lt_one hcast).mpr hrest
  have habove : 0 ≤ ((n % d : Nat) : ℚ) / d := by positivity
  rw [cast_div_eq_add n hd]
  refine ⟨by linarith, by linarith, fun h => ?_, fun h => ?_⟩
  · have hhalf := not_lt.mp (mt (half_lt_div_iff hd).mp h.not_gt)
    linarith
  · have hhalf := not_lt.mp (mt (div_lt_half_iff hd).mp h.not_gt)
    linarith

/-- Both grid points are at most one step away, and the first one is at most half a step away. -/
lemma neighbours_spec (num : Nat) {den : Nat} (hden : 0 < den) (e : Int) :
    (∀ d ∈ neighbours num den e, d.exponent = e ∧ |d.value - num / den| ≤ 10 ^ e) ∧
      ∃ d ∈ neighbours num den e, |d.value - num / den| * 2 ≤ 10 ^ e := by
  obtain ⟨hpos, hscaled⟩ := scaleDown_spec num hden e
  have hstep : (0 : ℚ) < 10 ^ e := by positivity
  rw [eq_div_iff hstep.ne'] at hscaled
  obtain ⟨hlow, hhigh, hnear, hfar⟩ := div_between (scaleDown num den e).1 hpos
  unfold neighbours
  rw [← hscaled]
  dsimp only
  generalize ((scaleDown num den e).1 : ℚ) / (scaleDown num den e).2 = y at *
  generalize (scaleDown num den e).1 / (scaleDown num den e).2 = low at *
  have hdistance (k : Nat) : |(⟨k, e⟩ : Decimal).value - y * 10 ^ e| = |(k : ℚ) - y| * 10 ^ e := by
    rw [value, ← sub_mul, abs_mul, abs_of_pos hstep]
  have hboth (k : Nat) (hk : k = low ∨ k = low + 1) :
      (⟨k, e⟩ : Decimal).exponent = e ∧ |(⟨k, e⟩ : Decimal).value - y * 10 ^ e| ≤ 10 ^ e := by
    refine ⟨rfl, ?_⟩
    rw [hdistance]
    refine mul_le_of_le_one_left hstep.le (abs_le.mpr ?_)
    obtain rfl | rfl := hk
    · constructor <;> linarith
    · push_cast
      constructor <;> linarith
  have hhalf (k : Nat) (hk : |(k : ℚ) - y| ≤ 1 / 2) :
      |(⟨k, e⟩ : Decimal).value - y * 10 ^ e| * 2 ≤ 10 ^ e := by
    rw [hdistance, mul_right_comm]
    exact mul_le_of_le_one_left hstep.le (by linarith)
  split
  next hfirst =>
    refine ⟨?_, ⟨low, e⟩, List.mem_cons_self, hhalf low ?_⟩
    · exact List.forall_mem_cons.mpr
        ⟨hboth low (.inl rfl), List.forall_mem_singleton.mpr (hboth (low + 1) (.inr rfl))⟩
    · have hbelow := hnear (by omega)
      rw [abs_le]
      constructor <;> linarith
  next hsecond =>
    refine ⟨?_, ⟨low + 1, e⟩, List.mem_cons_self, hhalf (low + 1) ?_⟩
    · exact List.forall_mem_cons.mpr
        ⟨hboth (low + 1) (.inr rfl), List.forall_mem_singleton.mpr (hboth low (.inl rfl))⟩
    · have habove := hfar (by omega)
      push_cast
      rw [abs_le]
      constructor <;> linarith

/-- A positive decimal is the quotient of two natural numbers. -/
lemma exists_ratio {d : Decimal} (h : 0 < d.value) :
    ∃ num den : Nat, 0 < num ∧ 0 < den ∧ d.value = num / den := by
  obtain ⟨hpos, hvalue⟩ := scaleDown_spec d.digits one_pos (-d.exponent)
  rw [Nat.cast_one, div_one, zpow_neg, div_inv_eq_mul, ← value] at hvalue
  refine ⟨_, _, Nat.pos_of_ne_zero fun hzero => h.ne' ?_, hpos, hvalue.symm⟩
  rw [← hvalue, hzero, Nat.cast_zero, zero_div]

section Shortest

variable {bits num den m : Nat} {e : Int} (hnum : 0 < num) (hden : 0 < den)
  (hform : HasForm m e) (hvalue : (num : ℚ) / den = m * 2 ^ e)
  (hbits : bits = (e + 1074).toNat * 2 ^ 52 + m)

include hnum hden hform hvalue hbits

/-- Of the decimals of seventeen digits the nearest is close enough to the double. -/
lemma exists_readsAs :
    ∃ d ∈ neighbours num den (leadingExponent num den - (16 : Nat)), readsAs bits d = true := by
  obtain ⟨hleading, -⟩ := leadingExponent_spec hnum hden
  obtain ⟨-, d, hd, hnear⟩ := neighbours_spec num hden (leadingExponent num den - (16 : Nat))
  have hclose : |d.value - num / den| * (2 * 10 ^ 16) ≤ num / den := by
    refine le_trans ?_ hleading
    rw [zpow_sub₀ (by norm_num), zpow_natCast, le_div_iff₀ (by positivity)] at hnear
    linarith
  have hpos : 0 < d.value := by
    have hquotient : (0 : ℚ) < num / den := by positivity
    rw [← le_div_iff₀ (by norm_num)] at hclose
    have hbelow := (abs_le.mp hclose).1
    linarith
  obtain ⟨n, k, hn, hk, hratio⟩ := exists_ratio hpos
  rw [hratio, hvalue] at hclose
  exact ⟨d, hd, (readsAs_iff hn hk hratio).mpr
    ((nearestBits_of_close hn hk hform hclose).trans hbits.symm)⟩

/-- The search finds a decimal that is read as the double. -/
lemma shortest_spec : readsAs bits (shortest bits num den) = true ∧
    ∃ k < 17, shortest bits num den ∈ neighbours num den (leadingExponent num den - (k : Nat)) := by
  obtain ⟨d, hd, hreads⟩ := exists_readsAs hnum hden hform hvalue hbits
  unfold shortest
  dsimp only
  cases hfound : ((List.range 17).flatMap fun (k : Nat) =>
      neighbours num den (leadingExponent num den - (k : Int))).find? (readsAs bits) with
  | none =>
    have hmem : d ∈ (List.range 17).flatMap fun (k : Nat) =>
        neighbours num den (leadingExponent num den - (k : Int)) :=
      List.mem_flatMap.mpr ⟨16, List.mem_range.mpr (by decide), hd⟩
    exact absurd hreads (List.find?_eq_none.mp hfound d hmem)
  | some found =>
    obtain ⟨k, hk, hmem⟩ := List.mem_flatMap.mp (List.mem_of_find?_eq_some hfound)
    exact ⟨List.find?_some hfound, k, List.mem_range.mp hk, hmem⟩

omit hnum hden hbits in
/-- The least double and a bound of all finite ones, in powers of ten. -/
lemma range_of_form (hm : 0 < m) :
    (10 : ℚ) ^ (-324 : Int) ≤ num / den ∧ (num : ℚ) / den * 2 < 10 ^ (310 : Int) := by
  obtain ⟨hdigits, hleast, hgreatest, -⟩ := hform
  have hbelow : 2 ^ 1074 ≤ 10 ^ 324 := by decide +kernel
  have habove : 2 ^ 53 * 2 ^ 971 * 2 ≤ 10 ^ 310 := by decide +kernel
  rw [hvalue]
  constructor
  · calc (10 : ℚ) ^ (-324 : Int) ≤ 2 ^ (-1074 : Int) := by
          rw [zpow_neg, zpow_neg]
          exact inv_anti₀ (by positivity) (by exact_mod_cast hbelow)
      _ ≤ 2 ^ e := zpow_le_zpow_right₀ (by norm_num) hleast
      _ ≤ m * 2 ^ e := le_mul_of_one_le_left (by positivity) (by exact_mod_cast hm)
  · have hmantissa : (m : ℚ) < 2 ^ 53 := by exact_mod_cast hdigits
    calc (m : ℚ) * 2 ^ e * 2 ≤ m * 2 ^ (971 : Int) * 2 := by
          gcongr
          norm_num
      _ < 2 ^ 53 * 2 ^ (971 : Int) * 2 := by gcongr
      _ ≤ 10 ^ (310 : Int) := by exact_mod_cast habove

/-- The shortest decimal is in a range that has room for all doubles. -/
lemma shortest_bounds (hm : 0 < m) :
    (10 : ℚ) ^ (-400 : Int) ≤ (shortest bits num den).value ∧
      (shortest bits num den).value < 10 ^ (310 : Int) := by
  obtain ⟨hreads, k, hk, hmem⟩ := shortest_spec hnum hden hform hvalue hbits
  obtain ⟨hexponent, hnear⟩ := (neighbours_spec num hden _).1 _ hmem
  obtain ⟨hbelow, habove⟩ := leadingExponent_spec hnum hden
  obtain ⟨hleast, hgreatest⟩ := range_of_form hform hvalue hm
  have hten : (1 : ℚ) < 10 := by norm_num
  have hleading := (zpow_lt_zpow_iff_right₀ hten).mp (hleast.trans_lt habove)
  have hstep : (10 : ℚ) ^ (leadingExponent num den - (k : Int)) ≤ 10 ^ leadingExponent num den :=
    zpow_le_zpow_right₀ hten.le (by omega)
  generalize shortest bits num den = d at *
  have hdigits : (1 : ℚ) ≤ d.digits := by
    have hne : d.digits ≠ 0 := bne_iff_ne.mp (Bool.and_eq_true_iff.mp hreads).1
    exact_mod_cast Nat.pos_of_ne_zero hne
  constructor
  · calc (10 : ℚ) ^ (-400 : Int) ≤ 10 ^ d.exponent := zpow_le_zpow_right₀ hten.le (by omega)
      _ ≤ d.value := le_mul_of_one_le_left (by positivity) hdigits
  · have hdistance := (abs_le.mp hnear).2
    linarith

end Shortest

/-- To take zeros off the end of the digits does not change the number. -/
lemma value_strip (fuel : Nat) (d : Decimal) : (d.strip fuel).value = d.value := by
  induction fuel generalizing d with
  | zero => rfl
  | succ fuel ih =>
    rw [strip]
    split
    next hzeros =>
      rw [ih]
      have hdigits : d.digits = d.digits / 10 * 10 := by omega
      conv_rhs => rw [value, hdigits]
      rw [value, zpow_add_one₀ (by norm_num)]
      push_cast
      ring
    · rfl

end Decimal

namespace Double

/-- A decimal in the range of doubles is rounded as a quotient. -/
lemma ofDecimal_of_value (negative : Bool) {digits num den : Nat} {exponent : Int} (hnum : 0 < num)
    (hden : 0 < den) (h : (digits : ℚ) * 10 ^ exponent = num / den)
    (hlow : (10 : ℚ) ^ (-400 : Int) ≤ num / den) (hhigh : (num : ℚ) / den < 10 ^ (310 : Int)) :
    ofDecimal negative digits exponent = ofQuotient negative num den := by
  have hten : (1 : ℚ) < 10 := by norm_num
  have hdigits : 0 < digits := by
    refine Nat.pos_of_ne_zero fun hzero => ?_
    rw [hzero, Nat.cast_zero, zero_mul] at h
    exact absurd h (by positivity)
  have hten' : (10 : ℚ) ≠ 0 := by norm_num
  obtain ⟨hbelow, habove⟩ := Decimal.width_spec hdigits
  rw [← h] at hlow hhigh
  have htop : ¬ ((Nat.toDigits 10 digits).length : Int) + exponent > 310 := by
    have hlt : (10 : ℚ) ^ ((Decimal.width digits : Int) - 1 + exponent) < 10 ^ (310 : Int) := by
      rw [zpow_add₀ hten']
      exact (mul_le_mul_of_nonneg_right hbelow (by positivity)).trans_lt hhigh
    have hexponent := (zpow_lt_zpow_iff_right₀ hten).mp hlt
    rw [Decimal.width] at hexponent
    omega
  have hbottom : ¬ ((Nat.toDigits 10 digits).length : Int) + exponent < -400 := by
    have hlt : (10 : ℚ) ^ (-400 : Int) <
        10 ^ ((Decimal.width digits : Int) - 1 + 1 + exponent) := by
      rw [zpow_add₀ hten']
      exact hlow.trans_lt (mul_lt_mul_of_pos_right habove (by positivity))
    have hexponent := (zpow_lt_zpow_iff_right₀ hten).mp hlt
    rw [Decimal.width] at hexponent
    omega
  unfold ofDecimal
  dsimp only
  rw [if_neg hdigits.ne', if_neg htop, if_neg hbottom]
  cases exponent with
  | ofNat e =>
    refine ofQuotient_congr negative (by positivity) one_pos hnum hden ?_
    rw [← h, Int.ofNat_eq_natCast, zpow_natCast]
    push_cast
    rw [div_one]
  | negSucc e =>
    refine ofQuotient_congr negative hdigits (by positivity) hnum hden ?_
    rw [← h, zpow_negSucc]
    push_cast
    rfl

/-- The shortest decimal of a finite double denotes it, however its digits and its exponent are
written. -/
theorem ofDecimal_shortest {x : Float} {negative : Bool} {num den m digits : Nat} {e exponent : Int}
    (hview : view x = .finite negative m e) (hm : m ≠ 0) (hnum : 0 < num) (hden : 0 < den)
    (hvalue : (num : ℚ) / den = m * 2 ^ e)
    (h : (digits : ℚ) * 10 ^ exponent =
      (Decimal.shortest (x.toBits.toNat % 2 ^ 63) num den).value) :
    ofDecimal negative digits exponent = x := by
  have hform := hasForm_of_view hview
  have hbits := toNat_toBits_mod_of_view hview
  obtain ⟨hreads, -⟩ := Decimal.shortest_spec hnum hden hform hvalue hbits
  obtain ⟨hlow, hhigh⟩ :=
    Decimal.shortest_bounds hnum hden hform hvalue hbits (Nat.pos_of_ne_zero hm)
  generalize Decimal.shortest (x.toBits.toNat % 2 ^ 63) num den = d at *
  obtain ⟨n, k, hn, hk, hratio⟩ := Decimal.exists_ratio (lt_of_lt_of_le (by positivity) hlow)
  rw [hratio] at h hlow hhigh
  rw [ofDecimal_of_value negative hn hk h hlow hhigh]
  exact ofQuotient_of_view hview hn hk
    (((Decimal.readsAs_iff hn hk hratio).mp hreads).trans hbits)

end Double

end PenRover
