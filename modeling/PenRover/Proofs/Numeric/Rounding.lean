import Mathlib.Algebra.Order.Field.Power
import Mathlib.Data.Nat.Cast.Order.Field
import PenRover.Proofs.Numeric.Layout

/-!
# Rounding

An operation on doubles rounds its exact result to the nearest: no number that a double can hold is
nearer to it (`Nearest`).  In most places the library needs two consequences only: the result does
not change its side of zero, and it does not pass a power of two.  So a bound on an exact result
that is a power of two is a bound on the rounded one, and the rounded one is finite if the power is
a double.  `Rounds q x` says this of a double `x` in place of an exact number `q`.

The operations shift a mantissa to the exponent that its size asks for.  Two bits keep what was
shifted out: whether it is half of the last place or more, and whether there is anything besides
(`Marks`).  So the mantissa that is rounded by these bits is at most half a place away
(`Marks.abs_sub_le`), and no multiple of the last place is nearer; numbers with finer digits are
smaller than any mantissa with all its digits (`nearest_of_grid`).
-/

namespace PenRover

namespace Double

open Float.Model Float.Model.UnpackedFloat

/-- The value of an unpacked double. -/
def amount : UnpackedFloat → Option ℚ
  | .finite sign mantissa exponent _ => some (signed (isNegative sign) mantissa * 2 ^ exponent)
  | .zero _ => some 0
  | _ => none

/-- A double with the content of an unpacked one has its value. -/
lemma value?_of_view_eq_content {x : Float} {u : UnpackedFloat} (h : view x = content u) :
    value? x = amount u := by
  unfold value?
  rw [h]
  cases u with
  | zero sign => simp [content, amount, signed]
  | _ => rfl

/-- The value of a double is that of the double unpacked. -/
lemma value?_eq_amount (x : Float) : value? x = amount x.toModel.unpack :=
  value?_of_view_eq_content (view_eq_content x)

/-- A canonical double keeps its value when it is packed. -/
lemma value?_ofModel_pack (u : UnpackedFloat) (h : Canonical u) :
    value? (.ofModel (.pack u)) = amount u :=
  value?_of_view_eq_content (view_ofModel_pack u h)

/-! ### The nearest double -/

/-- A number with as many digits as a double can hold, of any size. -/
def Representable (v : ℚ) : Prop :=
  ∃ m e : Int, |m| ≤ 2 ^ 53 ∧ -1074 ≤ e ∧ v = m * 2 ^ e

/-- No number that a double can hold is nearer to `q`. -/
def Nearest (q r : ℚ) : Prop := ∀ v, Representable v → |r - q| ≤ |v - q|

/-- The double `x` is nearest to the number `q`, unless the latter is beyond the doubles. -/
def IsNearest (q : ℚ) (x : Float) : Prop :=
  |q| ≤ 2 ^ 1023 → ∃ r, value? x = some r ∧ Nearest q r

/-- The same of an unpacked double. -/
def NearestTo (q : ℚ) (u : UnpackedFloat) : Prop :=
  |q| ≤ 2 ^ 1023 → Canonical u ∧ ∃ r, amount u = some r ∧ Nearest q r

/-- The negative of a number that a double can hold is one. -/
lemma Representable.neg {v : ℚ} (h : Representable v) : Representable (-v) := by
  obtain ⟨m, e, hm, he, rfl⟩ := h
  exact ⟨-m, e, by rwa [abs_neg], he, by push_cast; ring⟩

/-- A double can hold zero. -/
lemma representable_zero : Representable 0 := ⟨0, 0, by norm_num, by norm_num, by norm_num⟩

/-- A double can hold powers of two. -/
lemma representable_two_pow (n : Nat) : Representable (2 ^ n) :=
  ⟨1, n, by norm_num, by omega, by norm_num⟩

/-- A number is nearest to itself. -/
lemma Nearest.self (q : ℚ) : Nearest q q := fun v _ => by
  rw [sub_self, abs_zero]
  exact abs_nonneg _

/-- A number that a double can hold is its own nearest. -/
lemma Nearest.eq {q r : ℚ} (h : Nearest q r) (hq : Representable q) : r = q := by
  have hle := h q hq
  rw [sub_self, abs_zero, abs_nonpos_iff] at hle
  linarith

/-- The negative of the nearest number is nearest to the negative. -/
lemma Nearest.neg {q r : ℚ} (h : Nearest q r) : Nearest (-q) (-r) := by
  intro v hv
  have hle := h (-v) hv.neg
  rwa [← abs_neg, ← abs_neg (v - -q), show -(-r - -q) = r - q by ring,
    show -(v - -q) = -v - q by ring]

/-- No number that a double can hold is passed. -/
lemma Nearest.le {q r v : ℚ} (h : Nearest q r) (hv : Representable v) (hq : q ≤ v) : r ≤ v := by
  by_contra hlt
  have hle := h v hv
  rw [abs_of_nonneg (sub_nonneg.mpr hq), abs_of_nonneg (by linarith)] at hle
  linarith

/-- The nearest number does not pass a number that a double can hold, from above. -/
lemma Nearest.ge {q r v : ℚ} (h : Nearest q r) (hv : Representable v) (hq : v ≤ q) : v ≤ r := by
  have hle := h.neg.le hv.neg (neg_le_neg hq)
  linarith

/-- The error is at most half of a place in which the number has no more digits than a double. -/
lemma Nearest.error_le {q r : ℚ} (h : Nearest q r) {e : Int} (he : -1074 ≤ e)
    (hq : |q| ≤ 2 ^ 53 * 2 ^ e) : |r - q| ≤ 2 ^ e / 2 := by
  have hplace : (0 : ℚ) < 2 ^ e := by positivity
  have hsize : |q / 2 ^ e| ≤ 2 ^ 53 := by
    rwa [abs_div, abs_of_pos hplace, div_le_iff₀ hplace]
  obtain ⟨s, hclose⟩ : ∃ s : Int, |q / 2 ^ e - s| ≤ 1 / 2 := ⟨_, abs_sub_round (q / 2 ^ e)⟩
  have hround : |s| < 2 ^ 53 + 1 := by
    have hlt : |(s : ℚ)| < 2 ^ 53 + 1 := by
      rw [abs_le] at hsize hclose
      rw [abs_lt]
      constructor <;> linarith
    exact_mod_cast hlt
  refine (h _ ⟨s, e, by omega, he, rfl⟩).trans ?_
  have hscale : (s : ℚ) * 2 ^ e - q = (s - q / 2 ^ e) * 2 ^ e := by
    rw [sub_mul, div_mul_cancel₀ _ hplace.ne']
  rw [hscale, abs_mul, abs_of_pos hplace, abs_sub_comm]
  calc |q / 2 ^ e - s| * 2 ^ e ≤ 1 / 2 * 2 ^ e := by gcongr
    _ = 2 ^ e / 2 := by ring

/-! ### Staying below a power of two -/

/-- The number `r` in place of `q` is on the same side of zero and has the same bound. -/
structure Keeps (q : ℚ) (bound : ℚ) (r : ℚ) : Prop where
  le : |r| ≤ bound
  nonneg : 0 ≤ q → 0 ≤ r
  nonpos : q ≤ 0 → r ≤ 0

/-- The double `x` in place of the exact number `q` passes neither zero nor a power of two. -/
def Rounds (q : ℚ) (x : Float) : Prop :=
  ∀ n : Nat, n ≤ 1023 → |q| ≤ 2 ^ n → ∃ r, value? x = some r ∧ Keeps q (2 ^ n) r

/-- A number keeps its own side of zero and its own bound. -/
lemma Keeps.self {q bound : ℚ} (h : |q| ≤ bound) : Keeps q bound q := ⟨h, id, id⟩

/-- The nearest number keeps the side of zero, and a bound that is a power of two. -/
lemma Nearest.keeps {q r : ℚ} (h : Nearest q r) {n : Nat} (hq : |q| ≤ 2 ^ n) :
    Keeps q (2 ^ n) r := by
  obtain ⟨hlow, hhigh⟩ := abs_le.mp hq
  have hpow := representable_two_pow n
  exact ⟨abs_le.mpr ⟨h.ge hpow.neg hlow, h.le hpow hhigh⟩, h.ge representable_zero,
    h.le representable_zero⟩

/-- A bound within the doubles is one by the doubles. -/
lemma two_pow_le_of_le {q : ℚ} {n : Nat} (hn : n ≤ 1023) (hq : |q| ≤ 2 ^ n) : |q| ≤ 2 ^ 1023 :=
  hq.trans (pow_le_pow_right₀ (by norm_num) hn)

/-- The nearest double passes neither zero nor a power of two. -/
lemma IsNearest.rounds {q : ℚ} {x : Float} (h : IsNearest q x) : Rounds q x := by
  intro n hn hq
  obtain ⟨r, hr, hnearest⟩ := h (two_pow_le_of_le hn hq)
  exact ⟨r, hr, hnearest.keeps hq⟩

/-- An unpacked double that is nearest is nearest when it is packed. -/
lemma isNearest_of_nearestTo {q : ℚ} {u : UnpackedFloat} (h : NearestTo q u) :
    IsNearest q (.ofModel (.pack u)) := by
  intro hq
  obtain ⟨hcanonical, r, hr, hnearest⟩ := h hq
  exact ⟨r, (value?_ofModel_pack u hcanonical).trans hr, hnearest⟩

/-- An exact result is kept. -/
lemma nearestTo_self {q : ℚ} {u : UnpackedFloat} (hcanonical : Canonical u)
    (h : amount u = some q) : NearestTo q u :=
  fun _ => ⟨hcanonical, q, h, Nearest.self q⟩

/-- A multiple of the last place that is at most half a place away is nearest, when the number has
all the digits that a double can hold or the last place is the least one. -/
lemma nearest_of_grid {y : ℚ} {s e : Int} (hy : 2 ^ 52 ≤ y ∨ e = -1074)
    (hs : |s - y| ≤ 1 / 2) : Nearest (y * 2 ^ e) (s * 2 ^ e) := by
  have hplace : (0 : ℚ) < 2 ^ e := by positivity
  -- an integer other than `s` is no nearer to `y`
  have hgrid (j : Int) : |s - y| ≤ |j - y| := by
    by_cases hj : j = s
    · rw [hj]
    · have hone : (1 : ℚ) ≤ |(j : ℚ) - s| := by exact_mod_cast Int.one_le_abs (sub_ne_zero.mpr hj)
      have htriangle := abs_sub_le (j : ℚ) y s
      rw [abs_sub_comm y] at htriangle
      linarith
  rintro v ⟨m, f, hm, hf, rfl⟩
  rw [← sub_mul, abs_mul, abs_of_pos hplace]
  by_cases hfine : e ≤ f
  · have hmultiple : (m : ℚ) * 2 ^ f - y * 2 ^ e = ((m * 2 ^ (f - e).toNat : Int) - y) * 2 ^ e := by
      have hsplit : (2 : ℚ) ^ f = 2 ^ (f - e).toNat * 2 ^ e := by
        rw [← zpow_natCast, ← zpow_add₀ two_ne_zero]
        congr 1
        omega
      rw [hsplit]
      push_cast
      ring
    rw [hmultiple, abs_mul, abs_of_pos hplace]
    exact mul_le_mul_of_nonneg_right (hgrid _) hplace.le
  · have hfull : 2 ^ 52 ≤ y := hy.resolve_right (by omega)
    have hsmall : (m : ℚ) * 2 ^ f ≤ 2 ^ 52 * 2 ^ e := by
      calc (m : ℚ) * 2 ^ f ≤ 2 ^ 53 * 2 ^ f := by
            gcongr
            exact_mod_cast (abs_le.mp hm).2
        _ ≤ 2 ^ 53 * 2 ^ (e - 1) := by
            gcongr
            · norm_num
            · omega
        _ = 2 ^ 52 * 2 ^ e := by
            rw [zpow_sub_one₀ two_ne_zero]
            ring
    have hnear := hgrid (2 ^ 52)
    rw [Int.cast_pow, Int.cast_ofNat,
      abs_of_nonpos (show (2 : ℚ) ^ 52 - y ≤ 0 by linarith)] at hnear
    calc |s - y| * 2 ^ e ≤ -(2 ^ 52 - y) * 2 ^ e := by gcongr
      _ = y * 2 ^ e - 2 ^ 52 * 2 ^ e := by ring
      _ ≤ -(m * 2 ^ f - y * 2 ^ e) := by linarith
      _ ≤ |m * 2 ^ f - y * 2 ^ e| := neg_le_abs _

/-! ### Shifting out digits -/

/-- Shifting by no place changes nothing. -/
lemma shiftRight_zero (m : ExtendedMantissa) : m >>> (0 : Nat) = m := rfl

/-- Shifting goes place by place. -/
lemma shiftRight_succ (m : ExtendedMantissa) (k : Nat) :
    m >>> (k + 1) = (m >>> k).shiftRightOne := rfl

/-- Shifting divides a mantissa by a power of two. -/
lemma mantissa_shiftRight (m : ExtendedMantissa) (k : Nat) :
    (m >>> k).mantissa = m.mantissa / 2 ^ k := by
  induction k with
  | zero => rw [shiftRight_zero, pow_zero, Nat.div_one]
  | succ k ih =>
    rw [shiftRight_succ, ExtendedMantissa.shiftRightOne, ih, Nat.div_div_eq_div_mul, pow_succ]

/-- What ends in zeros is shifted out exactly. -/
lemma shift_two_pow_mul (m k : Nat) :
    (⟨m * 2 ^ k, false, false⟩ : ExtendedMantissa) >>> k = ⟨m, false, false⟩ := by
  induction k generalizing m with
  | zero => rw [shiftRight_zero, pow_zero, mul_one]
  | succ k ih =>
    rw [shiftRight_succ, pow_succ', ← mul_assoc, ih]
    simp [ExtendedMantissa.shiftRightOne]

/-- The number that a mantissa and its two bits stand for: it is beyond the mantissa by nothing, by
less than half a place, by half a place, or by more. -/
def Marks (m : ExtendedMantissa) (y : ℚ) : Prop :=
  match m.accuracy with
  | .exact => y = m.mantissa
  | .inexact .lt => (m.mantissa : ℚ) < y ∧ y < m.mantissa + 1 / 2
  | .inexact .eq => y = m.mantissa + 1 / 2
  | .inexact .gt => (m.mantissa : ℚ) + 1 / 2 < y ∧ y < m.mantissa + 1

/-- To shift out a digit halves the number. -/
lemma Marks.shiftRightOne {m : ExtendedMantissa} {y : ℚ} (h : Marks m y) :
    Marks m.shiftRightOne (y / 2) := by
  obtain ⟨n, round, sticky⟩ := m
  obtain ⟨k, hk | hk⟩ := Nat.even_or_odd' n
  · have hhalf : n / 2 = k := by omega
    have hbit : n % 2 = 0 := by omega
    cases round <;> cases sticky <;>
      simp only [Marks, ExtendedMantissa.accuracy, ExtendedMantissa.shiftRightOne, hhalf, hbit,
        bne_self_eq_false, Bool.or_false, Bool.or_true] at h ⊢ <;>
      rw [hk] at h <;> push_cast at h
    · linarith
    · constructor <;> linarith
    · constructor <;> linarith
    · constructor <;> linarith
  · have hhalf : n / 2 = k := by omega
    have hbit : (n % 2 != 0) = true := by
      rw [bne_iff_ne]
      omega
    cases round <;> cases sticky <;>
      simp only [Marks, ExtendedMantissa.accuracy, ExtendedMantissa.shiftRightOne, hhalf, hbit,
        Bool.or_false, Bool.or_true] at h ⊢ <;>
      rw [hk] at h <;> push_cast at h
    · linarith
    · constructor <;> linarith
    · constructor <;> linarith
    · constructor <;> linarith

/-- A mantissa that is shifted stands for its number divided by a power of two. -/
lemma Marks.shiftRight {m : ExtendedMantissa} {y : ℚ} (h : Marks m y) (k : Nat) :
    Marks (m >>> k) (y / 2 ^ k) := by
  induction k with
  | zero => rwa [shiftRight_zero, pow_zero, div_one]
  | succ k ih =>
    rw [shiftRight_succ, pow_succ, ← div_div]
    exact ih.shiftRightOne

/-- The rounded mantissa is at most half a place away. -/
lemma Marks.abs_sub_le {m : ExtendedMantissa} {y : ℚ} (h : Marks m y) :
    |(m.roundedMantissa : ℚ) - y| ≤ 1 / 2 := by
  obtain ⟨n, round, sticky⟩ := m
  cases round <;> cases sticky <;>
    simp only [Marks, ExtendedMantissa.roundedMantissa, ExtendedMantissa.accuracy,
      Accuracy.roundToNearestEven] at h ⊢
  · rw [h, sub_self, abs_zero]
    norm_num
  · rw [abs_le]
    constructor <;> linarith
  · rcases Nat.mod_two_eq_zero_or_one n with heven | hodd
    · rw [heven, h, abs_le]
      push_cast
      constructor <;> linarith
    · rw [hodd, h, abs_le]
      push_cast
      constructor <;> linarith
  · rw [abs_le]
    push_cast
    constructor <;> linarith

/-- A mantissa is at most the number that it stands for. -/
lemma Marks.le {m : ExtendedMantissa} {y : ℚ} (h : Marks m y) : (m.mantissa : ℚ) ≤ y := by
  obtain ⟨n, round, sticky⟩ := m
  cases round <;> cases sticky <;> simp only [Marks, ExtendedMantissa.accuracy] at h ⊢ <;> linarith

/-- An exact mantissa stands for itself. -/
lemma marks_exact (m : Nat) : Marks (ExtendedMantissa.ofMantissaAndAccuracy m .exact) m := rfl

/-- A quotient of naturals is its integral part and a fraction. -/
lemma cast_div_eq_add (num : Nat) {den : Nat} (hden : 0 < den) :
    (num : ℚ) / den = (num / den : Nat) + ((num % den : Nat) : ℚ) / den := by
  have hcast : (den : ℚ) ≠ 0 := by exact_mod_cast hden.ne'
  have hdivide : (num : ℚ) = den * (num / den : Nat) + (num % den : Nat) := by
    exact_mod_cast (Nat.div_add_mod num den).symm
  rw [← mul_div_cancel_left₀ ((num / den : Nat) : ℚ) hcast, ← add_div, ← hdivide]

/-- A quotient is below one half when twice its numerator is below its denominator. -/
lemma div_lt_half_iff {rest den : Nat} (hden : 0 < den) :
    (rest : ℚ) / den < 1 / 2 ↔ 2 * rest < den := by
  have hcast : (0 : ℚ) < den := by exact_mod_cast hden
  rw [div_lt_div_iff₀ hcast two_pos, one_mul, mul_comm]
  exact_mod_cast Iff.rfl

/-- A quotient is above one half when twice its numerator is above its denominator. -/
lemma half_lt_div_iff {rest den : Nat} (hden : 0 < den) :
    1 / 2 < (rest : ℚ) / den ↔ den < 2 * rest := by
  have hcast : (0 : ℚ) < den := by exact_mod_cast hden
  rw [div_lt_div_iff₀ two_pos hcast, one_mul, mul_comm]
  exact_mod_cast Iff.rfl

/-- A quotient is one half when twice its numerator is its denominator. -/
lemma div_eq_half_iff {rest den : Nat} (hden : 0 < den) :
    (rest : ℚ) / den = 1 / 2 ↔ 2 * rest = den := by
  rw [le_antisymm_iff, ← not_lt, ← not_lt, half_lt_div_iff hden, div_lt_half_iff hden]
  omega

/-- A quotient is its integral part with the accuracy of the rest. -/
lemma marks_accuracyOfFraction (num : Nat) {den : Nat} (hden : 0 < den) :
    Marks (ExtendedMantissa.ofMantissaAndAccuracy (num / den)
      (accuracyOfFraction (num % den) den)) (num / den) := by
  have hcast : (0 : ℚ) < den := by exact_mod_cast hden
  have hrest : ((num % den : Nat) : ℚ) < den := by exact_mod_cast Nat.mod_lt num hden
  rw [cast_div_eq_add num hden]
  generalize num % den = rest at *
  generalize num / den = whole at *
  unfold accuracyOfFraction
  split
  next hzero =>
    simp [Marks, ExtendedMantissa.ofMantissaAndAccuracy, ExtendedMantissa.accuracy, hzero]
  next hzero =>
    have hpos : (0 : ℚ) < rest := by exact_mod_cast Nat.pos_of_ne_zero hzero
    have hbelow : (rest : ℚ) / den < 1 := (div_lt_one hcast).mpr hrest
    have habove : 0 < (rest : ℚ) / den := by positivity
    rcases lt_trichotomy (2 * rest) den with hlt | heq | hgt
    · have hhalf := (div_lt_half_iff hden).mpr hlt
      simp only [Marks, compare_lt_iff_lt.mpr hlt, ExtendedMantissa.ofMantissaAndAccuracy,
        ExtendedMantissa.accuracy]
      constructor <;> linarith
    · have hhalf := (div_eq_half_iff hden).mpr heq
      simp only [Marks, compare_eq_iff_eq.mpr heq, ExtendedMantissa.ofMantissaAndAccuracy,
        ExtendedMantissa.accuracy, hhalf]
    · have hhalf := (half_lt_div_iff hden).mpr hgt
      simp only [Marks, compare_gt_iff_gt.mpr hgt, ExtendedMantissa.ofMantissaAndAccuracy,
        ExtendedMantissa.accuracy]
      constructor <;> linarith

/-- Rounding does not go below a mantissa. -/
lemma le_roundedMantissa (m : ExtendedMantissa) : m.mantissa ≤ m.roundedMantissa := by
  obtain ⟨n, round, sticky⟩ := m
  cases round <;> cases sticky <;>
    simp [ExtendedMantissa.roundedMantissa, ExtendedMantissa.accuracy,
      Accuracy.roundToNearestEven]

/-- Rounding goes one place up at most. -/
lemma roundedMantissa_le (m : ExtendedMantissa) : m.roundedMantissa ≤ m.mantissa + 1 := by
  obtain ⟨n, round, sticky⟩ := m
  cases round <;> cases sticky <;>
    simp [ExtendedMantissa.roundedMantissa, ExtendedMantissa.accuracy,
      Accuracy.roundToNearestEven]
  omega

/-- The exponent that a mantissa of this size asks for. -/
lemma targetExponent_eq (m : Nat) (e : Int) :
    Format.binary64.targetExponent (totalExponent m e) =
      max ((m.log2 : Int) + e - 52) (-1074) := by
  simp only [Format.targetExponent, totalExponent, Format.mantissaBits, Format.minExponent]
  norm_num
  omega

/-- The mantissa of a shift, rounded. -/
def shifted (m : Nat) (a : Accuracy) (k : Nat) : Nat :=
  (ExtendedMantissa.ofMantissaAndAccuracy m a >>> k).roundedMantissa

/-- The mantissa of one that is given with its accuracy. -/
lemma mantissa_ofMantissaAndAccuracy (m : Nat) (a : Accuracy) :
    (ExtendedMantissa.ofMantissaAndAccuracy m a).mantissa = m := by
  cases a with
  | exact => rfl
  | inexact o => cases o <;> rfl

/-- A shift that is rounded does not go below the shift. -/
lemma le_shifted (m : Nat) (a : Accuracy) (k : Nat) : m / 2 ^ k ≤ shifted m a k := by
  have h := le_roundedMantissa (ExtendedMantissa.ofMantissaAndAccuracy m a >>> k)
  rwa [mantissa_shiftRight, mantissa_ofMantissaAndAccuracy] at h

/-- A shift that is rounded goes one place above the shift at most. -/
lemma shifted_le (m : Nat) (a : Accuracy) (k : Nat) : shifted m a k ≤ m / 2 ^ k + 1 := by
  have h := roundedMantissa_le (ExtendedMantissa.ofMantissaAndAccuracy m a >>> k)
  rwa [mantissa_shiftRight, mantissa_ofMantissaAndAccuracy] at h

/-! ### Rounding a mantissa -/

/-- A mantissa that fits is not shifted. -/
lemma shift_of_fits {m : Nat} {e : Int} (hm : m < 2 ^ 53) (he : -1074 ≤ e) :
    shiftToTargetExponent Format.binary64 m e .exact = (⟨m, false, false⟩, e) := by
  have hlog : m.log2 ≤ 52 := by
    by_cases hzero : m = 0
    · simp [hzero]
    · have hlt := (Nat.log2_lt hzero).mpr hm
      omega
  have hshift : (Format.binary64.targetExponent (totalExponent m e) - e).toNat = 0 := by
    rw [targetExponent_eq]
    omega
  simp only [shiftToTargetExponent, shiftToExponent, hshift, shiftRight_zero, Nat.cast_zero,
    add_zero]
  rfl

/-- A mantissa that carries is shifted by one place. -/
lemma shift_of_carry {e : Int} (he : -1074 ≤ e) :
    shiftToTargetExponent Format.binary64 (2 ^ 53) e .exact = (⟨2 ^ 52, false, false⟩, e + 1) := by
  have hshift : (Format.binary64.targetExponent (totalExponent (2 ^ 53) e) - e).toNat = 1 := by
    rw [targetExponent_eq, Nat.log2_two_pow]
    omega
  simp only [shiftToTargetExponent, shiftToExponent, hshift]
  have hhalf : (⟨2 ^ 53, false, false⟩ : ExtendedMantissa) >>> 1 = ⟨2 ^ 52, false, false⟩ :=
    shift_two_pow_mul (2 ^ 52) 1
  exact congrArg (·, e + 1) hhalf

/-- The unpacked double with this sign, mantissa and exponent. -/
def assemble (sign : Sign) (m : Nat) (e : Int) : UnpackedFloat :=
  if h : m = 0 then .zero sign else .finite sign m e (Nat.pos_of_ne_zero h)

/-- The value of a double that is put together. -/
lemma amount_assemble (sign : Sign) (m : Nat) (e : Int) :
    amount (assemble sign m e) = some ((signed (isNegative sign) m : ℚ) * 2 ^ e) := by
  unfold assemble
  split
  next h => simp [amount, h, signed]
  next => rfl

/-- A double is canonical when it is put together from a mantissa and an exponent of its form. -/
lemma canonical_assemble (sign : Sign) {m : Nat} {e : Int} (hm : m < 2 ^ 53) (hlow : -1074 ≤ e)
    (hhigh : e ≤ 971) (hform : 2 ^ 52 ≤ m ∨ e = -1074) : Canonical (assemble sign m e) := by
  unfold assemble
  split
  · trivial
  · exact ⟨hm, hlow, hhigh, hform⟩

/-- The number of digits that a rounding shifts out. -/
def places (m : Nat) (e : Int) : Nat :=
  (Format.binary64.targetExponent (totalExponent m e) - e).toNat

/-- What a rounding leaves: the rounded mantissa, or half of it with the next exponent when the
rounding carried. -/
lemma roundWithAccuracy_eq (sign : Sign) (m : Nat) (e : Int) (a : Accuracy)
    (hle : shifted m a (places m e) ≤ 2 ^ 53) (he : -1074 ≤ e + places m e) :
    roundWithAccuracy Format.binary64 sign m e a =
      if shifted m a (places m e) < 2 ^ 53 then
        assemble sign (shifted m a (places m e)) (e + places m e)
      else assemble sign (2 ^ 52) (e + places m e + 1) := by
  have hfirst : shiftToTargetExponent Format.binary64 m e a =
      (ExtendedMantissa.ofMantissaAndAccuracy m a >>> places m e, e + places m e) := rfl
  unfold roundWithAccuracy
  rw [hfirst]
  change (let r := shiftToTargetExponent Format.binary64 (shifted m a (places m e))
            (e + places m e) .exact
    assemble sign r.1.mantissa r.2) = _
  split
  next hlt => rw [shift_of_fits hlt he]
  next hnot =>
    rw [show shifted m a (places m e) = 2 ^ 53 by omega, shift_of_carry he]

/-- The sign as a factor. -/
def directed (sign : Sign) (q : ℚ) : ℚ := if isNegative sign then -q else q

/-- A signed mantissa is the mantissa with its sign as a factor. -/
lemma directed_signed (sign : Sign) (m : Nat) :
    ((signed (isNegative sign) m : Int) : ℚ) = directed sign m := by
  unfold directed signed
  split <;> simp

/-- A sign is kept when a number is multiplied. -/
lemma directed_mul (sign : Sign) (q c : ℚ) : directed sign q * c = directed sign (q * c) := by
  unfold directed
  split <;> ring

/-- A sign does not change the magnitude. -/
lemma abs_directed (sign : Sign) {q : ℚ} (hq : 0 ≤ q) : |directed sign q| = q := by
  unfold directed
  split
  · rw [abs_neg, abs_of_nonneg hq]
  · exact abs_of_nonneg hq

/-- The nearest number stays nearest when both get a sign. -/
lemma Nearest.directed {q r : ℚ} (h : Nearest q r) (sign : Sign) :
    Nearest (directed sign q) (directed sign r) := by
  unfold Double.directed
  split
  · exact h.neg
  · exact h

/-- Numbers of this form that differ by a shift. -/
lemma mul_two_zpow_add (q : ℚ) (e : Int) (k : Nat) : q * 2 ^ (e + k) = q * 2 ^ k * 2 ^ e := by
  rw [zpow_add₀ two_ne_zero, zpow_natCast]
  ring

/-- A number with `d` digits before its exponent is no less than the power with both. -/
lemma add_le_of_mul_two_zpow_le {q : ℚ} {d n : Nat} {e : Int} (hd : 2 ^ d ≤ q)
    (hq : q * 2 ^ e ≤ 2 ^ n) : e + d ≤ n := by
  have hpow : (2 : ℚ) ^ (e + d) ≤ 2 ^ (n : Int) := by
    rw [zpow_add₀ two_ne_zero, zpow_natCast, zpow_natCast, mul_comm]
    exact (mul_le_mul_of_nonneg_right hd (by positivity)).trans hq
  exact (zpow_le_zpow_iff_right₀ (by norm_num)).mp hpow

section Digits

/- A mantissa with all the digits that a double can hold: digits are shifted out, but never in. -/
variable {m : Nat} {e : Int} (hdigits : 2 ^ 52 ≤ m ∨ e ≤ -1074)
include hdigits

/-- Shifting out the places of a rounding leads to the exponent of the last place. -/
lemma add_places : e + places m e = max ((m.log2 : Int) + e - 52) (-1074) := by
  have htarget := targetExponent_eq m e
  unfold places
  rcases hdigits with hfull | hsmall
  · have hlog : 52 ≤ m.log2 :=
      (Nat.le_log2 (by have := Nat.two_pow_pos 52; omega)).mpr hfull
    omega
  · omega

/-- The rounded mantissa has at most one digit too many. -/
lemma shifted_places_le (a : Accuracy) : shifted m a (places m e) ≤ 2 ^ 53 := by
  have hplaces := add_places hdigits
  have hfloor : m / 2 ^ places m e < 2 ^ 53 := by
    refine (Nat.div_lt_iff_lt_mul (Nat.two_pow_pos _)).mpr ?_
    rw [← pow_add]
    exact lt_of_lt_of_le Nat.lt_log2_self (Nat.pow_le_pow_right (by decide) (by omega))
  have hshifted := shifted_le m a (places m e)
  omega

/-- No digit too many is shifted out, unless the exponent is the least one. -/
lemma le_div_places : 2 ^ 52 ≤ m / 2 ^ places m e ∨ e + places m e = -1074 := by
  have hplaces := add_places hdigits
  by_cases hlast : e + places m e = -1074
  · exact .inr hlast
  · left
    have hlog : m.log2 = 52 + places m e := by omega
    have hzero : m ≠ 0 := by
      rintro rfl
      rw [Nat.log2_zero] at hlog
      omega
    refine (Nat.le_div_iff_mul_le (Nat.two_pow_pos _)).mpr ?_
    rw [← pow_add, ← hlog]
    exact Nat.log2_self_le hzero

/-- The rounded mantissa is nearest to the number that the mantissa stands for. -/
lemma nearest_shifted {a : Accuracy} {q : ℚ}
    (hmarks : Marks (ExtendedMantissa.ofMantissaAndAccuracy m a) q) :
    Nearest (q * 2 ^ e) (shifted m a (places m e) * 2 ^ (e + places m e)) := by
  have hshift := hmarks.shiftRight (places m e)
  have hfull : 2 ^ 52 ≤ q / 2 ^ places m e ∨ e + places m e = -1074 := by
    refine (le_div_places hdigits).imp_left fun hfull => ?_
    have hle := hshift.le
    rw [mantissa_shiftRight, mantissa_ofMantissaAndAccuracy] at hle
    exact le_trans (by exact_mod_cast hfull) hle
  have hnearest := nearest_of_grid hfull (by exact_mod_cast hshift.abs_sub_le)
  rwa [mul_two_zpow_add (q / 2 ^ places m e), div_mul_cancel₀ _ (by positivity),
    Int.cast_natCast] at hnearest

end Digits

/-- Rounding a mantissa that stands for the number `q`.  The mantissa must have all the digits that
a double can hold. -/
lemma nearestTo_roundWithAccuracy (sign : Sign) (m : Nat) (e : Int) (a : Accuracy) {q : ℚ}
    (hmarks : Marks (ExtendedMantissa.ofMantissaAndAccuracy m a) q) (hpos : 0 < q)
    (hdigits : 2 ^ 52 ≤ m ∨ e ≤ -1074) :
    NearestTo (directed sign q * 2 ^ e) (roundWithAccuracy Format.binary64 sign m e a) := by
  intro hbound
  rw [directed_mul, abs_directed sign (by positivity)] at hbound
  have hplaces := add_places hdigits
  have hfits := shifted_places_le hdigits a
  have hfull := (le_div_places hdigits).imp_left fun h => h.trans (le_shifted m a _)
  have hnearest := nearest_shifted hdigits hmarks
  have hvalue := hnearest.le (representable_two_pow 1023) hbound
  have hcap : ∀ d : Nat, 2 ^ d ≤ shifted m a (places m e) → e + places m e + d ≤ 1023 := by
    intro d hd
    have htop := add_le_of_mul_two_zpow_le (by exact_mod_cast hd) hvalue
    omega
  rw [roundWithAccuracy_eq sign m e a hfits (by omega), directed_mul]
  split
  next hlt =>
    -- the mantissa fits, and no place above it is touched
    constructor
    · refine canonical_assemble sign hlt (by omega) ?_ hfull
      rcases hfull with hnormal | hleast
      · have htop := hcap 52 hnormal
        omega
      · omega
    · rw [amount_assemble, directed_signed, directed_mul]
      exact ⟨_, rfl, hnearest.directed sign⟩
  next hnot =>
    -- the mantissa has one digit too many, and the last of them is zero
    have hcarry : shifted m a (places m e) = 2 ^ 53 := by omega
    have htop := hcap 53 hcarry.ge
    constructor
    · exact canonical_assemble sign (by decide) (by omega) (by omega) (.inl le_rfl)
    · rw [amount_assemble, directed_signed, directed_mul]
      refine ⟨_, rfl, ?_⟩
      have hsame : ((2 ^ 52 : Nat) : ℚ) * 2 ^ (e + places m e + 1) =
          shifted m a (places m e) * 2 ^ (e + places m e) := by
        rw [hcarry, zpow_add₀ two_ne_zero (e + places m e) 1]
        push_cast
        ring
      rw [hsame]
      exact hnearest.directed sign

/-! ### The operations -/

/-- A mantissa that is shifted to the left has as many more digits. -/
lemma two_pow_log2_shiftLeft {m : Nat} (k : Nat) (hm : m ≠ 0) : 2 ^ (m.log2 + k) ≤ m <<< k := by
  rw [Nat.shiftLeft_eq, pow_add]
  exact Nat.mul_le_mul_right _ (Nat.log2_self_le hm)

/-- To give a mantissa more digits does not change the number. -/
lemma cast_shiftLeft_mul (m k : Nat) (e : Int) :
    ((m <<< k : Nat) : ℚ) * 2 ^ (e - k) = m * 2 ^ e := by
  rw [Nat.shiftLeft_eq, zpow_sub₀ two_ne_zero, zpow_natCast]
  push_cast
  field_simp

/-- Rounding gives the nearest double. -/
lemma nearestTo_round (sign : Sign) (m : Nat) (e : Int) (hm : 0 < m) :
    NearestTo (directed sign m * 2 ^ e) (UnpackedFloat.round Format.binary64 sign m e) := by
  obtain ⟨k, hk⟩ : ∃ k, k = (e - Format.binary64.targetExponent (totalExponent m e)).toNat :=
    ⟨_, rfl⟩
  have htarget := targetExponent_eq m e
  have hpos : 0 < m <<< k := by
    rw [Nat.shiftLeft_eq]
    positivity
  have hdigits : 2 ^ 52 ≤ m <<< k ∨ e - k ≤ -1074 := by
    by_cases hlast : e - k ≤ -1074
    · exact .inr hlast
    · left
      refine le_trans ?_ (two_pow_log2_shiftLeft k hm.ne')
      exact Nat.pow_le_pow_right (by decide) (by omega)
  have hround := nearestTo_roundWithAccuracy sign (m <<< k) (e - k) .exact (marks_exact _)
    (by exact_mod_cast hpos) hdigits
  rw [directed_mul, cast_shiftLeft_mul, ← directed_mul] at hround
  have hsame : UnpackedFloat.round Format.binary64 sign m e =
      roundWithAccuracy Format.binary64 sign (m <<< k) (e - k) .exact := by
    rw [hk]
    rfl
  rwa [hsame]

/-- A signed mantissa is rounded, and zero is kept. -/
lemma nearestTo_normalize (m : Int) (e : Int) (zero : Sign) :
    NearestTo (m * 2 ^ e) (UnpackedFloat.normalize Format.binary64 m e zero) := by
  unfold UnpackedFloat.normalize
  rcases lt_trichotomy m 0 with hneg | rfl | hpos
  · rw [compare_lt_iff_lt.mpr hneg]
    have hround := nearestTo_round .negative (-m).toNat e (by omega)
    have hcast : (((-m).toNat : Nat) : ℚ) = -m := by
      rw [← Int.cast_natCast, Int.toNat_of_nonneg (by omega)]
      push_cast
      rfl
    rwa [hcast, directed, if_pos (show isNegative .negative = true from rfl), neg_neg] at hround
  · rw [compare_eq_iff_eq.mpr rfl]
    refine nearestTo_self trivial ?_
    simp [amount]
  · rw [compare_gt_iff_gt.mpr hpos]
    have hround := nearestTo_round .positive m.toNat e (by omega)
    have hcast : ((m.toNat : Nat) : ℚ) = m := by
      rw [← Int.cast_natCast, Int.toNat_of_nonneg hpos.le]
    rwa [hcast, directed, if_neg (by decide)] at hround

/-- The unpacked operands of an operation: canonical, and zero or finite with this value. -/
lemma amount_cases {u : UnpackedFloat} {q : ℚ} (h : amount u = some q) :
    (∃ sign, u = .zero sign ∧ q = 0) ∨
      ∃ sign m e hm, u = .finite sign m e hm ∧ q = directed sign m * 2 ^ e := by
  cases u with
  | notANumber => simp [amount] at h
  | infinity sign => simp [amount] at h
  | zero sign => exact .inl ⟨sign, rfl, (Option.some.inj h).symm⟩
  | finite sign m e hm =>
    refine .inr ⟨sign, m, e, hm, rfl, ?_⟩
    rw [← directed_signed]
    exact (Option.some.inj h).symm

/-- A mantissa with a sign, as an integer and as a number. -/
lemma apply_cast (sign : Sign) (m : Nat) :
    ((sign.apply m : Int) : ℚ) = directed sign m := by
  cases sign <;> simp [Sign.apply, directed, isNegative]

/-- A mantissa with a lower exponent stands for the same number. -/
lemma decreaseExponent_cast (m : Nat) (e t : Int) (ht : t ≤ e) :
    ((decreaseExponent m e t).1 : ℚ) * 2 ^ t = m * 2 ^ e := by
  have hvalue := cast_shiftLeft_mul m (e - t).toNat e
  rwa [show e - ((e - t).toNat : Int) = t by omega] at hvalue

/-- Two numbers with a common exponent. -/
lemma directed_decreaseExponent (sign : Sign) (m : Nat) (e t : Int) (ht : t ≤ e) :
    directed sign (decreaseExponent m e t).1 * 2 ^ t = directed sign m * 2 ^ e := by
  rw [directed_mul, decreaseExponent_cast m e t ht, directed_mul]

/-- The sum of doubles is nearest to the sum of their values. -/
lemma nearestTo_add {u v : UnpackedFloat} {p q : ℚ} (hu : Canonical u) (hv : Canonical v)
    (hp : amount u = some p) (hq : amount v = some q) :
    NearestTo (p + q) (UnpackedFloat.add Format.binary64 u v) := by
  obtain ⟨s, rfl, rfl⟩ | ⟨s, m, e, hm, rfl, rfl⟩ := amount_cases hp <;>
    obtain ⟨s', rfl, rfl⟩ | ⟨s', m', e', hm', rfl, rfl⟩ := amount_cases hq
  · refine nearestTo_self (q := 0 + 0) ?_ ?_ <;> simp only [UnpackedFloat.add] <;> split <;>
      simp [Canonical, amount]
  · rw [zero_add]
    exact nearestTo_self hv hq
  · rw [add_zero]
    exact nearestTo_self hu hp
  · have hround := nearestTo_normalize
      (s.apply (decreaseExponent m e (min e e')).1 + s'.apply (decreaseExponent m' e' (min e e')).1)
      (min e e') .positive
    rw [Int.cast_add, apply_cast, apply_cast, add_mul,
      directed_decreaseExponent s m e _ (min_le_left e e'),
      directed_decreaseExponent s' m' e' _ (min_le_right e e')] at hround
    exact hround

/-- The opposite sign is the negative factor. -/
lemma directed_neg (sign : Sign) (q : ℚ) : directed (-sign) q = -directed sign q := by
  cases sign
  · exact (neg_neg q).symm
  · rfl

/-- The opposite is exact. -/
lemma value?_neg {x : Float} {q : ℚ} (h : value? x = some q) : value? (-x) = some (-q) := by
  have hcanonical := canonical_unpack_toModel x
  rw [value?_eq_amount] at h
  obtain ⟨s, hu, rfl⟩ | ⟨s, m, e, hm, hu, rfl⟩ := amount_cases h
  · have hneg : UnpackedFloat.neg x.toModel.unpack = .zero (-s) := by rw [hu]; rfl
    refine (value?_ofModel_pack (UnpackedFloat.neg x.toModel.unpack) ?_).trans ?_
    · rw [hneg]
      trivial
    · rw [hneg, neg_zero]
      rfl
  · have hneg : UnpackedFloat.neg x.toModel.unpack = .finite (-s) m e hm := by rw [hu]; rfl
    refine (value?_ofModel_pack (UnpackedFloat.neg x.toModel.unpack) ?_).trans ?_
    · rw [hu] at hcanonical
      rw [hneg]
      exact hcanonical
    · rw [hneg, ← neg_mul, ← directed_neg]
      simp only [amount, directed_signed]

/-- The difference of doubles is nearest to the difference of their values. -/
lemma nearestTo_sub {u v : UnpackedFloat} {p q : ℚ} (hu : Canonical u) (hv : Canonical v)
    (hp : amount u = some p) (hq : amount v = some q) :
    NearestTo (p - q) (UnpackedFloat.sub Format.binary64 u v) := by
  obtain ⟨s, rfl, rfl⟩ | ⟨s, m, e, hm, rfl, rfl⟩ := amount_cases hp <;>
    obtain ⟨s', rfl, rfl⟩ | ⟨s', m', e', hm', rfl, rfl⟩ := amount_cases hq
  · refine nearestTo_self (q := 0 - 0) ?_ ?_ <;> simp only [UnpackedFloat.sub] <;> split <;>
      simp [Canonical, amount]
  · rw [zero_sub, ← neg_mul, ← directed_neg]
    refine nearestTo_self hv ?_
    simp only [UnpackedFloat.sub, amount, directed_signed]
  · rw [sub_zero]
    exact nearestTo_self hu hp
  · have hround := nearestTo_normalize
      (s.apply (decreaseExponent m e (min e e')).1 - s'.apply (decreaseExponent m' e' (min e e')).1)
      (min e e') .positive
    rw [Int.cast_sub, apply_cast, apply_cast, sub_mul,
      directed_decreaseExponent s m e _ (min_le_left e e'),
      directed_decreaseExponent s' m' e' _ (min_le_right e e')] at hround
    exact hround

/-- The signs of factors are multiplied. -/
lemma directed_mul_directed (s s' : Sign) (p q : ℚ) :
    directed s p * directed s' q = directed (s * s') (p * q) := by
  cases s <;> cases s'
  · exact neg_mul_neg p q
  · exact neg_mul p q
  · exact mul_neg p q
  · rfl

/-- The product of doubles is nearest to the product of their values. -/
lemma nearestTo_mul {u v : UnpackedFloat} {p q : ℚ} (hu : Canonical u) (hv : Canonical v)
    (hp : amount u = some p) (hq : amount v = some q) :
    NearestTo (p * q) (UnpackedFloat.mul Format.binary64 u v) := by
  obtain ⟨s, rfl, rfl⟩ | ⟨s, m, e, hm, rfl, rfl⟩ := amount_cases hp <;>
    obtain ⟨s', rfl, rfl⟩ | ⟨s', m', e', hm', rfl, rfl⟩ := amount_cases hq
  · exact nearestTo_self trivial (by simp [UnpackedFloat.mul, amount])
  · exact nearestTo_self trivial (by simp [UnpackedFloat.mul, amount])
  · exact nearestTo_self trivial (by simp [UnpackedFloat.mul, amount])
  · have hdigits : 2 ^ 52 ≤ m * m' ∨ e + e' ≤ -1074 := by
      rcases hu.2.2.2 with h | h
      · exact .inl (h.trans (Nat.le_mul_of_pos_right m hm'))
      · rcases hv.2.2.2 with h' | h'
        · exact .inl (h'.trans (Nat.le_mul_of_pos_left m' hm))
        · exact .inr (by omega)
    have hround := nearestTo_roundWithAccuracy (s * s') (m * m') (e + e') .exact (marks_exact _)
      (by positivity) hdigits
    have hvalue : directed s m * 2 ^ e * (directed s' m' * 2 ^ e') =
        directed (s * s') ((m * m' : Nat) : ℚ) * 2 ^ (e + e') := by
      rw [mul_mul_mul_comm, directed_mul_directed, ← zpow_add₀ two_ne_zero]
      push_cast
      rfl
    rwa [hvalue]

/-- The signs of a quotient are divided. -/
lemma directed_div_directed (s s' : Sign) (p q : ℚ) :
    directed s p / directed s' q = directed (s / s') (p / q) := by
  cases s <;> cases s'
  · exact neg_div_neg_eq p q
  · exact neg_div q p
  · exact div_neg p
  · rfl

/-- The quotient is computed with enough digits. -/
lemma divCore_digits (m : Nat) (e : Int) (m' : Nat) (e' : Int) (hm : 0 < m) (hm' : 0 < m') :
    2 ^ 52 ≤ (divCore Format.binary64 m e m' e').1 ∨
      (divCore Format.binary64 m e m' e').2.1 ≤ -1074 := by
  have htarget : Format.binary64.targetExponent (totalExponent m e - totalExponent m' e') =
      max ((m.log2 : Int) + e - (m'.log2 + e') - 53) (-1074) := by
    simp only [Format.targetExponent, totalExponent, Format.mantissaBits, Format.minExponent]
    norm_num
    omega
  simp only [divCore, htarget]
  obtain ⟨t, ht⟩ : ∃ t, t = min (e - e') (max ((m.log2 : Int) + e - (m'.log2 + e') - 53) (-1074)) :=
    ⟨_, rfl⟩
  rw [← ht]
  by_cases hlast : t ≤ -1074
  · exact .inr hlast
  · left
    refine (Nat.le_div_iff_mul_le hm').mpr ?_
    calc 2 ^ 52 * m' ≤ 2 ^ 52 * 2 ^ (m'.log2 + 1) :=
          Nat.mul_le_mul_left _ (Nat.lt_log2_self (n := m')).le
      _ = 2 ^ (52 + (m'.log2 + 1)) := (pow_add ..).symm
      _ ≤ 2 ^ (m.log2 + (e - e' - t).toNat) := Nat.pow_le_pow_right (by decide) (by omega)
      _ ≤ m <<< (e - e' - t).toNat := two_pow_log2_shiftLeft _ hm.ne'

/-- The quotient of doubles is nearest to the quotient of their values. -/
lemma nearestTo_div {u v : UnpackedFloat} {p q : ℚ} (hp : amount u = some p)
    (hq : amount v = some q) (hne : q ≠ 0) :
    NearestTo (p / q) (UnpackedFloat.div Format.binary64 u v) := by
  obtain ⟨s', rfl, rfl⟩ | ⟨s', m', e', hm', rfl, rfl⟩ := amount_cases hq
  · exact absurd rfl hne
  obtain ⟨s, rfl, rfl⟩ | ⟨s, m, e, hm, rfl, rfl⟩ := amount_cases hp
  · exact nearestTo_self trivial (by simp [UnpackedFloat.div, amount])
  · obtain ⟨t, ht⟩ : ∃ t, t = min (e - e')
        (Format.binary64.targetExponent (totalExponent m e - totalExponent m' e')) := ⟨_, rfl⟩
    obtain ⟨k, hk⟩ : ∃ k, k = (e - e' - t).toNat := ⟨_, rfl⟩
    have hcore : divCore Format.binary64 m e m' e' =
        (m <<< k / m', t, accuracyOfFraction (m <<< k % m') m') := by
      rw [hk, ht]
      rfl
    have hdigits := divCore_digits m e m' e' hm hm'
    rw [hcore] at hdigits
    have hcast : (0 : ℚ) < m' := by exact_mod_cast hm'
    have hpos : (0 : ℚ) < ((m <<< k : Nat) : ℚ) / m' := by
      rw [Nat.shiftLeft_eq]
      positivity
    have hround := nearestTo_roundWithAccuracy (s / s') (m <<< k / m') t _
      (marks_accuracyOfFraction (m <<< k) hm') hpos hdigits
    have hvalue : directed s m * 2 ^ e / (directed s' m' * 2 ^ e') =
        directed (s / s') (((m <<< k : Nat) : ℚ) / m') * 2 ^ t := by
      have hshift := cast_shiftLeft_mul m k (e - e')
      rw [show e - e' - (k : Int) = t by omega, zpow_sub₀ two_ne_zero] at hshift
      rw [mul_div_mul_comm, directed_div_directed, directed_mul, directed_mul,
        div_mul_eq_mul_div ((m <<< k : Nat) : ℚ), hshift]
      congr 1
      ring
    rw [hvalue]
    simp only [UnpackedFloat.div, hcore]
    exact hround

section Operations

variable {x y : Float} {p q : ℚ}

/-- The sum of doubles is nearest to the sum of their values. -/
theorem isNearest_add (hx : value? x = some p) (hy : value? y = some q) :
    IsNearest (p + q) (x + y) :=
  isNearest_of_nearestTo (nearestTo_add (canonical_unpack_toModel x) (canonical_unpack_toModel y)
    ((value?_eq_amount x).symm.trans hx) ((value?_eq_amount y).symm.trans hy))

/-- The difference of doubles is nearest to the difference of their values. -/
theorem isNearest_sub (hx : value? x = some p) (hy : value? y = some q) :
    IsNearest (p - q) (x - y) :=
  isNearest_of_nearestTo (nearestTo_sub (canonical_unpack_toModel x) (canonical_unpack_toModel y)
    ((value?_eq_amount x).symm.trans hx) ((value?_eq_amount y).symm.trans hy))

/-- The product of doubles is nearest to the product of their values. -/
theorem isNearest_mul (hx : value? x = some p) (hy : value? y = some q) :
    IsNearest (p * q) (x * y) :=
  isNearest_of_nearestTo (nearestTo_mul (canonical_unpack_toModel x) (canonical_unpack_toModel y)
    ((value?_eq_amount x).symm.trans hx) ((value?_eq_amount y).symm.trans hy))

/-- The quotient of doubles is nearest to the quotient of their values. -/
theorem isNearest_div (hx : value? x = some p) (hy : value? y = some q) (hne : q ≠ 0) :
    IsNearest (p / q) (x / y) :=
  isNearest_of_nearestTo (nearestTo_div ((value?_eq_amount x).symm.trans hx)
    ((value?_eq_amount y).symm.trans hy) hne)

/-- A sum that is rounded passes neither zero nor a power of two. -/
theorem rounds_add (hx : value? x = some p) (hy : value? y = some q) : Rounds (p + q) (x + y) :=
  (isNearest_add hx hy).rounds

/-- A difference that is rounded passes neither zero nor a power of two. -/
theorem rounds_sub (hx : value? x = some p) (hy : value? y = some q) : Rounds (p - q) (x - y) :=
  (isNearest_sub hx hy).rounds

/-- A product that is rounded passes neither zero nor a power of two. -/
theorem rounds_mul (hx : value? x = some p) (hy : value? y = some q) : Rounds (p * q) (x * y) :=
  (isNearest_mul hx hy).rounds

/-- A quotient that is rounded passes neither zero nor a power of two. -/
theorem rounds_div (hx : value? x = some p) (hy : value? y = some q) (hne : q ≠ 0) :
    Rounds (p / q) (x / y) :=
  (isNearest_div hx hy hne).rounds

end Operations

/-! ### Finite results -/

/-- What has no value has none when it is packed. -/
lemma value?_ofModel_pack_of_none {u : UnpackedFloat} (h : amount u = none) :
    value? (.ofModel (.pack u)) = none := by
  cases u with
  | notANumber => exact value?_ofModel_pack .notANumber trivial
  | infinity sign => exact value?_ofModel_pack (.infinity sign) trivial
  | zero sign => simp [amount] at h
  | finite sign m e hm => simp [amount] at h

/-- A sum with an infinity or a NaN has no value. -/
lemma amount_add_of_none {u v : UnpackedFloat} (h : amount u = none ∨ amount v = none) :
    amount (UnpackedFloat.add Format.binary64 u v) = none := by
  cases u <;> cases v <;> simp [amount] at h <;> simp only [UnpackedFloat.add] <;>
    (try split) <;> rfl

/-- A difference with an infinity or a NaN has no value. -/
lemma amount_sub_of_none {u v : UnpackedFloat} (h : amount u = none ∨ amount v = none) :
    amount (UnpackedFloat.sub Format.binary64 u v) = none := by
  cases u <;> cases v <;> simp [amount] at h <;> simp only [UnpackedFloat.sub] <;>
    (try split) <;> rfl

/-- A quotient of an infinity or a NaN has no value. -/
lemma amount_div_of_none {u v : UnpackedFloat} (h : amount u = none) :
    amount (UnpackedFloat.div Format.binary64 u v) = none := by
  cases u <;> cases v <;> simp [amount] at h <;> rfl

/-- What is not finite unless both terms are, is finite only where both are. -/
lemma finite_of_none_imp {x y z : Float} {q : ℚ}
    (hnone : value? x = none ∨ value? y = none → value? z = none) (h : value? z = some q) :
    (∃ p, value? x = some p) ∧ ∃ p, value? y = some p := by
  rw [← Option.ne_none_iff_exists', ← Option.ne_none_iff_exists', ← not_or]
  intro hterms
  exact absurd ((hnone hterms).symm.trans h) (Option.some_ne_none q).symm

/-- A finite sum has finite terms. -/
lemma finite_of_add {x y : Float} {q : ℚ} (h : value? (x + y) = some q) :
    (∃ p, value? x = some p) ∧ ∃ p, value? y = some p := by
  refine finite_of_none_imp (fun hnone => ?_) h
  rw [value?_eq_amount x, value?_eq_amount y] at hnone
  exact value?_ofModel_pack_of_none (amount_add_of_none hnone)

/-- A difference that is finite is one of finite doubles. -/
lemma finite_of_sub {x y : Float} {q : ℚ} (h : value? (x - y) = some q) :
    (∃ p, value? x = some p) ∧ ∃ p, value? y = some p := by
  refine finite_of_none_imp (fun hnone => ?_) h
  rw [value?_eq_amount x, value?_eq_amount y] at hnone
  exact value?_ofModel_pack_of_none (amount_sub_of_none hnone)

/-- A finite quotient has a finite dividend. -/
lemma finite_of_div {x y : Float} {q : ℚ} (h : value? (x / y) = some q) :
    ∃ p, value? x = some p := by
  rw [value?_eq_amount x, ← Option.ne_none_iff_exists']
  intro hnone
  rw [show value? (x / y) = none from value?_ofModel_pack_of_none (amount_div_of_none hnone)] at h
  exact absurd h (by simp)

/-- Doubles are less than `2 ^ 1024`. -/
lemma abs_lt_of_value? {x : Float} {q : ℚ} (h : value? x = some q) : |q| < 2 ^ 1024 := by
  rw [value?_eq_amount] at h
  have hcanonical := canonical_unpack_toModel x
  obtain ⟨sign, -, rfl⟩ | ⟨sign, m, e, hm, hu, rfl⟩ := amount_cases h
  · simp
  · rw [hu] at hcanonical
    obtain ⟨hmantissa, -, hhigh, -⟩ := hcanonical
    rw [directed_mul, abs_directed sign (by positivity)]
    have hcast : (m : ℚ) < 2 ^ 53 := by exact_mod_cast hmantissa
    calc (m : ℚ) * 2 ^ e < 2 ^ 53 * 2 ^ e := by gcongr
      _ ≤ 2 ^ 53 * 2 ^ ((971 : Nat) : Int) := by
        gcongr
        · norm_num
        · exact_mod_cast hhigh
      _ = 2 ^ 1024 := by
        rw [zpow_natCast, ← pow_add]

end Double

end PenRover
