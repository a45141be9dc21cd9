import PenRover.Proofs.Numeric.Quotient

/-!
# Bounds on the arc cosine

The arc cosine is computed in fixed point.  Nothing here says that it is right; the rest of the
library needs only that there is one for every number from `-1` to `1`, and that it is not negative
and at most four.  Each term of its series is at most half of the one before, so the sum is at most
twice the first term, and its root is less than the circle constant, from which it is subtracted
for a negative cosine.
-/

namespace PenRover

namespace Circular

/-- The terms of the arc tangent never grow and take turns being added and subtracted, so no tail is
below zero or above its first term. -/
lemma arctanTail_bounds (square fuel n term : Nat) :
    0 ≤ arctanTail square fuel n term ∧
      arctanTail square fuel n term ≤ (term / (2 * n + 1) : Nat) := by
  induction fuel generalizing n term with
  | zero => exact ⟨le_rfl, Int.natCast_nonneg _⟩
  | succ fuel ih =>
    rw [arctanTail]
    split
    · exact ⟨le_rfl, Int.natCast_nonneg _⟩
    · obtain ⟨hlow, hhigh⟩ := ih (n + 1) (term / square)
      have hnext : term / square / (2 * (n + 1) + 1) ≤ term / (2 * n + 1) :=
        Nat.div_le_div (Nat.div_le_self _ _) (by omega) (by omega)
      constructor <;> omega

/-- The circle constant, as it is computed, is between two and four. -/
lemma pi_bounds (bits : Nat) : 2 * 2 ^ bits ≤ pi bits ∧ pi bits ≤ 4 * 2 ^ bits := by
  have hpow : 2 ^ (bits + 32) = 2 ^ bits * 2 ^ 32 := pow_add 2 bits 32
  have hpos := Nat.two_pow_pos bits
  have hfive := (arctanTail_bounds (5 * 5) (bits + 32) 0 (2 ^ (bits + 32) / 5)).2
  have hlarge := arctanTail_bounds (239 * 239) (bits + 32) 0 (2 ^ (bits + 32) / 239)
  -- of the series for a fifth also the second term counts
  have hsecond := (arctanTail_bounds (5 * 5) (bits + 31) 1 (2 ^ (bits + 32) / 5 / (5 * 5))).2
  have hfirst : arctanTail (5 * 5) (bits + 32) 0 (2 ^ (bits + 32) / 5) =
      ((2 ^ (bits + 32) / 5 / (2 * 0 + 1) : Nat) : Int) -
        arctanTail (5 * 5) (bits + 31) 1 (2 ^ (bits + 32) / 5 / (5 * 5)) := by
    rw [arctanTail, if_neg (by omega)]
  simp only [pi, arctanInverse]
  omega

/-- Each term is at most half of the one before. -/
lemma two_mul_next_term_le {bits versine : Nat} (n term : Nat) (h : versine ≤ 2 ^ bits) :
    2 * (term * versine * (n * n) / (2 ^ bits * ((n + 1) * (2 * n + 1)))) ≤ term := by
  have hsquare : 2 * (n * n) ≤ (n + 1) * (2 * n + 1) := by nlinarith
  have hproduct : 2 * (term * versine * (n * n)) ≤
      term * (2 ^ bits * ((n + 1) * (2 * n + 1))) := by
    calc 2 * (term * versine * (n * n)) = term * versine * (2 * (n * n)) := by ring
      _ ≤ term * 2 ^ bits * ((n + 1) * (2 * n + 1)) := by gcongr
      _ = term * (2 ^ bits * ((n + 1) * (2 * n + 1))) := by ring
  refine (Nat.mul_div_le_mul_div_assoc 2 _ _).trans (Nat.div_le_of_le_mul ?_)
  rwa [Nat.mul_comm _ term]

/-- The tail of the series is at most twice its first term. -/
lemma angleTail_le {bits versine : Nat} (h : versine ≤ 2 ^ bits) (fuel n term : Nat) :
    angleTail bits versine fuel n term ≤ 2 * term := by
  induction fuel generalizing n term with
  | zero => exact Nat.zero_le _
  | succ fuel ih =>
    rw [angleTail]
    split
    · exact Nat.zero_le _
    · have hnext := two_mul_next_term_le n term h
      have htail := ih (n + 1) (term * versine * (n * n) / (2 ^ bits * ((n + 1) * (2 * n + 1))))
      omega

/-- The approximation of an arc cosine is from zero to two of its units. -/
lemma acosFixed_bounds (bits mantissa : Nat) (exponent : Int) :
    0 ≤ acosFixed mantissa exponent bits ∧ acosFixed mantissa exponent bits ≤ 2 * 2 ^ bits := by
  refine ⟨Int.natCast_nonneg _, ?_⟩
  obtain ⟨v, hv⟩ : ∃ v, v = 2 ^ bits - (Double.scaleDown mantissa 1 (-(exponent + bits))).1 /
      (Double.scaleDown mantissa 1 (-(exponent + bits))).2 := ⟨_, rfl⟩
  have hle : v ≤ 2 ^ bits := by
    rw [hv]
    exact Nat.sub_le _ _
  have hsum : angleTail bits v (2 * bits) 1 v ≤ 2 * 2 ^ bits :=
    (angleTail_le hle _ _ _).trans (Nat.mul_le_mul_left _ hle)
  have hroot : (2 * angleTail bits v (2 * bits) 1 v * 2 ^ bits).sqrt ≤ 2 * 2 ^ bits := by
    calc (2 * angleTail bits v (2 * bits) 1 v * 2 ^ bits).sqrt
        ≤ (2 * 2 ^ bits * (2 * 2 ^ bits)).sqrt := Nat.sqrt_le_sqrt (by nlinarith)
      _ = 2 * 2 ^ bits := Nat.sqrt_eq _
  have hfixed : acosFixed mantissa exponent bits =
      ((2 * angleTail bits v (2 * bits) 1 v * 2 ^ bits).sqrt : Nat) := by
    rw [hv]
    rfl
  rw [hfixed]
  exact_mod_cast hroot

/-- The double nearest to a fixed-point number rounds it. -/
lemma rounds_ofFixed (bits : Nat) (y : Int) :
    Double.Rounds ((y : ℚ) / 2 ^ bits) (ofFixed bits y) := by
  have hsigned : Double.signed (decide (y < 0)) y.natAbs = y := by
    unfold Double.signed
    split
    next h =>
      have := of_decide_eq_true h
      omega
    next h =>
      have := of_decide_eq_false (Bool.eq_false_iff.mpr h)
      omega
  have hround := Double.rounds_ofQuotient (decide (y < 0)) y.natAbs (Nat.two_pow_pos bits)
  rw [hsigned, Nat.cast_pow, Nat.cast_ofNat] at hround
  exact hround

/-- The settled value is the rounding of an approximation, or that of two at once, of one without
the slack and of one with it. -/
lemma settle_induction {motive : Float → Prop} {approximate : Nat → Int} {slack : Nat}
    {places : List Nat} (hne : places ≠ [])
    (hexact : ∀ bits ∈ places, motive (ofFixed bits (approximate bits)))
    (hboth : ∀ bits ∈ places, ofFixed bits (approximate bits - slack) =
      ofFixed bits (approximate bits + slack) → motive (ofFixed bits (approximate bits - slack))) :
    motive (settle approximate slack places) := by
  induction places with
  | nil => exact absurd rfl hne
  | cons bits more ih =>
    cases more with
    | nil => exact hexact bits (List.mem_singleton.mpr rfl)
    | cons next more =>
      simp only [settle]
      split
      next heq => exact hboth bits List.mem_cons_self (Double.eq_of_toBits_eq heq)
      · exact ih (by simp) (fun b hb => hexact b (List.mem_cons_of_mem _ hb))
          (fun b hb => hboth b (List.mem_cons_of_mem _ hb))

end Circular

namespace Double

open Circular

/-- The double of a fixed-point number keeps a bound of it, and its side of zero. -/
lemma ofFixed_bounds (bits : Nat) {n : Nat} (hn : n ≤ 1023) {y : Int}
    (h : |y| ≤ 2 ^ n * 2 ^ bits) :
    ∃ q, value? (ofFixed bits y) = some q ∧ q ≤ 2 ^ n ∧ (0 ≤ y → 0 ≤ q) := by
  have hplace : (0 : ℚ) < 2 ^ bits := by positivity
  have hbound : |(y : ℚ) / 2 ^ bits| ≤ 2 ^ n := by
    rw [abs_div, abs_of_pos hplace, div_le_iff₀ hplace]
    exact_mod_cast h
  obtain ⟨q, hq, hkeeps⟩ := rounds_ofFixed bits y n hn hbound
  exact ⟨q, hq, (abs_le.mp hkeeps.le).2, fun hy =>
    hkeeps.nonneg (div_nonneg (by exact_mod_cast hy) hplace.le)⟩

/-- What settles between approximations up to four, and is not below zero, is such a number. -/
lemma settle_bounds {approximate : Nat → Int} {slack : Nat} {places : List Nat} (hne : places ≠ [])
    (hbounds : ∀ bits ∈ places, 0 ≤ approximate bits ∧ approximate bits ≤ 4 * 2 ^ bits)
    (hslack : ∀ bits ∈ places, (slack : Int) ≤ 2 ^ bits) :
    ∃ q, value? (settle approximate slack places) = some q ∧ 0 ≤ q ∧ q ≤ 2 ^ 2 := by
  refine settle_induction (motive := fun x => ∃ q, value? x = some q ∧ 0 ≤ q ∧ q ≤ 2 ^ 2) hne
    (fun bits hbits => ?_) (fun bits hbits heq => ?_)
  all_goals
    obtain ⟨hlow, hhigh⟩ := hbounds bits hbits
    have hfine := hslack bits hbits
    have hpow : (0 : Int) < 2 ^ bits := by positivity
    generalize approximate bits = y at *
  · obtain ⟨q, hq, hle, hnonneg⟩ := ofFixed_bounds bits (y := y) (n := 2) (by decide)
      (abs_le.mpr ⟨by linarith, by linarith⟩)
    exact ⟨q, hq, hnonneg hlow, hle⟩
  · -- the double is that of a number below four, and also of one that is not negative
    obtain ⟨q, hq, hle, -⟩ := ofFixed_bounds bits (y := y - slack) (n := 2) (by decide)
      (abs_le.mpr ⟨by linarith, by linarith⟩)
    obtain ⟨q', hq', -, hnonneg⟩ := ofFixed_bounds bits (y := y + slack) (n := 3) (by decide)
      (abs_le.mpr ⟨by linarith, by linarith⟩)
    rw [← heq, hq] at hq'
    obtain rfl := Option.some.inj hq'
    exact ⟨q, hq, hnonneg (by linarith), hle⟩

/-- The angle settles on a number that is not negative and at most four. -/
lemma settle_acos_bounds (negative : Bool) (m : Nat) (e : Int) :
    ∃ q, value? (settle (fun bits =>
        let y := acosFixed m e bits
        if negative then (Circular.pi bits : Int) - y else y) (2 ^ 40) precisions) = some q ∧
      0 ≤ q ∧ q ≤ 2 ^ 2 := by
  have hfinest : ∀ bits ∈ precisions, 40 ≤ bits := by decide
  refine settle_bounds (by decide) (fun bits _ => ?_) (fun bits hbits => ?_)
  · obtain ⟨hlow, hhigh⟩ := acosFixed_bounds bits m e
    have hpi : (2 * 2 ^ bits : Int) ≤ Circular.pi bits ∧
        (Circular.pi bits : Int) ≤ 4 * 2 ^ bits := by exact_mod_cast pi_bounds bits
    have hpow : (0 : Int) < 2 ^ bits := by positivity
    dsimp only
    split <;> constructor <;> linarith
  · rw [Nat.cast_pow]
    exact pow_le_pow_right₀ (by norm_num) (hfinest bits hbits)

/-- The arc cosine is not negative and at most four, if it is defined. -/
theorem acos_bounds {x : Float} {q : ℚ} (hq : value? (acos x) = some q) : 0 ≤ q ∧ q ≤ 2 ^ 2 := by
  have hundefined : value? (0 / 0 : Float) = none := by
    have hview : view (0 / 0 : Float) = .nan := rfl
    simp only [value?, hview]
  unfold acos at hq
  split at hq
  next negative m e hview =>
    split at hq
    · rw [hundefined] at hq
      simp at hq
    · split at hq
      · have hzero : view (0 : Float) = .finite false 0 (-1074) := rfl
        rw [value?_of_view hzero] at hq
        obtain rfl := Option.some.inj hq
        norm_num
      · obtain ⟨p, hp, hbounds⟩ := settle_acos_bounds negative m e
        obtain rfl : p = q := Option.some.inj (hp.symm.trans hq)
        exact hbounds
  next => rw [hundefined] at hq; simp at hq

/-- A number from `-1` to `1` has an arc cosine. -/
theorem exists_value?_acos {x : Float} {q : ℚ} (hx : value? x = some q) (hq : |q| ≤ 1) :
    ∃ p, value? (acos x) = some p := by
  obtain ⟨negative, m, e, hview, rfl⟩ := exists_view_of_value? hx
  have hmagnitude : compareFinite false m e 1 ≠ .gt := by
    rw [compareFinite_eq, Ne, compare_gt_iff_gt, not_lt]
    have hone : (0 : ℚ) ≤ m * 2 ^ e := by positivity
    cases negative <;> simpa [signed, abs_of_nonneg hone] using hq
  unfold acos
  rw [hview]
  dsimp only
  rw [if_neg hmagnitude]
  split
  · have hzero : view (0 : Float) = .finite false 0 (-1074) := rfl
    exact ⟨_, value?_of_view hzero⟩
  · obtain ⟨p, hp, -⟩ := settle_acos_bounds negative m e
    exact ⟨p, hp⟩

end Double

end PenRover
