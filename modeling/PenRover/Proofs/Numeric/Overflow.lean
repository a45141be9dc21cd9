import PenRover.Proofs.Numeric.Quotient

/-!
# Integers beyond the doubles

An integer has no nearest double exactly from `2 ^ 1024 - 2 ^ 970` on, in both directions
(`Double.ofInt?_eq_none_iff`): this is half a unit of the last place above the greatest double, and
the tie goes up, since the mantissa of the greatest double is odd (`Double.lt_roundDiv_iff`).
-/

namespace PenRover

namespace Double

/-- A quotient is rounded above an odd number from half a unit above it on. -/
lemma lt_roundDiv_iff {num den k : Nat} (hden : 0 < den) (hk : k % 2 = 1) :
    k < roundDiv num den ↔ (2 * k + 1) * den ≤ 2 * num := by
  have hdivide : den * (num / den) + num % den = num := Nat.div_add_mod num den
  have hrest : num % den < den := Nat.mod_lt num hden
  unfold roundDiv
  generalize num % den = rest at *
  generalize num / den = whole at *
  dsimp only
  rcases lt_trichotomy whole k with hlt | rfl | hgt
  · -- the quotient is at most `k`, and not half a unit above it
    have hbelow : den * (whole + 1) ≤ den * k := Nat.mul_le_mul_left den hlt
    have hnum : ¬ (2 * k + 1) * den ≤ 2 * num := by
      have hexpand : (2 * k + 1) * den = 2 * (den * k) + den := by ring
      rw [Nat.mul_add, Nat.mul_one] at hbelow
      omega
    refine iff_of_false ?_ hnum
    have hparity := Nat.mod_lt whole two_pos
    split_ifs <;> omega
  · have hexpand : (2 * whole + 1) * den = 2 * (den * whole) + den := by ring
    rw [hexpand]
    split_ifs <;> omega
  · have habove : den * (k + 1) ≤ den * whole := Nat.mul_le_mul_left den hgt
    have hnum : (2 * k + 1) * den ≤ 2 * num := by
      have hexpand : (2 * k + 1) * den = 2 * (den * k) + den := by ring
      rw [Nat.mul_add, Nat.mul_one] at habove
      omega
    refine iff_of_true ?_ hnum
    split_ifs <;> omega

/-- The double of a quotient is finite when its pattern is below that of the infinity. -/
lemma isFinite_ofQuotient_iff (negative : Bool) {num den : Nat} (hnum : 0 < num) (hden : 0 < den) :
    isFinite (ofQuotient negative num den) = true ↔ nearestBits num den < 2047 * 2 ^ 52 := by
  have hcap : nearestBits num den ≤ 2047 * 2 ^ 52 := min_le_right _ _
  have hview : view (ofQuotient negative num den) =
      viewBits (nearestBits num den + if negative then 2 ^ 63 else 0) := by
    unfold ofQuotient
    have hword : nearestBits num den + (if negative then 2 ^ 63 else 0) < 2 ^ 64 := by
      split <;> omega
    rw [if_neg (by omega), view_ofBits, UInt64.toNat_ofNat_of_lt' hword]
  unfold isFinite
  rw [hview]
  rcases hcap.lt_or_eq with hlt | heq
  · have hfields := viewBits_of_fields negative (by omega : nearestBits num den / 2 ^ 52 < 2047)
      (Nat.mod_lt (nearestBits num den) (Nat.two_pow_pos 52))
    rw [Nat.div_add_mod'] at hfields
    rw [hfields]
    refine iff_of_true ?_ hlt
    split_ifs <;> rfl
  · rw [heq]
    refine iff_of_false ?_ (lt_irrefl _)
    cases negative <;> decide

/-- The mantissa of an integer whose last place is a whole number. -/
lemma nearestMantissa_of_lastPlace {m k : Nat} (h : lastPlace m 1 = k) :
    nearestMantissa m 1 = roundDiv m (2 ^ k) := by
  unfold nearestMantissa
  rw [h]
  simp only [scaleDown, one_mul]

/-- A power of two is compared with a natural number as a natural number. -/
lemma zpow_two_le_iff {m : Nat} (k : Nat) : (2 : ℚ) ^ (k : Int) ≤ m ↔ 2 ^ k ≤ m := by
  rw [zpow_natCast]
  exact_mod_cast Iff.rfl

/-- The powers of two around the bound, counted in halves of a unit of the greatest last place. -/
lemma two_pow_top (half : Nat) (h : half = 2 ^ 970) :
    0 < half ∧ 2 ^ 971 = 2 * half ∧ 2 ^ 1023 = 2 ^ 53 * half ∧ 2 ^ 1024 = 2 ^ 54 * half := by
  rw [show 1023 = 53 + 970 from rfl, show 1024 = 54 + 970 from rfl, pow_add, pow_add, pow_succ', h]
  exact ⟨pow_pos two_pos 970, rfl, rfl, rfl⟩

/-- Where the pattern of an integer reaches that of the infinity. -/
lemma nearestBits_lt_iff {m half : Nat} (hhalf : half = 2 ^ 970) (hm : 2 ^ 53 * half ≤ m) :
    nearestBits m 1 < 2047 * 2 ^ 52 ↔ m < (2 ^ 54 - 1) * half := by
  obtain ⟨hhalfpos, hunit, hbelow, htop⟩ := two_pow_top half hhalf
  have hpos : 0 < m := by omega
  obtain ⟨hlow, hhigh⟩ := binaryExponent_spec hpos Nat.one_pos
  rw [Nat.cast_one, div_one] at hlow hhigh
  have hbig : (2 : ℚ) ^ ((1023 : Nat) : Int) ≤ m := (zpow_two_le_iff 1023).mpr (hbelow ▸ hm)
  have hleast : 1023 ≤ binaryExponent m 1 :=
    Int.lt_add_one_iff.mp ((zpow_lt_zpow_iff_right₀ one_lt_two).mp (hbig.trans_lt hhigh))
  obtain ⟨-, hfull⟩ := nearestMantissa_bounds hpos Nat.one_pos
  rw [nearestBits_eq, min_lt_iff, or_iff_left (lt_irrefl _)]
  rcases hleast.eq_or_lt with hexponent | hexponent
  · have hlast : lastPlace m 1 = (971 : Nat) := by
      unfold lastPlace
      rw [← hexponent]
      rfl
    have hmantissa : nearestMantissa m 1 = roundDiv m (2 * half) := by
      rw [nearestMantissa_of_lastPlace hlast, hunit]
    have hround : 2 ^ 53 - 1 < roundDiv m (2 * half) ↔
        (2 * (2 ^ 53 - 1) + 1) * (2 * half) ≤ 2 * m :=
      lt_roundDiv_iff (by omega) (by norm_num)
    rw [hlast, hmantissa]
    omega
  · have hlast : 972 ≤ lastPlace m 1 := by
      unfold lastPlace
      omega
    have hbeyond : 2 ^ 54 * half ≤ m := by
      rw [← htop]
      exact (zpow_two_le_iff 1024).mp ((zpow_le_zpow_right₀ one_lt_two.le hexponent).trans hlow)
    refine iff_of_false ?_ ?_ <;> omega

/-- An integer has no nearest double when it is beyond half a unit above the greatest one. -/
theorem ofInt?_eq_none_iff {n : Int} : ofInt? n = none ↔ 2 ^ 1024 - 2 ^ 970 ≤ n.natAbs := by
  obtain ⟨half, hhalf⟩ : ∃ half, half = 2 ^ 970 := ⟨_, rfl⟩
  obtain ⟨hhalfpos, -, hbelow, htop⟩ := two_pow_top half hhalf
  have hbound : 2 ^ 1024 - 2 ^ 970 = (2 ^ 54 - 1) * half := by
    rw [htop, ← hhalf]
    omega
  rw [hbound]
  by_cases hsmall : n.natAbs < 2 ^ 53 * half
  · have habs : |(n : ℚ)| ≤ 2 ^ 1023 := by
      rw [← Int.cast_abs, Int.abs_eq_natAbs, Int.cast_natCast]
      rw [← hbelow] at hsmall
      exact_mod_cast hsmall.le
    obtain ⟨x, r, hx, -⟩ := ofInt?_nearest habs
    rw [hx]
    refine iff_of_false (by simp) ?_
    omega
  · have hbig := not_lt.mp hsmall
    have hpos : 0 < n.natAbs := by omega
    have hfinite := (isFinite_ofQuotient_iff (decide (n < 0)) hpos Nat.one_pos).trans
      (nearestBits_lt_iff hhalf hbig)
    simp only [ofInt?]
    by_cases hlt : n.natAbs < (2 ^ 54 - 1) * half
    · rw [if_pos (hfinite.mpr hlt)]
      exact iff_of_false (by simp) (not_le.mpr hlt)
    · rw [if_neg (mt hfinite.mp hlt)]
      exact iff_of_true rfl (not_lt.mp hlt)

end Double

end PenRover
