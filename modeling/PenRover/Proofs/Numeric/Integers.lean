import PenRover.Proofs.Numeric.Order

/-!
# Integers as doubles

An integer with at most fifty-three digits is a double, and as long as results have no more digits
than that, sums, differences and squares of such doubles are those of the integers: not only their
values are, but the doubles themselves (`ofInt_add_ofInt`, `ofInt_sub_ofInt`, `ofInt_mul_self`).  A
double that is not zero is given by its value; of a result that is zero the sign has to be watched,
and it is positive for a sum of opposite numbers and for a difference of equal ones.
-/

namespace PenRover

namespace Double

open Float.Model Float.Model.UnpackedFloat

/-! ### The double of an integer -/

section Exact

variable {x : Float} {n : Int}

/-- An integer of at most 53 bits has no more digits than a double can hold. -/
lemma representable_intCast (h : |n| ≤ 2 ^ 53) : Representable n :=
  ⟨n, 0, h, by norm_num, by simp⟩

/-- A result that is an integer is exact. -/
lemma IsNearest.value?_eq (hx : IsNearest n x) (h : |n| ≤ 2 ^ 53) : value? x = some (n : ℚ) := by
  have hfits : |(n : ℚ)| ≤ 2 ^ 53 := by exact_mod_cast h
  obtain ⟨r, hr, hnearest⟩ := hx (two_pow_le_of_le (by norm_num) hfits)
  rwa [hnearest.eq (representable_intCast h)] at hr

end Exact

/-- A natural number of at most 53 bits keeps its value as a double. -/
lemma value?_ofNat {n : Nat} (h : n < 2 ^ 53) : value? (Float.ofNat n) = some (n : ℚ) := by
  have hword : n.toUInt64.toNat = n := UInt64.toNat_ofNat_of_lt' (h.trans (by decide))
  have hfits : |(n : Int)| ≤ 2 ^ 53 := by
    rw [Nat.abs_cast]
    exact_mod_cast h.le
  -- the word is converted, and multiplied by the zeroth power of ten
  have hproduct : Float.ofNat n =
      n.toUInt64.toFloat * Float.exactlyRepresentablePowersOfTen[0] := by
    change Float.ofScientific n false 0 = _
    rw [Float.ofScientific, dif_pos ⟨h, by decide⟩]
    rfl
  have hconvert : IsNearest (n : Int) n.toUInt64.toFloat := by
    have hround := nearestTo_normalize n.toUInt64.toNat 0 .positive
    rw [zpow_zero, mul_one, hword] at hround
    refine isNearest_of_nearestTo (u := UnpackedFloat.ofNat Format.binary64 n.toUInt64.toNat) ?_
    rw [hword]
    exact hround
  have hone : value? Float.exactlyRepresentablePowersOfTen[0] = some 1 := by
    have hview : view Float.exactlyRepresentablePowersOfTen[0] = .finite false (2 ^ 52) (-52) := rfl
    rw [value?_of_view hview]
    norm_num
  have hnearest := isNearest_mul (hconvert.value?_eq hfits) hone
  rw [mul_one] at hnearest
  rw [hproduct]
  exact hnearest.value?_eq hfits

/-- An integer of at most 53 bits keeps its value as a double. -/
lemma value?_ofInt {n : Int} (h : |n| < 2 ^ 53) : value? (Float.ofInt n) = some (n : ℚ) := by
  cases n with
  | ofNat n => exact value?_ofNat (by simpa using h)
  | negSucc n =>
    have hpos := value?_neg (value?_ofNat (n := n + 1) (by grind))
    rw [Int.cast_negSucc]
    exact hpos

/-- A double with the value of an integer other than zero is the double of that integer. -/
lemma eq_ofInt {x : Float} {n : Int} (h : |n| < 2 ^ 53) (hne : n ≠ 0)
    (hx : value? x = some (n : ℚ)) : x = Float.ofInt n :=
  eq_of_value? hx (value?_ofInt h) (by exact_mod_cast hne)

/-- An integer of at most 53 bits has a double, the one that it is converted to. -/
lemma ofInt?_eq_ofInt {n : Int} (h : |n| < 2 ^ 53) : ofInt? n = some (Float.ofInt n) := by
  obtain ⟨x, hx, hvalue⟩ := ofInt?_exact h.le
  by_cases hne : n = 0
  · subst hne
    rfl
  · rw [hx, eq_ofInt h hne hvalue]

/-! ### Exact results -/

/-- A result that is an integer, but not zero, is the double of that integer. -/
lemma IsNearest.eq_ofInt {x : Float} {n : Int} (hx : IsNearest n x) (h : |n| < 2 ^ 53)
    (hne : n ≠ 0) : x = Float.ofInt n :=
  Double.eq_ofInt h hne (hx.value?_eq h.le)

/-- The sum of opposite numbers is the positive zero. -/
lemma add_opposite {u v : UnpackedFloat} {q : ℚ} (hu : amount u = some q)
    (hv : amount v = some (-q)) (hne : q ≠ 0) :
    UnpackedFloat.add Format.binary64 u v = .zero .positive := by
  obtain ⟨s, rfl, rfl⟩ | ⟨s, m, e, hm, rfl, hq⟩ := amount_cases hu
  · exact absurd rfl hne
  obtain ⟨s', rfl, hq'⟩ | ⟨s', m', e', hm', rfl, hq'⟩ := amount_cases hv
  · exact absurd (neg_eq_zero.mp hq') hne
  have hsum : s.apply (decreaseExponent m e (min e e')).1 +
      s'.apply (decreaseExponent m' e' (min e e')).1 = 0 := by
    have hplace : (2 : ℚ) ^ min e e' ≠ 0 := by positivity
    have hzero := add_neg_cancel q
    rw [hq', hq, ← directed_decreaseExponent s m e _ (min_le_left e e'),
      ← directed_decreaseExponent s' m' e' _ (min_le_right e e'), ← add_mul, ← apply_cast,
      ← apply_cast, ← Int.cast_add] at hzero
    exact_mod_cast (mul_eq_zero.mp hzero).resolve_right hplace
  simp only [UnpackedFloat.add]
  rw [hsum]
  rfl

/-- The difference of a number and itself is the positive zero. -/
lemma sub_same {u : UnpackedFloat} {q : ℚ} (hu : amount u = some q) :
    UnpackedFloat.sub Format.binary64 u u = .zero .positive := by
  obtain ⟨s, rfl, -⟩ | ⟨s, m, e, hm, rfl, -⟩ := amount_cases hu
  · cases s <;> rfl
  · simp only [UnpackedFloat.sub, sub_self]
    rfl

variable {m n : Int}

/-- Doubles of integers are added exactly while the sum has at most 53 bits. -/
theorem ofInt_add_ofInt (hm : |m| < 2 ^ 53) (hn : |n| < 2 ^ 53) (h : |m + n| < 2 ^ 53) :
    Float.ofInt m + Float.ofInt n = Float.ofInt (m + n) := by
  have hvalue := value?_ofInt hm
  have hvalue' := value?_ofInt hn
  by_cases hzero : m + n = 0
  · obtain rfl : n = -m := by omega
    rw [hzero]
    by_cases hne : m = 0
    · subst hne
      rfl
    · rw [value?_eq_amount, Int.cast_neg] at hvalue'
      exact congrArg (fun u => Float.ofModel (.pack u)) (add_opposite
        ((value?_eq_amount _).symm.trans hvalue) hvalue' (by exact_mod_cast hne))
  · have hnearest := isNearest_add hvalue hvalue'
    rw [← Int.cast_add] at hnearest
    exact hnearest.eq_ofInt h hzero

/-- Doubles of integers are subtracted exactly while the difference has at most 53 bits. -/
theorem ofInt_sub_ofInt (hm : |m| < 2 ^ 53) (hn : |n| < 2 ^ 53) (h : |m - n| < 2 ^ 53) :
    Float.ofInt m - Float.ofInt n = Float.ofInt (m - n) := by
  have hvalue := value?_ofInt hm
  by_cases hzero : m - n = 0
  · obtain rfl : m = n := by omega
    rw [hzero]
    exact congrArg (fun u => Float.ofModel (.pack u))
      (sub_same ((value?_eq_amount _).symm.trans hvalue))
  · have hnearest := isNearest_sub hvalue (value?_ofInt hn)
    rw [← Int.cast_sub] at hnearest
    exact hnearest.eq_ofInt h hzero

/-- The double of an integer is squared exactly while the square has at most 53 bits. -/
theorem ofInt_mul_self (hm : |m| < 2 ^ 53) (h : |m * m| < 2 ^ 53) :
    Float.ofInt m * Float.ofInt m = Float.ofInt (m * m) := by
  by_cases hzero : m = 0
  · subst hzero
    rfl
  · have hvalue := value?_ofInt hm
    have hnearest := isNearest_mul hvalue hvalue
    rw [← Int.cast_mul] at hnearest
    exact hnearest.eq_ofInt h (mul_ne_zero hzero hzero)

end Double

end PenRover
