import PenRover.Proofs.Numeric.Decimals

/-!
# The order of doubles

Finite doubles are ordered by exponent first and then by mantissa.  This is the order of their
values, because a mantissa has all the digits that there is room for (`compare_form`).  So the order
of two finite doubles is that of their values, and a double is given by its value, except that there
are two zeros (`eq_of_value?`).  With the comparison of a double and an integer, which is exact too,
every comparison of numbers is one of their values (`Number.compare?_eq`).
-/

namespace PenRover

namespace Double

open Float.Model Float.Model.UnpackedFloat

/-! ### Finite doubles -/

section Forms

variable {m m' : Nat} {e e' : Int}

/-- Of two forms the one with the smaller exponent is the smaller number. -/
lemma lt_of_exponent_lt (h : HasForm m e) (h' : HasForm m' e') (hlt : e < e') :
    (m : ℚ) * 2 ^ e < m' * 2 ^ e' := by
  have hdigits : (m : ℚ) < 2 ^ 53 := by exact_mod_cast h.digits
  have hleast := h.least
  have hfull : (2 ^ 52 : ℚ) ≤ m' := by exact_mod_cast h'.full.resolve_right (by omega)
  calc (m : ℚ) * 2 ^ e < 2 ^ 53 * 2 ^ e := by gcongr
    _ = 2 ^ 52 * 2 ^ (e + 1) := by
      rw [zpow_add_one₀ two_ne_zero]
      ring
    _ ≤ m' * 2 ^ e' := by
      gcongr
      · norm_num
      · omega

/-- Doubles are compared by their exponents first, and then by their mantissas. -/
lemma compare_form (h : HasForm m e) (h' : HasForm m' e') :
    compare ((m : ℚ) * 2 ^ e) (m' * 2 ^ e') = (compare e e').then (compare m m') := by
  rcases lt_trichotomy e e' with hlt | rfl | hgt
  · rw [compare_lt_iff_lt.mpr hlt, compare_lt_iff_lt.mpr (lt_of_exponent_lt h h' hlt)]
    rfl
  · have hpos : (0 : ℚ) < 2 ^ e := by positivity
    rw [compare_eq_iff_eq.mpr rfl, Ordering.then, ← cmp_eq_compare, cmp_mul_pos_right hpos,
      Nat.strictMono_cast.cmp_map_eq, cmp_eq_compare]
  · rw [compare_gt_iff_gt.mpr hgt, compare_gt_iff_gt.mpr (lt_of_exponent_lt h' h hgt)]
    rfl

end Forms

/-- A canonical double has the form of one. -/
lemma Canonical.hasForm {sign : Sign} {m : Nat} {e : Int} {hm : 0 < m}
    (h : Canonical (.finite sign m e hm)) : HasForm m e :=
  ⟨h.1, h.2.1, h.2.2.1, h.2.2.2⟩

/-- Negative numbers are compared the other way round. -/
lemma compare_neg_neg (p q : ℚ) : compare (-p) (-q) = (compare p q).swap := by
  have hneg : StrictAnti fun x : ℚ => -x := fun _ _ h => neg_lt_neg h
  rw [← cmp_eq_compare, ← cmp_eq_compare, cmp_swap]
  exact hneg.cmp_map_eq p q

/-- The negative sign is a factor of minus one. -/
lemma directed_negative (q : ℚ) : directed .negative q = -q := rfl

/-- The positive sign is a factor of one. -/
lemma directed_positive (q : ℚ) : directed .positive q = q := rfl

/-- Unpacked doubles are compared as their values. -/
lemma compare_unpacked {u v : UnpackedFloat} {p q : ℚ} (hu : Canonical u) (hv : Canonical v)
    (hp : amount u = some p) (hq : amount v = some q) :
    UnpackedFloat.compare u v = some (compare p q) := by
  have hpositive (m : Nat) (e : Int) (hm : 0 < m) : (0 : ℚ) < m * 2 ^ e := by positivity
  obtain ⟨s, rfl, rfl⟩ | ⟨s, m, e, hm, rfl, rfl⟩ := amount_cases hp <;>
    obtain ⟨s', rfl, rfl⟩ | ⟨s', m', e', hm', rfl, rfl⟩ := amount_cases hq
  · rw [compare_eq_iff_eq.mpr rfl]
    rfl
  · have hpos := hpositive m' e' hm'
    cases s'
    · rw [directed_mul, directed_negative, compare_gt_iff_gt.mpr (neg_lt_zero.mpr hpos)]
      rfl
    · rw [directed_mul, directed_positive, compare_lt_iff_lt.mpr hpos]
      rfl
  · have hpos := hpositive m e hm
    cases s
    · rw [directed_mul, directed_negative, compare_lt_iff_lt.mpr (neg_lt_zero.mpr hpos)]
      rfl
    · rw [directed_mul, directed_positive, compare_gt_iff_gt.mpr hpos]
      rfl
  · have hpos := hpositive m e hm
    have hpos' := hpositive m' e' hm'
    have hforms := compare_form hu.hasForm hv.hasForm
    simp only [directed_mul]
    cases s <;> cases s' <;> simp only [directed_negative, directed_positive]
    · rw [compare_neg_neg, hforms]
      rfl
    · rw [compare_lt_iff_lt.mpr ((neg_lt_zero.mpr hpos).trans hpos')]
      rfl
    · rw [compare_gt_iff_gt.mpr ((neg_lt_zero.mpr hpos').trans hpos)]
      rfl
    · rw [hforms]
      rfl

/-! ### The order and the identity of doubles -/

section Values

variable {x y : Float} {p q : ℚ}

/-- Doubles are compared by their values. -/
lemma compare_toModel (hx : value? x = some p) (hy : value? y = some q) :
    UnpackedFloat.compare x.toModel.unpack y.toModel.unpack = some (compare p q) :=
  compare_unpacked (canonical_unpack_toModel x) (canonical_unpack_toModel y)
    ((value?_eq_amount x).symm.trans hx) ((value?_eq_amount y).symm.trans hy)

/-- A double is less than another when its value is. -/
lemma lt_iff_value?_lt (hx : value? x = some p) (hy : value? y = some q) : x < y ↔ p < q := by
  have hmodel : x < y ↔ UnpackedFloat.lt x.toModel.unpack y.toModel.unpack = true :=
    decide_eq_true_iff
  rw [hmodel, UnpackedFloat.lt, compare_toModel hx hy, beq_iff_eq, Option.some_inj,
    compare_lt_iff_lt]

/-- Doubles are equal when their values are. -/
lemma beq_eq_decide (hx : value? x = some p) (hy : value? y = some q) :
    (x == y) = decide (p = q) := by
  change (UnpackedFloat.compare x.toModel.unpack y.toModel.unpack == some .eq) = _
  rw [compare_toModel hx hy, Bool.eq_iff_iff, beq_iff_eq, Option.some_inj, compare_eq_iff_eq,
    decide_eq_true_iff]

/-- The magnitude of a number determines its form. -/
lemma HasForm.eq_of_value {m m' : Nat} {e e' : Int} (h : HasForm m e) (h' : HasForm m' e')
    (heq : (m : ℚ) * 2 ^ e = m' * 2 ^ e') : m = m' ∧ e = e' := by
  have hforms := compare_form h h'
  rw [compare_eq_iff_eq.mpr heq, eq_comm, Ordering.then_eq_eq, compare_eq_iff_eq,
    compare_eq_iff_eq] at hforms
  exact hforms.symm

/-- A double that is not zero is given by its value. -/
theorem eq_of_value? (hx : value? x = some q) (hy : value? y = some q) (hne : q ≠ 0) : x = y := by
  obtain ⟨negative, m, e, hview, hvalue⟩ := exists_view_of_value? hx
  obtain ⟨negative', m', e', hview', hvalue'⟩ := exists_view_of_value? hy
  have hm : (0 : ℚ) ≤ m * 2 ^ e := by positivity
  have hm' : (0 : ℚ) ≤ m' * 2 ^ e' := by positivity
  -- the sign is that of the value, and what is left is the magnitude
  obtain ⟨rfl, hmagnitude⟩ : negative = negative' ∧ (m : ℚ) * 2 ^ e = m' * 2 ^ e' := by
    rcases lt_or_gt_of_ne hne with hneg | hpos <;> cases negative <;> cases negative' <;>
      simp only [signed_true, signed_false, Int.cast_neg, Int.cast_natCast, neg_mul]
        at hvalue hvalue' <;> first | exact ⟨rfl, by linarith⟩ | linarith
  obtain ⟨rfl, rfl⟩ := (hasForm_of_view hview).eq_of_value (hasForm_of_view hview') hmagnitude
  exact eq_of_view_finite hview hview'

end Values

end Double

/-! ### Comparisons of numbers -/

namespace Number

open Double

variable {a b : Number} {p q : ℚ}

/-- Numbers are compared as their values, integers and doubles alike. -/
theorem compare?_eq (ha : a.value? = some p) (hb : b.value? = some q) :
    compare? a b = some (compare p q) := by
  cases a with
  | int m =>
    obtain rfl : (m : ℚ) = p := Option.some.inj ha
    cases b with
    | int n =>
      obtain rfl : (n : ℚ) = q := Option.some.inj hb
      exact congrArg some (compare_intCast m n).symm
    | double y =>
      change (compareInt y m).map Ordering.swap = _
      rw [compareInt_eq hb, Option.map_some, ← Std.OrientedOrd.eq_swap]
  | double x =>
    cases b with
    | int n =>
      obtain rfl : (n : ℚ) = q := Option.some.inj hb
      exact compareInt_eq ha n
    | double y =>
      simp only [compare?, lt_iff_value?_lt ha hb, lt_iff_value?_lt hb ha, beq_eq_decide ha hb,
        decide_eq_true_eq]
      rcases lt_trichotomy p q with hlt | rfl | hgt
      · rw [if_pos hlt, compare_lt_iff_lt.mpr hlt]
      · rw [if_neg (lt_irrefl p), if_pos rfl, compare_eq_iff_eq.mpr rfl]
      · rw [if_neg hgt.not_gt, if_neg hgt.ne', if_pos hgt, compare_gt_iff_gt.mpr hgt]

/-- A number is less than another when its value is. -/
lemma lt_eq_decide (ha : a.value? = some p) (hb : b.value? = some q) :
    Number.lt a b = decide (p < q) := by
  rw [Number.lt, compare?_eq ha hb, Bool.eq_iff_iff, beq_iff_eq, Option.some_inj,
    compare_lt_iff_lt, decide_eq_true_iff]

/-- A number is at most another when its value is. -/
lemma le_eq_decide (ha : a.value? = some p) (hb : b.value? = some q) :
    Number.le a b = decide (p ≤ q) := by
  rw [Number.le, compare?_eq ha hb, Bool.eq_iff_iff, Bool.or_eq_true, beq_iff_eq, beq_iff_eq,
    Option.some_inj, Option.some_inj, compare_lt_iff_lt, compare_eq_iff_eq, decide_eq_true_iff,
    le_iff_lt_or_eq]

/-- Of two numbers the second is below the first unless the first is not above it. -/
lemma lt_eq_not_le (ha : a.value? = some p) (hb : b.value? = some q) :
    Number.lt b a = !Number.le a b := by
  rw [lt_eq_decide hb ha, le_eq_decide ha hb, Bool.eq_iff_iff, Bool.not_eq_true',
    decide_eq_true_iff, decide_eq_false_iff_not, not_le]

end Number

end PenRover
