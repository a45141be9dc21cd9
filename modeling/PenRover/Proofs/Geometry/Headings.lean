import PenRover.Drawing.Plan
import PenRover.Proofs.Numeric.Acos
import PenRover.Proofs.Numeric.Order

/-!
# Headings and turns stay in range

The heading of the robot is brought into one turn after every command, but with rounded operations
it is not obvious that this works for very large angles.  What is true for all of them is weaker and
is enough: headings are never negative and never above `2 ^ 1019`, and turns are never negative and
never above `2 ^ 1022`.  From there on no operation on a turn can leave the range of doubles, so the
number of quarter turns can always be computed (`quarterTurns_of_isTurn`).

A heading that is kept is brought into one turn again and again.  It does not grow, because what is
subtracted from a heading that is not negative is not negative either.
-/

namespace PenRover

open Arithmetic

/-- A double with a value in this range. -/
def Number.InRange (low high : ℚ) (a : Number) : Prop :=
  ∃ x q, a = .double x ∧ Double.value? x = some q ∧ low ≤ q ∧ q ≤ high

/-- A range may be made wider. -/
lemma Number.InRange.mono {low low' high high' : ℚ} {a : Number} (h : a.InRange low high)
    (hlow : low' ≤ low) (hhigh : high ≤ high') : a.InRange low' high' := by
  obtain ⟨x, q, rfl, hq, hl, hh⟩ := h
  exact ⟨x, q, rfl, hq, hlow.trans hl, hh.trans hhigh⟩

/-- A rounded number is in the range that a power of two gives the exact one. -/
lemma Double.Rounds.inRange {q : ℚ} {x : Float} (h : Double.Rounds q x) {n : Nat} (hn : n ≤ 1023)
    (hq : |q| ≤ 2 ^ n) : (Number.double x).InRange (-2 ^ n) (2 ^ n) := by
  obtain ⟨r, hr, hkeeps⟩ := h n hn hq
  exact ⟨x, r, rfl, hr, (abs_le.mp hkeeps.le).1, (abs_le.mp hkeeps.le).2⟩

/-- Rounding does not pass a power of two, to either side of zero. -/
lemma Double.Rounds.abs_le {q r : ℚ} {x : Float} (h : Double.Rounds q x) {n : Nat} (hn : n ≤ 1023)
    (hq : |q| ≤ 2 ^ n) (hr : Double.value? x = some r) : |r| ≤ 2 ^ n := by
  obtain ⟨r', hr', hkeeps⟩ := h n hn hq
  obtain rfl : r' = r := Option.some.inj (hr'.symm.trans hr)
  exact hkeeps.le

/-- Rounding down does not pass a power of two. -/
lemma abs_floor_le {r : ℚ} {n : Nat} (h : |r| ≤ 2 ^ n) : |(⌊r⌋ : ℚ)| ≤ 2 ^ n := by
  obtain ⟨hlow, hhigh⟩ := abs_le.mp h
  have hfloor : -(2 ^ n : Int) ≤ ⌊r⌋ := Int.le_floor.mpr (by push_cast; exact hlow)
  have hfloor' : -(2 ^ n : ℚ) ≤ ⌊r⌋ := by exact_mod_cast hfloor
  exact abs_le.mpr ⟨hfloor', (Int.floor_le r).trans hhigh⟩

/-! ### The constants -/

/-- The double nearest to a full turn, exactly. -/
lemma value?_fullTurn : Double.value? 6.283185307179586 = some (7074237752028440 / 2 ^ 50) := by
  have hview : Double.view 6.283185307179586 = .finite false 7074237752028440 (-50) := rfl
  rw [Double.value?_of_view hview]
  norm_num

/-- The double nearest to half a turn, exactly. -/
lemma value?_halfTurn : Double.value? 3.141592653589793 = some (7074237752028440 / 2 ^ 51) := by
  have hview : Double.view 3.141592653589793 = .finite false 7074237752028440 (-51) := rfl
  rw [Double.value?_of_view hview]
  norm_num

/-- One half is a double. -/
lemma value?_half : Double.value? 0.5 = some (1 / 2) := by
  have hview : Double.view 0.5 = .finite false (2 ^ 52) (-53) := rfl
  rw [Double.value?_of_view hview]
  norm_num

/-- The tolerance is positive. -/
lemma exists_value?_tolerance : ∃ q, Double.value? 0.001 = some q ∧ 0 < q := by
  have hview : Double.view 0.001 = .finite false 4611686018427388 (-62) := rfl
  exact ⟨_, Double.value?_of_view hview, by norm_num⟩

/-- Zero is in every range that starts with it. -/
lemma inRange_whole_zero (high : ℚ) (h : 0 ≤ high) : (whole 0 : Number).InRange 0 high := by
  have hview : Double.view (Float.ofInt 0) = .finite false 0 (-1074) := rfl
  exact ⟨_, 0, rfl, by rw [Double.value?_of_view hview]; simp, le_rfl, h⟩

/-! ### Bringing an angle into one turn -/

/-- A number of full turns as an angle. -/
lemma mul_fullTurn_eq_ok {n : Int} {product : Number}
    (h : Number.mul (.int n) fullTurn = .ok product) :
    ∃ y, (Number.int n).toDouble = .ok y ∧ product = .double (y * 6.283185307179586) := by
  have hmul : Number.mul (.int n) fullTurn =
      (Number.int n).toDouble >>= fun y => .ok (.double (y * 6.283185307179586)) := rfl
  obtain ⟨y, hy, hproduct⟩ := bind_eq_ok.mp (hmul.symm.trans h)
  exact ⟨y, hy, (Except.ok.inj hproduct).symm⟩

/-- An angle that was brought into one turn is what whole turns leave of it, unless that is within
the tolerance and counts as zero. -/
lemma normalizeAngle_eq_ok {angle result : Number} (h : normalizeAngle angle = .ok result) :
    ∃ quotient turns product rest, Number.div angle fullTurn = .ok quotient ∧
      quotient.floor = .ok turns ∧ Number.mul (.int turns) fullTurn = .ok product ∧
      Number.sub angle product = .ok rest ∧
      result = if Number.lt tolerance rest then rest else whole 0 := by
  unfold normalizeAngle at h
  rw [bind_eq_ok] at h
  obtain ⟨quotient, hquotient, h⟩ := h
  rw [bind_eq_ok] at h
  obtain ⟨turns, hturns, h⟩ := h
  rw [bind_eq_ok] at h
  obtain ⟨product, hproduct, h⟩ := h
  rw [bind_eq_ok] at h
  obtain ⟨rest, hrest, h⟩ := h
  exact ⟨quotient, turns, product, rest, hquotient, hturns, hproduct, hrest,
    (Except.ok.inj h).symm⟩

/-- What is left of an angle is a double. -/
lemma normalizeAngle_double {angle result : Number} (h : normalizeAngle angle = .ok result) :
    ∃ x, result = .double x := by
  obtain ⟨-, turns, product, rest, -, -, hmul, hsub, rfl⟩ := normalizeAngle_eq_ok h
  obtain ⟨y, -, rfl⟩ := mul_fullTurn_eq_ok hmul
  split
  · cases angle with
    | double a => exact ⟨_, (Except.ok.inj hsub).symm⟩
    | int n =>
      have hdifference : Number.sub (.int n) (.double (y * 6.283185307179586)) =
          (Number.int n).toDouble >>= fun z => .ok (.double (z - y * 6.283185307179586)) := rfl
      obtain ⟨z, -, hz⟩ := bind_eq_ok.mp (hdifference.symm.trans hsub)
      exact ⟨_, (Except.ok.inj hz).symm⟩
  · exact ⟨_, rfl⟩

/-- Only a finite angle can be brought into one turn. -/
lemma finite_of_normalizeAngle {a : Float} {result : Number}
    (h : normalizeAngle (.double a) = .ok result) : ∃ q, Double.value? a = some q := by
  obtain ⟨quotient, turns, -, -, hdiv, hfloor, -⟩ := normalizeAngle_eq_ok h
  obtain rfl : Number.double (a / 6.283185307179586) = quotient := Except.ok.inj hdiv
  obtain ⟨q, hq, -⟩ := Number.value?_of_floor hfloor
  exact Double.finite_of_div hq

/-- The full turns in an angle come to an angle of about its size, and of an angle that is not
negative to one that is not negative. -/
lemma normalizeAngle_turns {a : Float} {q : ℚ} {result : Number} {n : Nat} (hn : n + 3 ≤ 1023)
    (ha : Double.value? a = some q) (hq : |q| ≤ 2 ^ (n + 2))
    (h : normalizeAngle (.double a) = .ok result) :
    ∃ y r, Double.value? y = some r ∧ |r| ≤ 2 ^ (n + 3) ∧ (0 ≤ q → 0 ≤ r) ∧
      result = if Number.lt tolerance (.double (a - y)) then .double (a - y) else whole 0 := by
  obtain ⟨quotient, turns, product, rest, hdiv, hfloor, hmul, hsub, rfl⟩ := normalizeAngle_eq_ok h
  have hturn : (0 : ℚ) < 7074237752028440 / 2 ^ 50 := by norm_num
  obtain rfl : Number.double (a / 6.283185307179586) = quotient := Except.ok.inj hdiv
  have hquotient : |q / (7074237752028440 / 2 ^ 50)| ≤ 2 ^ n := by
    rw [abs_div, abs_of_pos hturn, div_le_iff₀ hturn]
    have hfour : (2 : ℚ) ^ (n + 2) ≤ 2 ^ n * (7074237752028440 / 2 ^ 50) := by
      rw [pow_add]
      gcongr
      norm_num
    exact hq.trans hfour
  obtain ⟨r₁, hr₁, hkeeps₁⟩ := Double.rounds_div ha value?_fullTurn hturn.ne' n (by omega) hquotient
  obtain rfl : ⌊r₁⌋ = turns := by
    rw [Number.floor_eq (a := .double _) hr₁] at hfloor
    exact Except.ok.inj hfloor
  obtain ⟨x, r₂, hx, hr₂, hkeeps₂⟩ :=
    Number.toDouble_of_abs_le (a := .int ⌊r₁⌋) rfl (by omega : n ≤ 1023) (abs_floor_le hkeeps₁.le)
  obtain ⟨y, hy, rfl⟩ := mul_fullTurn_eq_ok hmul
  obtain rfl : x = y := Except.ok.inj (hx.symm.trans hy)
  have hproduct : |r₂ * (7074237752028440 / 2 ^ 50)| ≤ 2 ^ (n + 3) := by
    rw [abs_mul, abs_of_pos hturn, pow_add]
    have hcount := hkeeps₂.le
    gcongr
    norm_num
  obtain ⟨r₃, hr₃, hkeeps₃⟩ := Double.rounds_mul hr₂ value?_fullTurn (n + 3) hn hproduct
  obtain rfl : Number.double (a - x * 6.283185307179586) = rest := Except.ok.inj hsub
  refine ⟨_, r₃, hr₃, hkeeps₃.le, fun hpos => ?_, rfl⟩
  have hturns : 0 ≤ ⌊r₁⌋ := Int.floor_nonneg.mpr (hkeeps₁.nonneg (by positivity))
  have hcount := hkeeps₂.nonneg (by exact_mod_cast hturns)
  exact hkeeps₃.nonneg (by positivity)

/-- What is left when `y` is subtracted is at least none and not above any number that the exact
difference is not above. -/
lemma inRange_rest {a y : Float} {q p v : ℚ} (ha : Double.value? a = some q)
    (hy : Double.value? y = some p) (hwide : |q - p| ≤ 2 ^ 1023) (hv : Double.Representable v)
    (hv₀ : 0 ≤ v) (hle : q - p ≤ v) :
    Number.InRange 0 v
      (if Number.lt tolerance (.double (a - y)) then .double (a - y) else whole 0) := by
  obtain ⟨r, hr, hnearest⟩ := Double.isNearest_sub ha hy hwide
  split
  next hlt =>
    obtain ⟨t, ht, htpos⟩ := exists_value?_tolerance
    have hbelow : t < r := of_decide_eq_true
      ((Number.lt_eq_decide (a := tolerance) (b := .double (a - y)) ht hr).symm.trans hlt)
    exact ⟨_, r, rfl, hr, (htpos.trans hbelow).le, hnearest.le hv hle⟩
  next => exact inRange_whole_zero v hv₀

/-- What is left of an angle is not negative and not much larger than the angle; of an angle that is
not negative nothing larger is left. -/
lemma normalizeAngle_inRange {a : Float} {q : ℚ} {result : Number} {m k : Nat} (hm : 2 ≤ m)
    (hk : k = m + 2) (hk' : k ≤ 1023) (ha : Double.value? a = some q) (hq : |q| ≤ 2 ^ m)
    (h : normalizeAngle (.double a) = .ok result) :
    result.InRange 0 (2 ^ k) ∧ (0 ≤ q → result.InRange 0 (2 ^ m)) := by
  subst hk
  obtain ⟨n, rfl⟩ : ∃ n, m = n + 2 := ⟨m - 2, by omega⟩
  obtain ⟨y, r, hr, hbound, hnonneg, rfl⟩ := normalizeAngle_turns (by omega) ha hq h
  have hsum : |q - r| ≤ 2 ^ (n + 4) := by
    have htriangle := abs_sub q r
    have hpow : (2 : ℚ) ^ (n + 4) = 2 ^ (n + 2) + 2 ^ (n + 2) + 2 ^ (n + 3) := by ring
    have hpos : (0 : ℚ) < 2 ^ (n + 2) := by positivity
    linarith
  have hwide := Double.two_pow_le_of_le hk' hsum
  refine ⟨inRange_rest ha hr hwide (Double.representable_two_pow _) (by positivity)
    (abs_le.mp hsum).2, fun hq₀ => ?_⟩
  -- nothing that is negative was subtracted
  exact inRange_rest ha hr hwide (Double.representable_two_pow _) (by positivity)
    (by linarith [(abs_le.mp hq).2, hnonneg hq₀])

/-! ### Angles that are computed -/

/-- The double is small if it is finite. -/
def Number.SmallIfFinite (n : Nat) (a : Number) : Prop :=
  ∃ x, a = .double x ∧ ∀ q, Double.value? x = some q → |q| ≤ 2 ^ n

/-- A bound on a finite double may be raised. -/
lemma Number.SmallIfFinite.mono {n m : Nat} {a : Number} (h : a.SmallIfFinite n) (hm : n ≤ m) :
    a.SmallIfFinite m := by
  obtain ⟨x, rfl, hx⟩ := h
  exact ⟨x, rfl, fun q hq => (hx q hq).trans (pow_le_pow_right₀ (by norm_num) hm)⟩

/-- The double is in this range if it is finite. -/
def Number.WithinIfFinite (low high : ℚ) (a : Number) : Prop :=
  ∃ x, a = .double x ∧ ∀ q, Double.value? x = some q → low ≤ q ∧ q ≤ high

/-- An arc cosine is from zero to four. -/
lemma withinIfFinite_acos {c phi : Number} (h : Number.acos c = .ok phi) :
    phi.WithinIfFinite 0 (2 ^ 2) := by
  unfold Number.acos Number.circular at h
  rw [bind_eq_ok] at h
  obtain ⟨x, -, h⟩ := h
  split at h
  · simp [throw, throwThe, MonadExceptOf.throw] at h
  next hnan =>
    refine ⟨x, (Except.ok.inj h).symm, fun q hq => ?_⟩
    simp [Double.value?, hnan] at hq
  · exact ⟨Double.acos x, (Except.ok.inj h).symm, fun q hq => Double.acos_bounds hq⟩

/-- The degrees of a circle are a double. -/
lemma value?_circle : Double.value? 360.0 = some 360 := by
  have hview : Double.view 360.0 = .finite false 6333186975989760 (-44) := rfl
  rw [Double.value?_of_view hview]
  norm_num

/-- An angle in degrees, in radians. -/
lemma radiansOfDegrees_eq_ok {degrees : Int} {phi : Number}
    (h : radiansOfDegrees (.int degrees) = .ok phi) :
    ∃ y, (Number.int degrees).toDouble = .ok y ∧
      phi = .double (y * 6.283185307179586 / 360.0) := by
  unfold radiansOfDegrees at h
  rw [bind_eq_ok] at h
  obtain ⟨product, hproduct, h⟩ := h
  obtain ⟨y, hy, rfl⟩ := mul_fullTurn_eq_ok hproduct
  have hcircle : (Number.int 360).toDouble = .ok 360.0 := rfl
  have hdiv : Number.div (.double (y * 6.283185307179586)) (.int 360) =
      (Number.int 360).toDouble >>= fun z => .ok (.double (y * 6.283185307179586 / z)) := rfl
  have hphi := hdiv.symm.trans h
  rw [hcircle] at hphi
  exact ⟨y, hy, (Except.ok.inj hphi).symm⟩

/-- Any degrees are small in radians, if they are within the doubles at all. -/
lemma smallIfFinite_radiansOfDegrees {degrees : Int} {phi : Number}
    (h : radiansOfDegrees (.int degrees) = .ok phi) : phi.SmallIfFinite 1016 := by
  obtain ⟨y, -, rfl⟩ := radiansOfDegrees_eq_ok h
  refine ⟨_, rfl, fun q hq => ?_⟩
  obtain ⟨p, hp⟩ := Double.finite_of_div hq
  have hbound : |p / 360| ≤ 2 ^ 1016 := by
    have hlt := Double.abs_lt_of_value? hp
    rw [abs_div, abs_of_pos (by norm_num : (0 : ℚ) < 360), div_le_iff₀ (by norm_num)]
    refine hlt.le.trans ?_
    rw [show (1024 : Nat) = 1016 + 8 from rfl, pow_add]
    gcongr
    norm_num
  exact (Double.rounds_div hp value?_circle (by norm_num)).abs_le (by norm_num) hbound hq

/-- Moderate degrees are moderate in radians. -/
lemma smallIfFinite_radiansOfDegrees_of_abs_le {degrees : Int} {phi : Number}
    (hdegrees : |degrees| ≤ 2 ^ 53) (h : radiansOfDegrees (.int degrees) = .ok phi) :
    phi.SmallIfFinite 48 := by
  obtain ⟨y, hy, rfl⟩ := radiansOfDegrees_eq_ok h
  refine ⟨_, rfl, fun q hq => ?_⟩
  have hbound : |(degrees : ℚ)| ≤ 2 ^ 53 := by exact_mod_cast hdegrees
  obtain ⟨x, d, hx, hd, hkeeps⟩ :=
    Number.toDouble_of_abs_le (a := .int degrees) rfl (by norm_num : 53 ≤ 1023) hbound
  obtain rfl : x = y := Except.ok.inj (hx.symm.trans hy)
  have hproduct : |d * (7074237752028440 / 2 ^ 50)| ≤ 2 ^ 56 := by
    rw [abs_mul, show (56 : Nat) = 53 + 3 from rfl, pow_add]
    have hsize := hkeeps.le
    gcongr
    norm_num [abs_of_pos]
  obtain ⟨r, hr, hkeeps'⟩ := Double.rounds_mul hd value?_fullTurn 56 (by norm_num) hproduct
  have hquotient : |r / 360| ≤ 2 ^ 48 := by
    rw [abs_div, abs_of_pos (by norm_num : (0 : ℚ) < 360), div_le_iff₀ (by norm_num)]
    refine hkeeps'.le.trans ?_
    norm_num
  exact (Double.rounds_div hr value?_circle (by norm_num)).abs_le (by norm_num) hquotient hq

/-- The length of a vector is the root of a sum of squares, and its direction an arc cosine that may
be reflected, or zero. -/
lemma toPolar_eq_ok {dx dy phi r : Number} (h : toPolar dx dy = .ok (phi, r)) :
    (∃ xx yy sum, Number.mul dx dx = .ok xx ∧ Number.mul dy dy = .ok yy ∧
      Number.add xx yy = .ok sum ∧ Number.sqrt sum = .ok r) ∧
      (phi = whole 0 ∨ ∃ cosine angle, Number.acos cosine = .ok angle ∧
        (phi = angle ∨ Number.sub fullTurn angle = .ok phi)) := by
  unfold toPolar at h
  obtain ⟨xx, hxx, h⟩ := bind_eq_ok.mp h
  obtain ⟨yy, hyy, h⟩ := bind_eq_ok.mp h
  obtain ⟨sum, hsum, h⟩ := bind_eq_ok.mp h
  obtain ⟨length, hlength, h⟩ := bind_eq_ok.mp h
  split at h
  · obtain ⟨_, -, h⟩ := bind_eq_ok.mp h
    obtain ⟨_, -, h⟩ := bind_eq_ok.mp h
    obtain ⟨_, -, h⟩ := bind_eq_ok.mp h
    obtain ⟨_, -, h⟩ := bind_eq_ok.mp h
    obtain ⟨_, -, h⟩ := bind_eq_ok.mp h
    obtain ⟨cosine, -, h⟩ := bind_eq_ok.mp h
    obtain ⟨angle, hangle, h⟩ := bind_eq_ok.mp h
    split at h
    · obtain ⟨reflected, hreflected, h⟩ := bind_eq_ok.mp h
      obtain ⟨rfl, rfl⟩ := Prod.mk.inj (Except.ok.inj h)
      exact ⟨⟨xx, yy, sum, hxx, hyy, hsum, hlength⟩, .inr ⟨_, angle, hangle, .inr hreflected⟩⟩
    · obtain ⟨rfl, rfl⟩ := Prod.mk.inj (Except.ok.inj h)
      exact ⟨⟨xx, yy, sum, hxx, hyy, hsum, hlength⟩, .inr ⟨_, _, hangle, .inl rfl⟩⟩
  · obtain ⟨rfl, rfl⟩ := Prod.mk.inj (Except.ok.inj h)
    exact ⟨⟨xx, yy, sum, hxx, hyy, hsum, hlength⟩, .inl rfl⟩

/-- The direction of a vector is from zero to eight. -/
lemma withinIfFinite_toPolar {dx dy phi r : Number} (h : toPolar dx dy = .ok (phi, r)) :
    phi.WithinIfFinite 0 (2 ^ 3) := by
  obtain ⟨-, rfl | ⟨cosine, angle, hangle, hphi⟩⟩ := toPolar_eq_ok h
  · obtain ⟨x, q, hx, hq, hlow, hhigh⟩ := inRange_whole_zero (2 ^ 3) (by norm_num)
    refine ⟨x, hx, fun v hv => ?_⟩
    obtain rfl : q = v := Option.some.inj (hq.symm.trans hv)
    exact ⟨hlow, hhigh⟩
  · obtain ⟨f, rfl, hwithin⟩ := withinIfFinite_acos hangle
    obtain rfl | hreflected := hphi
    · refine ⟨f, rfl, fun q hq => ⟨(hwithin q hq).1, (hwithin q hq).2.trans ?_⟩⟩
      norm_num
    · obtain rfl : Number.double (6.283185307179586 - f) = phi := Except.ok.inj hreflected
      refine ⟨_, rfl, fun q hq => ?_⟩
      obtain ⟨-, v, hv⟩ := Double.finite_of_sub hq
      obtain ⟨hlow, hhigh⟩ := hwithin v hv
      have hbound : |7074237752028440 / 2 ^ 50 - v| ≤ 2 ^ 3 := by
        rw [abs_le]
        constructor <;> linarith
      obtain ⟨r, hr, hkeeps⟩ := Double.rounds_sub value?_fullTurn hv 3 (by norm_num) hbound
      obtain rfl : r = q := Option.some.inj (hr.symm.trans hq)
      exact ⟨hkeeps.nonneg (by linarith), (abs_le.mp hkeeps.le).2⟩

/-! ### Turns and headings -/

/-- A heading that is in range. -/
def Pose.HeadingInRange (pose : Pose Number) : Prop := pose.heading.InRange 0 (2 ^ 1019)

/-- A turn that is in range. -/
def IsTurn (turn : Number) : Prop := turn.InRange 0 (2 ^ 1022)

/-- The heading at the start is in range. -/
lemma headingInRange_start : (Pose.start : Pose Number).HeadingInRange := by
  have hview : Double.view 1.5707963267948966 = .finite false 7074237752028440 (-52) := rfl
  refine ⟨_, _, rfl, Double.value?_of_view hview, ?_, ?_⟩
  · norm_num
  · have htwo : (2 : ℚ) ^ 1 ≤ 2 ^ 1019 := pow_le_pow_right₀ (by norm_num) (by norm_num)
    refine le_trans ?_ htwo
    norm_num

/-- A pose that was reached has a heading that was brought into one turn. -/
lemma advance_eq_none {pose next : Pose Number} {vector : Number × Number} {heading : Number}
    (h : pose.advance vector heading = (next, none)) :
    normalizeAngle heading = .ok next.heading := by
  unfold Pose.advance at h
  split at h
  · simp at h
  · split at h
    · simp at h
    next moved _ faced hfaced =>
      obtain ⟨rfl, -⟩ := Prod.mk.inj h
      unfold Pose.face at hfaced
      rw [bind_eq_ok] at hfaced
      obtain ⟨normal, hnormal, hfaced⟩ := hfaced
      rw [hnormal, ← Except.ok.inj hfaced]

/-- The difference of two headings, brought into one turn, is a turn. -/
lemma isTurn_of_normalizeAngle {a b : Float} {p q : ℚ} {turn : Number}
    (ha : Double.value? a = some p) (hb : Double.value? b = some q)
    (hbound : |p - q| ≤ 2 ^ 1020) (h : normalizeAngle (.double (a - b)) = .ok turn) :
    IsTurn turn := by
  obtain ⟨r, hr, hkeeps⟩ := Double.rounds_sub ha hb 1020 (by norm_num) hbound
  exact (normalizeAngle_inRange (by norm_num) (by norm_num) (by norm_num) hr hkeeps.le h).1

/-- The displacement along a vector: none, which keeps the heading, or a turn to the direction of
the vector. -/
lemma towards_eq_ok {pose : Pose Number} {dx dy : Number} {displacement : Displacement Number}
    (h : Command.towards pose dx dy = .ok displacement) :
    (displacement.turn = whole 0 ∧ displacement.distance = whole 0 ∧
        displacement.heading = pose.heading) ∨
      ∃ difference, toPolar dx dy = .ok (displacement.heading, displacement.distance) ∧
        Number.sub displacement.heading pose.heading = .ok difference ∧
        normalizeAngle difference = .ok displacement.turn := by
  unfold Command.towards at h
  obtain ⟨⟨phi, r⟩, hpolar, h⟩ := bind_eq_ok.mp h
  dsimp only at h
  split at h
  · obtain rfl := Except.ok.inj h
    exact .inl ⟨rfl, rfl, rfl⟩
  · obtain ⟨difference, hdifference, h⟩ := bind_eq_ok.mp h
    obtain ⟨turn, hturn, h⟩ := bind_eq_ok.mp h
    obtain rfl := Except.ok.inj h
    exact .inr ⟨difference, hpolar, hdifference, hturn⟩

/-- The sum of two small doubles has a bound twice as large. -/
lemma smallIfFinite_add {n : Nat} {a b sum : Number} (ha : a.SmallIfFinite n)
    (hb : b.SmallIfFinite n) (hn : n + 1 ≤ 1023) (h : Number.add a b = .ok sum) :
    sum.SmallIfFinite (n + 1) := by
  obtain ⟨x, rfl, hx⟩ := ha
  obtain ⟨y, rfl, hy⟩ := hb
  obtain rfl : Number.double (x + y) = sum := Except.ok.inj h
  refine ⟨_, rfl, fun q hq => ?_⟩
  obtain ⟨⟨v, hv⟩, w, hw⟩ := Double.finite_of_add hq
  have hbound : |v + w| ≤ 2 ^ (n + 1) := by
    rw [pow_succ, mul_two]
    exact (abs_add_le v w).trans (add_le_add (hx v hv) (hy w hw))
  exact (Double.rounds_add hv hw).abs_le hn hbound hq

/-- The displacement in a direction, which a negative length turns around. -/
lemma along_eq_ok {pose : Pose Number} {angle length : Int} {displacement : Displacement Number}
    (h : Command.along pose angle length = .ok displacement) :
    ∃ x phi direction difference, (Number.int length).toDouble = .ok x ∧
      displacement.distance = .double (if Number.lt (.double x) (.int 0) then -x else x) ∧
      radiansOfDegrees (.int angle) = .ok phi ∧
      (direction = phi ∨ ∃ back, radiansOfDegrees (.int 180) = .ok back ∧
        Number.add phi back = .ok direction) ∧
      normalizeAngle direction = .ok displacement.heading ∧
      Number.sub displacement.heading pose.heading = .ok difference ∧
      normalizeAngle difference = .ok displacement.turn := by
  unfold Command.along at h
  obtain ⟨phi, hphi, h⟩ := bind_eq_ok.mp h
  obtain ⟨r, hr, h⟩ := bind_eq_ok.mp h
  obtain ⟨vector, -, h⟩ := bind_eq_ok.mp h
  obtain ⟨x, hx, hr⟩ := bind_eq_ok.mp hr
  obtain rfl : Number.double x = r := Except.ok.inj hr
  dsimp only at h
  have hdistance : (if below (Number.double x) (exact 0) then Arithmetic.neg (Number.double x)
      else .double x) = .double (if Number.lt (.double x) (.int 0) then -x else x) :=
    (apply_ite Number.double _ _ _).symm
  rw [hdistance] at h
  -- the direction, turned around for a negative length; what follows is the same for both
  obtain ⟨direction, hdirection, h⟩ : ∃ direction : Number,
      (direction = phi ∨ ∃ back, radiansOfDegrees (.int 180) = .ok back ∧
        Number.add phi back = .ok direction) ∧
        (do
          let heading ← normalizeAngle direction
          let turn ← normalizeAngle (← sub heading pose.heading)
          return (⟨turn, .double (if Number.lt (.double x) (.int 0) then -x else x), vector,
            heading⟩ : Displacement Number)) = .ok displacement := by
    split at h
    · obtain ⟨back, hback, h⟩ := bind_eq_ok.mp h
      obtain ⟨direction, hdirection, h⟩ := bind_eq_ok.mp h
      exact ⟨direction, .inr ⟨back, hback, hdirection⟩, h⟩
    · exact ⟨phi, .inl rfl, h⟩
  obtain ⟨heading, hheading, h⟩ := bind_eq_ok.mp h
  obtain ⟨difference, hdifference, h⟩ := bind_eq_ok.mp h
  obtain ⟨turn, hturn, h⟩ := bind_eq_ok.mp h
  obtain rfl := Except.ok.inj h
  exact ⟨x, phi, direction, difference, hx, rfl, hphi, hdirection, hheading, hdifference, hturn⟩

/-- A direction that may have been turned around is hardly larger than it was. -/
lemma smallIfFinite_direction {phi direction : Number} {n : Nat} (hphi : phi.SmallIfFinite n)
    (hn : 48 ≤ n) (hn' : n + 1 ≤ 1023)
    (h : direction = phi ∨ ∃ back, radiansOfDegrees (.int 180) = .ok back ∧
      Number.add phi back = .ok direction) : direction.SmallIfFinite (n + 1) := by
  obtain rfl | ⟨back, hback, hdirection⟩ := h
  · exact hphi.mono (by omega)
  · have hsmall := smallIfFinite_radiansOfDegrees_of_abs_le (by norm_num) hback
    exact smallIfFinite_add hphi (hsmall.mono hn) hn' hdirection

/-- A displacement leads along a vector or in a direction. -/
lemma displacement_cases {command : Command} {pose : Pose Number}
    {displacement : Displacement Number} (h : command.displacement pose = .ok displacement) :
    (∃ dx dy, Command.towards pose dx dy = .ok displacement) ∨
      ∃ angle length, command = .lineAt angle length ∧
        Command.along pose angle length = .ok displacement := by
  cases command with
  | lineTo x y =>
    unfold Command.displacement at h
    obtain ⟨dx, -, h⟩ := bind_eq_ok.mp h
    obtain ⟨dy, -, h⟩ := bind_eq_ok.mp h
    exact .inl ⟨dx, dy, h⟩
  | lineBy dx dy => exact .inl ⟨_, _, h⟩
  | lineAt angle length => exact .inr ⟨angle, length, rfl, h⟩

/-- Turns and ways are doubles. -/
lemma displacement_doubles {command : Command} {pose : Pose Number}
    {displacement : Displacement Number} (h : command.displacement pose = .ok displacement) :
    (∃ x, displacement.turn = .double x) ∧ ∃ y, displacement.distance = .double y := by
  obtain ⟨dx, dy, h⟩ | ⟨angle, length, -, h⟩ := displacement_cases h
  · obtain ⟨hturn, hdistance, -⟩ | ⟨difference, hpolar, -, hturn⟩ := towards_eq_ok h
    · exact ⟨⟨_, hturn⟩, _, hdistance⟩
    · obtain ⟨⟨xx, yy, sum, -, -, -, hroot⟩, -⟩ := toPolar_eq_ok hpolar
      obtain ⟨y, -, hy⟩ := bind_eq_ok.mp hroot
      exact ⟨normalizeAngle_double hturn, _, (Except.ok.inj hy).symm⟩
  · obtain ⟨_, _, _, _, -, hdistance, -, -, -, -, hturn⟩ := along_eq_ok h
    exact ⟨normalizeAngle_double hturn, _, hdistance⟩

/-- From a heading in range a command makes a turn in range and leads to a heading in range. -/
theorem isTurn_displacement {command : Command} {pose next : Pose Number}
    {displacement : Displacement Number} (hpose : pose.HeadingInRange)
    (h : command.displacement pose = .ok displacement)
    (hadvance : pose.advance displacement.vector displacement.heading = (next, none)) :
    IsTurn displacement.turn ∧ next.HeadingInRange := by
  obtain ⟨b, q, hb, hq, hlow, hhigh⟩ := hpose
  have hnext := advance_eq_none hadvance
  obtain ⟨dx, dy, h⟩ | ⟨angle, length, -, h⟩ := displacement_cases h
  · obtain ⟨hturn, -, hkept⟩ | ⟨difference, hpolar, hsub, hturn⟩ := towards_eq_ok h
    · -- no way to go: the robot keeps its heading
      rw [hkept, hb] at hnext
      refine ⟨?_, (normalizeAngle_inRange (by norm_num) rfl (by norm_num) hq ?_ hnext).2 hlow⟩
      · rw [hturn]
        exact inRange_whole_zero _ (by positivity)
      · exact (abs_of_nonneg hlow).le.trans hhigh
    · -- along a vector: its direction is below eight, and so is the heading
      obtain ⟨a, ha, hwithin⟩ := withinIfFinite_toPolar hpolar
      rw [ha, hb] at hsub
      obtain rfl : Number.double (a - b) = difference := Except.ok.inj hsub
      rw [ha] at hnext
      obtain ⟨p, hp⟩ := finite_of_normalizeAngle hnext
      have hp' : |p| ≤ 2 ^ 3 := by
        rw [abs_of_nonneg (hwithin p hp).1]
        exact (hwithin p hp).2
      refine ⟨isTurn_of_normalizeAngle hp hq ?_ hturn, ?_⟩
      · rw [pow_succ, mul_two]
        refine (abs_sub p q).trans (add_le_add (hp'.trans ?_)
          ((abs_of_nonneg hlow).le.trans hhigh))
        exact pow_le_pow_right₀ (by norm_num) (by norm_num)
      · refine (normalizeAngle_inRange (by norm_num) rfl (by norm_num) hp hp' hnext).1.mono
          le_rfl ?_
        exact pow_le_pow_right₀ (by norm_num) (by norm_num)
  · -- along an angle: the direction may be large, but it is brought into one turn first
    obtain ⟨_, phi, direction, difference, -, -, hphi, hdirection, hheading, hsub, hturn⟩ :=
      along_eq_ok h
    obtain ⟨g, rfl, hsmall⟩ := smallIfFinite_direction (smallIfFinite_radiansOfDegrees hphi)
      (by norm_num) (by norm_num) hdirection
    obtain ⟨v, hv⟩ := finite_of_normalizeAngle hheading
    obtain ⟨a, p, ha, hp, hplow, hphigh⟩ :=
      (normalizeAngle_inRange (k := 1019) (by norm_num) rfl (by norm_num) hv (hsmall v hv)
        hheading).1
    rw [ha, hb] at hsub
    obtain rfl : Number.double (a - b) = difference := Except.ok.inj hsub
    rw [ha] at hnext
    refine ⟨isTurn_of_normalizeAngle hp hq ?_ hturn,
      (normalizeAngle_inRange (by norm_num) rfl (by norm_num) hp ?_ hnext).2 hplow⟩
    · rw [pow_succ, mul_two]
      refine (abs_sub p q).trans (add_le_add ?_ ?_)
      · exact (abs_of_nonneg hplow).le.trans hphigh
      · exact (abs_of_nonneg hlow).le.trans hhigh
    · exact (abs_of_nonneg hplow).le.trans hphigh

/-! ### Quarter turns -/

/-- The nearer side of a turn in range: a double in range of either sign. -/
lemma nearerSide_of_isTurn {turn : Number} (h : IsTurn turn) :
    ∃ angle, nearerSide turn = .ok (Number.lt halfTurn turn, angle) ∧
      angle.InRange (-2 ^ 1022) (2 ^ 1022) := by
  obtain ⟨x, q, rfl, hq, hlow, hhigh⟩ := h
  have hclockwise : Number.lt halfTurn (.double x) = !upTo (Number.double x) halfTurn :=
    Number.lt_eq_not_le (a := .double x) hq value?_halfTurn
  rw [hclockwise]
  by_cases hside : upTo (Number.double x) halfTurn = true
  · refine ⟨.double x, ?_, x, q, rfl, hq, ?_, hhigh⟩
    · unfold nearerSide
      rw [if_pos hside, hside]
      rfl
    · exact le_trans (neg_nonpos.mpr (by positivity)) hlow
  · refine ⟨.double (6.283185307179586 - x), ?_, ?_⟩
    · unfold nearerSide
      rw [if_neg hside, Bool.eq_false_iff.mpr hside]
      rfl
    · refine (Double.rounds_sub value?_fullTurn hq).inRange (by norm_num) ?_
      have hturn : (7074237752028440 / 2 ^ 50 : ℚ) ≤ 2 ^ 1022 := by
        have hthree : (2 : ℚ) ^ 3 ≤ 2 ^ 1022 := pow_le_pow_right₀ (by norm_num) (by norm_num)
        refine le_trans ?_ hthree
        norm_num
      rw [abs_le]
      constructor
      · have hpos : (0 : ℚ) ≤ 7074237752028440 / 2 ^ 50 := by norm_num
        calc -(2 : ℚ) ^ 1022 ≤ -q := neg_le_neg hhigh
          _ ≤ 7074237752028440 / 2 ^ 50 - q := by
            rw [sub_eq_add_neg]
            exact le_add_of_nonneg_left hpos
      · exact (sub_le_self _ hlow).trans hturn

/-- An angle in range has a number of quarter turns. -/
lemma quarterTurns_of_inRange {angle : Number} (h : angle.InRange (-2 ^ 1022) (2 ^ 1022)) :
    ∃ count, quarterTurns angle = .ok count := by
  obtain ⟨x, q, rfl, hq, hlow, hhigh⟩ := h
  have hbound : |q| ≤ 2 ^ 1022 := abs_le.mpr ⟨hlow, hhigh⟩
  obtain ⟨two, r, htwo, hr, hkeeps⟩ :=
    Number.toDouble_of_abs_le (a := .int 2) (q := 2) rfl (by norm_num : 1 ≤ 1023) (by norm_num)
  have hdouble : |r * q| ≤ 2 ^ 1023 := by
    rw [abs_mul, show (1023 : Nat) = 1 + 1022 from rfl, pow_add]
    exact mul_le_mul hkeeps.le hbound (abs_nonneg q) (by norm_num)
  obtain ⟨r₁, hr₁, hkeeps₁⟩ := Double.rounds_mul hr hq 1023 le_rfl hdouble
  have hpos : (0 : ℚ) < 7074237752028440 / 2 ^ 51 := by norm_num
  have hquotient : |r₁ / (7074237752028440 / 2 ^ 51)| ≤ 2 ^ 1022 := by
    rw [abs_div, abs_of_pos hpos, div_le_iff₀ hpos]
    refine hkeeps₁.le.trans ?_
    rw [pow_succ]
    exact mul_le_mul_of_nonneg_left (by norm_num) (by positivity)
  obtain ⟨r₂, hr₂, hkeeps₂⟩ :=
    Double.rounds_div hr₁ value?_halfTurn hpos.ne' 1022 (by norm_num) hquotient
  have hsum : |r₂ + 1 / 2| ≤ 2 ^ 1023 := by
    rw [pow_succ, mul_two]
    refine (abs_add_le r₂ (1 / 2)).trans (add_le_add hkeeps₂.le ?_)
    refine le_trans ?_ (one_le_pow₀ (by norm_num) : (1 : ℚ) ≤ 2 ^ 1022)
    norm_num [abs_of_pos]
  obtain ⟨r₃, hr₃, -⟩ := Double.rounds_add hr₂ value?_half 1023 le_rfl hsum
  refine ⟨⌊r₃⌋, ?_⟩
  have hmul : Number.mul (.int 2) (.double x) =
      (Number.int 2).toDouble >>= fun y => .ok (.double (y * x)) := rfl
  have hfloor := Number.floor_eq (a := .double (two * x / 3.141592653589793 + 0.5)) hr₃
  calc quarterTurns (Number.double x)
      = (Number.mul (.int 2) (.double x) >>= fun product =>
          Number.div product (.double 3.141592653589793) >>= fun quotient =>
            Number.add quotient (.double 0.5) >>= Number.floor) := rfl
    _ = Number.floor (.double (two * x / 3.141592653589793 + 0.5)) := by
      rw [hmul, htwo]
      rfl
    _ = .ok ⌊r₃⌋ := hfloor

/-- A turn in range is a number of quarter turns to one side. -/
theorem quarterTurns_of_isTurn {turn : Number} (h : IsTurn turn) :
    ∃ angle count, nearerSide turn = .ok (Number.lt halfTurn turn, .double angle) ∧
      quarterTurns (Number.double angle) = .ok count := by
  obtain ⟨angle, hside, hrange⟩ := nearerSide_of_isTurn h
  obtain ⟨count, hcount⟩ := quarterTurns_of_inRange hrange
  obtain ⟨x, -, rfl, -⟩ := hrange
  exact ⟨x, count, hside, hcount⟩

end PenRover
