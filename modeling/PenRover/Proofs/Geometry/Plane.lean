import Mathlib.Analysis.SpecialFunctions.Trigonometric.Angle
import Mathlib.Analysis.SpecialFunctions.Trigonometric.Inverse
import PenRover.Geometry.Polar
import PenRover.Proofs.Numeric.Exact

/-!
# The plane of real numbers

The geometry of a drawing is written once for every arithmetic.  Here it is read over the real
numbers, where nothing is rounded and an operation fails only outside its domain, and each of its
functions is brought into the form in which one would write it down: an angle less whole turns is
its fraction of a turn (`normalizeAngle_eq`), and by the law of cosines the direction of a vector is
the arc cosine of its first coordinate over its length (`toPolar_eq`).

What is left of rounding is on purpose.  The remainder of an angle counts as zero when it is within
the tolerance of zero (`canonical`), and a vector counts as pointing below the axis only when it
does so by more than the tolerance (`direction`).
-/

namespace PenRover

open Arithmetic
open Real hiding sqrt sin cos

/-- The exact arithmetic of the real numbers.  A quotient by zero, the root of a negative number and
the arc cosine of a number beyond `[-1, 1]` do not exist. -/
noncomputable instance : Arithmetic ℝ where
  exact n := n
  whole n := n
  half := 1 / 2
  halfTurn := π
  fullTurn := 2 * π
  quarterTurn := π / 2
  tolerance := 1 / 1000
  add a b := .ok (a + b)
  sub a b := .ok (a - b)
  mul a b := .ok (a * b)
  div a b := if b = 0 then .error .outsideDomain else .ok (a / b)
  neg a := -a
  sqrt a := if a < 0 then .error .outsideDomain else .ok √a
  sin a := .ok (Real.sin a)
  cos a := .ok (Real.cos a)
  acos a := if |a| ≤ 1 then .ok (arccos a) else .error .outsideDomain
  floor a := .ok ⌊a⌋
  measured a := .ok a
  below a b := decide (a < b)
  upTo a b := decide (a ≤ b)

namespace Plane

/-! ### The operations -/

section Operations

variable (a b : ℝ) (n : Int)

/-- An exact integer is itself. -/
@[simp] lemma exact_eq : (exact n : ℝ) = n := rfl

/-- A whole number is itself. -/
@[simp] lemma whole_eq : (whole n : ℝ) = n := rfl

/-- One half over the reals. -/
@[simp] lemma half_eq : (half : ℝ) = 1 / 2 := rfl

/-- Half a turn over the reals. -/
@[simp] lemma halfTurn_eq : (halfTurn : ℝ) = π := rfl

/-- A full turn over the reals. -/
@[simp] lemma fullTurn_eq : (fullTurn : ℝ) = 2 * π := rfl

/-- A quarter turn over the reals. -/
@[simp] lemma quarterTurn_eq : (quarterTurn : ℝ) = π / 2 := rfl

/-- The tolerance over the reals. -/
@[simp] lemma tolerance_eq : (tolerance : ℝ) = 1 / 1000 := rfl

/-- Sums are exact over the reals. -/
@[simp] lemma add_eq : add a b = .ok (a + b) := rfl

/-- Differences are exact over the reals. -/
@[simp] lemma sub_eq : sub a b = .ok (a - b) := rfl

/-- Products are exact over the reals. -/
@[simp] lemma mul_eq : mul a b = .ok (a * b) := rfl

/-- Quotients are exact over the reals, except by zero. -/
lemma div_eq {b : ℝ} (h : b ≠ 0) : div a b = .ok (a / b) := if_neg h

/-- Negatives are exact over the reals. -/
@[simp] lemma neg_eq : neg a = -a := rfl

/-- Roots are exact over the reals, except of negative numbers. -/
lemma sqrt_eq {a : ℝ} (h : 0 ≤ a) : sqrt a = .ok √a := if_neg h.not_gt

/-- Sines are exact over the reals. -/
@[simp] lemma sin_eq : sin a = .ok (Real.sin a) := rfl

/-- Cosines are exact over the reals. -/
@[simp] lemma cos_eq : cos a = .ok (Real.cos a) := rfl

/-- Arc cosines are exact over the reals, within their range. -/
lemma acos_eq {a : ℝ} (h : |a| ≤ 1) : acos a = .ok (arccos a) := if_pos h

/-- Rounding down over the reals. -/
@[simp] lemma floor_eq : floor a = .ok ⌊a⌋ := rfl

/-- Measuring a real changes nothing. -/
@[simp] lemma measured_eq : measured a = .ok a := rfl

/-- The reals are compared as they are. -/
@[simp] lemma below_eq_true_iff : below a b = true ↔ a < b := decide_eq_true_iff

/-- The reals are compared as they are, with equality. -/
@[simp] lemma upTo_eq_true_iff : upTo a b = true ↔ a ≤ b := decide_eq_true_iff

end Operations

/-- The tolerance is positive. -/
lemma tolerance_pos : (0 : ℝ) < tolerance := by
  rw [tolerance_eq]
  norm_num

/-! ### Angles -/

/-- An angle less whole turns, from zero up to a full turn. -/
noncomputable def remainder (angle : ℝ) : ℝ := Int.fract (angle / (2 * π)) * (2 * π)

/-- The remainder of an angle, where a remainder within the tolerance counts as zero. -/
noncomputable def canonical (angle : ℝ) : ℝ :=
  if tolerance < remainder angle then remainder angle else 0

/-- What whole turns leave of an angle is not negative. -/
lemma remainder_nonneg (angle : ℝ) : 0 ≤ remainder angle :=
  mul_nonneg (Int.fract_nonneg _) two_pi_pos.le

/-- What whole turns leave of an angle is below a full turn. -/
lemma remainder_lt (angle : ℝ) : remainder angle < 2 * π := by
  have hturn := mul_lt_mul_of_pos_right (Int.fract_lt_one (angle / (2 * π))) two_pi_pos
  rwa [one_mul] at hturn

/-- An angle is its remainder and whole turns. -/
lemma remainder_eq (angle : ℝ) : remainder angle = angle - ⌊angle / (2 * π)⌋ * (2 * π) := by
  have hturn : angle / (2 * π) * (2 * π) = angle := div_mul_cancel₀ angle two_pi_pos.ne'
  rw [remainder, Int.fract, sub_mul, hturn]

/-- On the circle, an angle and its remainder are the same. -/
@[simp] lemma coe_remainder (angle : ℝ) : (remainder angle : Angle) = angle := by
  rw [Angle.angle_eq_iff_two_pi_dvd_sub]
  refine ⟨-⌊angle / (2 * π)⌋, ?_⟩
  rw [remainder_eq]
  push_cast
  ring

/-- Whole turns do not change the cosine. -/
@[simp] lemma cos_remainder (angle : ℝ) : Real.cos (remainder angle) = Real.cos angle := by
  rw [← Angle.cos_coe, coe_remainder, Angle.cos_coe]

/-- Whole turns do not change the sine. -/
@[simp] lemma sin_remainder (angle : ℝ) : Real.sin (remainder angle) = Real.sin angle := by
  rw [← Angle.sin_coe, coe_remainder, Angle.sin_coe]

/-- An angle that was brought into one turn is not negative. -/
lemma canonical_nonneg (angle : ℝ) : 0 ≤ canonical angle := by
  unfold canonical
  split
  · exact remainder_nonneg angle
  · exact le_rfl

/-- An angle that was brought into one turn is below a full turn. -/
lemma canonical_lt (angle : ℝ) : canonical angle < 2 * π := by
  unfold canonical
  split
  · exact remainder_lt angle
  · exact two_pi_pos

/-- A remainder is left as it is when it is zero or beyond the tolerance. -/
lemma canonical_of_remainder {angle : ℝ} (h : remainder angle = 0 ∨ tolerance < remainder angle) :
    canonical angle = remainder angle := by
  unfold canonical
  split
  · rfl
  next hsmall => exact (h.resolve_right hsmall).symm

/-- The distance of two angles on the circle is that of the numbers less the nearest whole turns. -/
lemma dist_coe (a b : ℝ) :
    dist (a : Angle) (b : Angle) = |a - b - round ((2 * π)⁻¹ * (a - b)) * (2 * π)| := by
  rw [dist_eq_norm, ← Angle.coe_sub]
  exact AddCircle.norm_eq (2 * π)

/-- The distance of two angles on the circle is not above that of the numbers. -/
lemma dist_coe_le (a b : ℝ) : dist (a : Angle) (b : Angle) ≤ |a - b| := by
  rw [dist_eq_norm, ← Angle.coe_sub]
  exact QuotientAddGroup.norm_mk_le_norm

/-! ### The functions of the geometry -/

/-- Over the reals every angle is brought into one turn. -/
lemma normalizeAngle_eq (angle : ℝ) : normalizeAngle angle = .ok (canonical angle) := by
  unfold normalizeAngle
  simp only [fullTurn_eq, div_eq _ two_pi_pos.ne', floor_eq, ok_bind, exact_eq, mul_eq, sub_eq,
    whole_eq, below_eq_true_iff, Int.cast_zero]
  rw [canonical, remainder_eq]
  rfl

/-- A circle of degrees is a full turn. -/
lemma radiansOfDegrees_eq (degrees : ℝ) :
    radiansOfDegrees degrees = .ok (degrees * (2 * π) / 360) := by
  unfold radiansOfDegrees
  simp only [fullTurn_eq, mul_eq, ok_bind, exact_eq, Int.cast_ofNat]
  exact div_eq _ (by norm_num)

/-- The vector with a direction and a length. -/
lemma ofPolar_eq (phi r : ℝ) : ofPolar phi r = .ok (r * Real.cos phi, r * Real.sin phi) := by
  unfold ofPolar
  simp only [cos_eq, sin_eq, ok_bind, mul_eq]
  rfl

/-- The distance between two points. -/
lemma distance_eq (p q : ℝ × ℝ) :
    distance p q = .ok √((q.1 - p.1) * (q.1 - p.1) + (q.2 - p.2) * (q.2 - p.2)) := by
  unfold distance
  simp only [sub_eq, mul_eq, add_eq, ok_bind]
  exact sqrt_eq (add_nonneg (mul_self_nonneg _) (mul_self_nonneg _))

/-- A cosine in its range is left as it is. -/
lemma clampCosine_of_abs_le {c : ℝ} (h : |c| ≤ 1) : clampCosine c = c := by
  have hends := abs_le.mp h
  unfold clampCosine
  simp only [below_eq_true_iff, whole_eq, Int.cast_one, Int.cast_neg]
  split <;> split <;> linarith

/-! ### Vectors

The length of a vector, and the angle of at most half a turn between it and the first axis. -/

/-- The length of a vector. -/
noncomputable def radius (dx dy : ℝ) : ℝ := √(dx * dx + dy * dy)

/-- The angle between a vector and the first axis. -/
noncomputable def slope (dx dy : ℝ) : ℝ := arccos (dx / radius dx dy)

/-- The direction of a vector: that of a vector below the axis by more than the tolerance is
reflected. -/
noncomputable def direction (dx dy : ℝ) : ℝ :=
  if dy < -tolerance then 2 * π - slope dx dy else slope dx dy

variable {dx dy : ℝ}

/-- The square of the length of a vector. -/
lemma radius_mul_self (dx dy : ℝ) : radius dx dy * radius dx dy = dx * dx + dy * dy :=
  Real.mul_self_sqrt (add_nonneg (mul_self_nonneg dx) (mul_self_nonneg dy))

/-- The length of a vector is not negative. -/
lemma radius_nonneg (dx dy : ℝ) : 0 ≤ radius dx dy := Real.sqrt_nonneg _

/-- A vector is at least as long as its first coordinate. -/
lemma abs_le_radius (dx dy : ℝ) : |dx| ≤ radius dx dy := by
  apply Real.abs_le_sqrt
  rw [pow_two]
  exact le_add_of_nonneg_right (mul_self_nonneg dy)

/-- The first coordinate of a vector over its length has an arc cosine. -/
lemma abs_div_radius_le_one (dx dy : ℝ) : |dx / radius dx dy| ≤ 1 := by
  rw [abs_div, abs_of_nonneg (radius_nonneg dx dy)]
  exact div_le_one_of_le₀ (abs_le_radius dx dy) (radius_nonneg dx dy)

/-- The law of cosines in the triangle of the origin, the vector, and the point of the first axis
that is as far away as the vector. -/
lemma law_of_cosines (h : 0 < radius dx dy) :
    1 - radius (radius dx dy - dx) (0 - dy) * radius (radius dx dy - dx) (0 - dy) /
      (2 * radius dx dy * radius dx dy) = dx / radius dx dy := by
  have hside : radius (radius dx dy - dx) (0 - dy) * radius (radius dx dy - dx) (0 - dy) =
      2 * radius dx dy * radius dx dy - 2 * radius dx dy * dx := by
    rw [radius_mul_self (radius dx dy - dx)]
    linear_combination -radius_mul_self dx dy
  rw [hside]
  field_simp
  ring

/-- The polar form of a vector beyond the tolerance. -/
lemma toPolar_eq (h : tolerance < radius dx dy) :
    toPolar dx dy = .ok (direction dx dy, radius dx dy) := by
  have hpos : 0 < radius dx dy := tolerance_pos.trans h
  have hlength : sqrt (dx * dx + dy * dy) = .ok (radius dx dy) :=
    sqrt_eq (add_nonneg (mul_self_nonneg dx) (mul_self_nonneg dy))
  have hside : distance (dx, dy) (radius dx dy, 0) = .ok (radius (radius dx dy - dx) (0 - dy)) :=
    distance_eq _ _
  have hdouble : 2 * radius dx dy * radius dx dy ≠ 0 := by positivity
  have hunit := abs_div_radius_le_one dx dy
  unfold toPolar
  simp only [mul_eq, add_eq, hlength, ok_bind, below_eq_true_iff, exact_eq, sub_eq, neg_eq,
    fullTurn_eq, Int.cast_zero, Int.cast_one, Int.cast_ofNat]
  rw [if_pos h, hside, ok_bind, div_eq _ hdouble, ok_bind, law_of_cosines hpos,
    clampCosine_of_abs_le hunit, acos_eq hunit, ok_bind, direction, slope]
  split <;> rfl

/-- The slope of a vector gives back its first coordinate. -/
lemma radius_mul_cos_slope (h : 0 < radius dx dy) : radius dx dy * Real.cos (slope dx dy) = dx := by
  have hends := abs_le.mp (abs_div_radius_le_one dx dy)
  rw [slope, Real.cos_arccos hends.1 hends.2, mul_div_cancel₀ dx h.ne']

/-- The slope of a vector gives back the magnitude of its second coordinate. -/
lemma radius_mul_sin_slope (h : 0 < radius dx dy) :
    radius dx dy * Real.sin (slope dx dy) = |dy| := by
  have hsin : 0 ≤ Real.sin (slope dx dy) := by
    rw [slope, Real.sin_arccos]
    exact Real.sqrt_nonneg _
  have hcircle : Real.sin (slope dx dy) ^ 2 + Real.cos (slope dx dy) ^ 2 = 1 :=
    Real.sin_sq_add_cos_sq _
  have hself : radius dx dy * Real.sin (slope dx dy) * (radius dx dy * Real.sin (slope dx dy)) =
      dy * dy := by
    have hcos := radius_mul_cos_slope h
    linear_combination radius dx dy * radius dx dy * hcircle + radius_mul_self dx dy -
      (radius dx dy * Real.cos (slope dx dy) + dx) * hcos
  rw [← abs_of_nonneg (mul_nonneg h.le hsin)]
  exact abs_eq_iff_mul_self_eq.mpr hself

/-- The vector of the direction and the length of a vector: the second coordinate comes back with
the sign that the direction takes it for. -/
lemma ofPolar_direction (h : 0 < radius dx dy) :
    ofPolar (direction dx dy) (radius dx dy) =
      .ok (dx, if dy < -tolerance then -|dy| else |dy|) := by
  have hx := radius_mul_cos_slope h
  have hy := radius_mul_sin_slope h
  rw [ofPolar_eq, direction]
  split
  · rw [Real.cos_two_pi_sub, Real.sin_two_pi_sub, mul_neg, hx, hy]
  · rw [hx, hy]

/-- The slope of a vector is not negative. -/
lemma slope_nonneg (dx dy : ℝ) : 0 ≤ slope dx dy := Real.arccos_nonneg _

/-- The slope of a vector is half a turn at most. -/
lemma slope_le (dx dy : ℝ) : slope dx dy ≤ π := Real.arccos_le_pi _

/-- The direction of a vector is not negative. -/
lemma direction_nonneg (dx dy : ℝ) : 0 ≤ direction dx dy := by
  have hnonneg := slope_nonneg dx dy
  have hle := slope_le dx dy
  unfold direction
  split <;> linarith [pi_pos]

/-! ### The sides of a turn -/

/-- A turn of more than half a turn is made to the other side. -/
lemma nearerSide_eq (turn : ℝ) :
    nearerSide turn = .ok (if turn ≤ π then (false, turn) else (true, 2 * π - turn)) := by
  unfold nearerSide
  simp only [halfTurn_eq, upTo_eq_true_iff, fullTurn_eq, sub_eq, ok_bind]
  split <;> rfl

/-- The number of quarter turns over the reals. -/
lemma quarterTurns_eq (angle : ℝ) : quarterTurns angle = .ok ⌊2 * angle / π + 1 / 2⌋ := by
  unfold quarterTurns
  simp only [exact_eq, mul_eq, ok_bind, halfTurn_eq, div_eq _ pi_ne_zero, half_eq, add_eq, floor_eq,
    Int.cast_ofNat]

end Plane

end PenRover
