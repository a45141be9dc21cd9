import Mathlib.Analysis.Real.Pi.Bounds
import PenRover.Drawing.Command
import PenRover.Proofs.Geometry.Plane

/-!
# Lines along vectors

A command that draws along a vector, given by its coordinates or by a direction and a length, is
compiled to the displacement that covers this vector.  Over the real numbers the displacement is
driven forward along a heading of one turn, the heading and the distance are the vector exactly, and
the turn leads from the heading of the pose to that of the displacement up to the tolerance.

Only the turn is rounded.  For integers the two tolerances of the geometry do not show: a vector
of integers below the axis is below by at least one, so its direction is reflected as it should be
(`lt_neg_tolerance_iff`), and a whole number of degrees is a whole number of turns or off by at
least one degree, so it is never taken for zero (`canonical_ofDegrees`).
-/

namespace PenRover

open Arithmetic Plane
open Real hiding sqrt sin cos

/-- The displacement covers its vector from the pose: forward, along a heading of one turn, after
the turn from the heading of the pose to that heading. -/
structure Displacement.Covers (d : Displacement ℝ) (pose : Pose ℝ) : Prop where
  distance_nonneg : 0 ≤ d.distance
  heading_nonneg : 0 ≤ d.heading
  heading_lt : d.heading < 2 * π
  vector_eq : (d.distance * Real.cos d.heading, d.distance * Real.sin d.heading) = d.vector
  dist_heading_le : dist ((pose.heading + d.turn : ℝ) : Angle) d.heading ≤ tolerance

/-! ### The turn -/

/-- On the circle, the canonical form of an angle is within the tolerance of the angle. -/
lemma dist_canonical_le (angle : ℝ) : dist (canonical angle : Angle) angle ≤ tolerance := by
  rw [← coe_remainder angle]
  refine (dist_coe_le _ _).trans ?_
  unfold canonical
  split
  · rw [sub_self, abs_zero]
    exact tolerance_pos.le
  next hsmall =>
    rw [zero_sub, abs_neg, abs_of_nonneg (remainder_nonneg angle)]
    exact not_lt.mp hsmall

/-- The turn between two headings leads from the first to the second, up to the tolerance. -/
lemma dist_add_canonical_le (start goal : ℝ) :
    dist ((start + canonical (goal - start) : ℝ) : Angle) goal ≤ tolerance := by
  have hgoal : (goal : Angle) = (start : Angle) + ((goal - start : ℝ) : Angle) := by
    rw [← Angle.coe_add, add_sub_cancel]
  rw [hgoal, Angle.coe_add, dist_add_left]
  exact dist_canonical_le _

/-! ### Along coordinates -/

section Coordinates

variable {dx dy : Int}

/-- The vector of two integers has length at least one, unless both are zero. -/
lemma one_le_radius (h : (dx, dy) ≠ (0, 0)) : 1 ≤ radius dx dy := by
  have hsquares : 0 < dx * dx + dy * dy := by
    by_contra hzero
    apply h
    have hx := mul_self_nonneg dx
    have hy := mul_self_nonneg dy
    have hx0 : dx = 0 := mul_self_eq_zero.mp (by omega)
    have hy0 : dy = 0 := mul_self_eq_zero.mp (by omega)
    rw [hx0, hy0]
  apply Real.one_le_sqrt.mpr
  exact_mod_cast hsquares

/-- An integer is below zero by more than the tolerance as soon as it is below zero. -/
lemma lt_neg_tolerance_iff : (dy : ℝ) < -tolerance ↔ dy < 0 := by
  rw [tolerance_eq]
  constructor
  · intro h
    have hneg : (dy : ℝ) < 0 := by linarith
    exact_mod_cast hneg
  · intro h
    have hone : (dy : ℝ) ≤ -1 := by exact_mod_cast Int.le_sub_one_of_lt h
    linarith

/-- The direction of a vector that is not zero is below a full turn. -/
lemma direction_lt (h : (dx, dy) ≠ (0, 0)) : direction dx dy < 2 * π := by
  have hpos : 0 < radius dx dy := zero_lt_one.trans_le (one_le_radius h)
  have hle := slope_le dx dy
  unfold direction
  split
  next hbelow =>
    have hslope : slope (dx : ℝ) dy ≠ 0 := by
      intro hzero
      have hsin := radius_mul_sin_slope hpos
      rw [hzero, Real.sin_zero, mul_zero] at hsin
      have hdy : dy = 0 := by exact_mod_cast abs_eq_zero.mp hsin.symm
      exact (lt_neg_tolerance_iff.mp hbelow).ne hdy
    have hslope' := lt_of_le_of_ne (slope_nonneg (dx : ℝ) dy) hslope.symm
    linarith
  · linarith [pi_pos]

/-- The direction and the length of a vector of integers give the vector. -/
lemma radius_mul_direction (h : (dx, dy) ≠ (0, 0)) :
    (radius dx dy * Real.cos (direction dx dy), radius dx dy * Real.sin (direction dx dy)) =
      ((dx, dy) : ℝ × ℝ) := by
  have hpos : 0 < radius dx dy := zero_lt_one.trans_le (one_le_radius h)
  have hvector := ofPolar_direction hpos
  rw [ofPolar_eq] at hvector
  rw [Except.ok.inj hvector]
  congr 1
  by_cases hbelow : (dy : ℝ) < -tolerance
  · have hneg : (dy : ℝ) < 0 := by exact_mod_cast lt_neg_tolerance_iff.mp hbelow
    rw [if_pos hbelow, abs_of_neg hneg, neg_neg]
  · have hnonneg : (0 : ℝ) ≤ dy := by
      exact_mod_cast not_lt.mp fun hneg => hbelow (lt_neg_tolerance_iff.mpr hneg)
    rw [if_neg hbelow, abs_of_nonneg hnonneg]

/-- The displacement along a vector that is not zero. -/
lemma displacement_lineBy (pose : Pose ℝ) (h : (dx, dy) ≠ (0, 0)) :
    (Command.lineBy dx dy).displacement pose =
      .ok ⟨canonical (direction dx dy - pose.heading), radius dx dy, (dx, dy),
        direction dx dy⟩ := by
  have hlong : tolerance < radius (dx : ℝ) dy := by
    have hone := one_le_radius h
    rw [tolerance_eq]
    linarith
  have hshort : upTo (radius (dx : ℝ) dy) tolerance = false := by
    rw [← Bool.not_eq_true, upTo_eq_true_iff]
    exact hlong.not_ge
  simp only [Command.displacement, Command.towards, exact_eq]
  rw [toPolar_eq hlong, ok_bind]
  simp only [hshort, sub_eq, ok_bind, normalizeAngle_eq]
  rfl

end Coordinates

/-! ### In a direction -/

section Directions

variable (n angle length : Int)

/-- A number of degrees in radians. -/
noncomputable def ofDegrees : ℝ := n * fullTurn / 360

/-- A number of degrees in radians, as it is computed. -/
lemma ofDegrees_eq : ofDegrees n = n * (2 * π) / 360 := rfl

/-- Changing an integer from degrees over the reals. -/
lemma radiansOfDegrees_exact : radiansOfDegrees (exact n : ℝ) = .ok (ofDegrees n) :=
  radiansOfDegrees_eq n

/-- The radians of a sum of degrees are the sum of the radians. -/
lemma ofDegrees_add (m n : Int) : ofDegrees (m + n) = ofDegrees m + ofDegrees n := by
  simp only [ofDegrees_eq]
  push_cast
  ring

/-- Half a turn has 180 degrees. -/
lemma ofDegrees_half : ofDegrees 180 = π := by
  simp only [ofDegrees_eq]
  push_cast
  ring

/-- Bringing degrees into one turn is taking their remainder by a circle. -/
lemma remainder_ofDegrees : remainder (ofDegrees n) = ofDegrees (n % 360) := by
  have hturns : ofDegrees n / (2 * π) = (n : ℝ) / (360 : ℕ) := by
    rw [ofDegrees_eq]
    push_cast
    field_simp
  rw [remainder, hturns, Int.fract_div_intCast_eq_div_intCast_mod, ofDegrees_eq]
  push_cast
  ring

/-- A whole number of degrees is not taken for whole turns. -/
lemma canonical_ofDegrees : canonical (ofDegrees n) = remainder (ofDegrees n) := by
  apply canonical_of_remainder
  rw [remainder_ofDegrees]
  rcases (Int.emod_nonneg n (by decide : (360 : Int) ≠ 0)).eq_or_lt with hzero | hpos
  · left
    rw [← hzero, ofDegrees_eq, Int.cast_zero, zero_mul, zero_div]
  · right
    have hone : (1 : ℝ) ≤ (n % 360 : Int) := by exact_mod_cast hpos
    have hpi := pi_gt_three
    calc (tolerance : ℝ) = 1 / 1000 := tolerance_eq
      _ < 2 * π / 360 := by linarith
      _ ≤ ofDegrees (n % 360) := by
        rw [ofDegrees_eq]
        nlinarith

/-- The direction, in degrees, of driving forward a length that may be negative. -/
def forwardDegrees : Int := if length < 0 then angle + 180 else angle

/-- Driving forward in the direction of a length covers what the length covers in its own. -/
lemma abs_mul_forwardDegrees :
    (|(length : ℝ)| * Real.cos (ofDegrees (forwardDegrees angle length)),
      |(length : ℝ)| * Real.sin (ofDegrees (forwardDegrees angle length))) =
      (length * Real.cos (ofDegrees angle), length * Real.sin (ofDegrees angle)) := by
  unfold forwardDegrees
  split
  next hneg =>
    rw [ofDegrees_add, ofDegrees_half, Real.cos_add_pi, Real.sin_add_pi,
      abs_of_neg (Int.cast_lt_zero.mpr hneg), neg_mul_neg, neg_mul_neg]
  next hnonneg =>
    rw [abs_of_nonneg (Int.cast_nonneg (not_lt.mp hnonneg))]

/-- The displacement along an angle, of a length that may be negative. -/
lemma displacement_lineAt (pose : Pose ℝ) :
    (Command.lineAt angle length).displacement pose =
      .ok ⟨canonical (canonical (ofDegrees (forwardDegrees angle length)) - pose.heading), |length|,
        (length * Real.cos (ofDegrees angle), length * Real.sin (ofDegrees angle)),
        canonical (ofDegrees (forwardDegrees angle length))⟩ := by
  have hbackwards : below (length : ℝ) (exact 0) = decide (length < 0) := by
    rw [Bool.eq_iff_iff, below_eq_true_iff, decide_eq_true_iff, exact_eq, Int.cast_zero,
      Int.cast_lt_zero]
  simp only [Command.displacement, Command.along, radiansOfDegrees_exact, exact_eq length,
    measured_eq, ok_bind, ofPolar_eq, hbackwards, decide_eq_true_eq]
  by_cases hneg : length < 0
  · have hdirection : forwardDegrees angle length = angle + 180 := if_pos hneg
    rw [if_pos hneg, if_pos hneg, add_eq, ok_bind, ← ofDegrees_add, ← hdirection,
      normalizeAngle_eq, ok_bind, sub_eq, ok_bind, normalizeAngle_eq, ok_bind,
      abs_of_neg (Int.cast_lt_zero.mpr hneg)]
    rfl
  · have hdirection : forwardDegrees angle length = angle := if_neg hneg
    have hlength : (0 : ℝ) ≤ length := Int.cast_nonneg (not_lt.mp hneg)
    rw [if_neg hneg, if_neg hneg, hdirection, abs_of_nonneg hlength]
    simp only [pure_bind, normalizeAngle_eq, ok_bind, sub_eq]
    rfl

end Directions

/-- A line along a vector of integers, not both zero, and a line in a direction of degrees are
compiled to a displacement with this vector, which covers it from the pose.  The length of a line in
a direction may be negative and its angle may be of any number of turns. -/
theorem covers_of_relative (pose : Pose ℝ) :
    (∀ dx dy : Int, (dx, dy) ≠ (0, 0) →
      ∃ d, (Command.lineBy dx dy).displacement pose = .ok d ∧ d.vector = ((dx : ℝ), (dy : ℝ)) ∧
        d.Covers pose) ∧
      ∀ angle length : Int,
        ∃ d, (Command.lineAt angle length).displacement pose = .ok d ∧
          d.vector =
            (length * Real.cos (angle * (π / 180)), length * Real.sin (angle * (π / 180))) ∧
          d.Covers pose := by
  constructor
  · intro dx dy h
    refine ⟨_, displacement_lineBy pose h, rfl, ?_⟩
    exact {
      distance_nonneg := radius_nonneg _ _
      heading_nonneg := direction_nonneg _ _
      heading_lt := direction_lt h
      vector_eq := radius_mul_direction h
      dist_heading_le := dist_add_canonical_le _ _ }
  · intro angle length
    have hdegrees : ofDegrees angle = angle * (π / 180) := by
      rw [ofDegrees_eq]
      ring
    rw [← hdegrees]
    refine ⟨_, displacement_lineAt angle length pose, rfl, ?_⟩
    exact {
      distance_nonneg := abs_nonneg _
      heading_nonneg := canonical_nonneg _
      heading_lt := canonical_lt _
      vector_eq := by
        rw [canonical_ofDegrees, cos_remainder, sin_remainder]
        exact abs_mul_forwardDegrees angle length
      dist_heading_le := dist_add_canonical_le _ _ }

/-- A line by the vector `(3, -4)`, and one at 450 degrees backwards, at the start. -/
theorem covers_of_relative_start :
    ((3, -4) : Int × Int) ≠ (0, 0) ∧
      (∃ d, (Command.lineBy 3 (-4)).displacement (Pose.start : Pose ℝ) = .ok d ∧
        d.vector = (((3 : Int) : ℝ), ((-4 : Int) : ℝ)) ∧ d.Covers Pose.start) ∧
      ∃ d, (Command.lineAt 450 (-2)).displacement (Pose.start : Pose ℝ) = .ok d ∧
        d.vector = (((-2 : Int) : ℝ) * Real.cos ((450 : Int) * (π / 180)),
          ((-2 : Int) : ℝ) * Real.sin ((450 : Int) * (π / 180))) ∧
        d.Covers Pose.start := by
  obtain ⟨hcoordinates, hdirection⟩ := covers_of_relative Pose.start
  exact ⟨by decide, hcoordinates 3 (-4) (by decide), hdirection 450 (-2)⟩

end PenRover
