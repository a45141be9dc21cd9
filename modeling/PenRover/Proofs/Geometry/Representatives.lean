import Mathlib.Algebra.Order.ToIntervalMod
import PenRover.Geometry.Pose
import PenRover.Proofs.Geometry.Plane

/-!
# Representatives of angles

Angles that differ by whole turns are one direction, and one number stands for all of them.  It is
zero or lies within one turn, beyond the tolerance.  The angles that are ahead of whole turns by no
more than the tolerance are represented by zero, and this is the only error that is made
(`Represents`).

The tolerance is on one side of zero only: an angle just short of whole turns is not taken for zero.
That is why no angle has two representatives, and the normal form of an angle over the real numbers
is the one that it has (`normalizeAngle_eq_ok_iff`).  That whole turns do not change it, and that it
is its own normal form, are then facts about `Represents`, for which no floor is opened again.
-/

namespace PenRover

open Arithmetic Plane
open Real hiding sqrt sin cos

variable {angle result rest : ℝ}

/-- The tolerance is much less than a turn. -/
lemma tolerance_lt_two_pi : tolerance < 2 * π := by
  rw [tolerance_eq]
  linarith [two_le_pi]

/-- The remainder of an angle is what is left of it above whole turns. -/
lemma remainder_eq_iff :
    remainder angle = rest ↔
      (0 ≤ rest ∧ rest < 2 * π) ∧ ∃ turns : Int, angle = rest + turns * (2 * π) := by
  rw [remainder, ← toIcoMod_eq_fract_mul two_pi_pos, toIcoMod_eq_iff, Set.mem_Ico, zero_add]
  simp only [zsmul_eq_mul]

/-! ### What stands for an angle -/

/-- The number stands for the angle, which is ahead of it by whole turns.  Zero stands for the
angles within the tolerance above whole turns as well. -/
structure Represents (result angle : ℝ) : Prop where
  range : result = 0 ∨ tolerance < result ∧ result < 2 * π
  /-- The angle is the number, whole turns and an error, which is left by zero only. -/
  congruent : ∃ (turns : Int) (error : ℝ), angle = result + turns * (2 * π) + error ∧
    0 ≤ error ∧ error ≤ tolerance ∧ (error ≠ 0 → result = 0)

/-- A number of the range stands for the angles that are whole turns away, without an error. -/
lemma represents_of_turns (turns : Int)
    (hrange : result = 0 ∨ tolerance < result ∧ result < 2 * π)
    (hangle : angle = result + turns * (2 * π)) : Represents result angle where
  range := hrange
  congruent := by
    refine ⟨turns, 0, ?_, le_rfl, tolerance_pos.le, fun hne => absurd rfl hne⟩
    rw [hangle, add_zero]

/-- What stands for an angle stands for itself. -/
lemma Represents.self (h : Represents result angle) : Represents result result := by
  apply represents_of_turns 0 h.range
  rw [Int.cast_zero, zero_mul, add_zero]

/-- What stands for an angle stands for the same angle after whole turns. -/
lemma Represents.add_turns (h : Represents result angle) (turns : Int) :
    Represents result (angle + 2 * π * turns) where
  range := h.range
  congruent := by
    obtain ⟨before, error, hangle, herror⟩ := h.congruent
    refine ⟨before + turns, error, ?_, herror⟩
    rw [hangle, Int.cast_add]
    ring

/-! ### The normal form -/

/-- An angle that was brought into one turn stands for the angle. -/
lemma represents_canonical (angle : ℝ) : Represents (canonical angle) angle := by
  obtain ⟨⟨hnonneg, hlt⟩, turns, hangle⟩ := remainder_eq_iff.mp (Eq.refl (remainder angle))
  unfold canonical
  split
  next hbeyond => exact represents_of_turns turns (.inr ⟨hbeyond, hlt⟩) hangle
  next hwithin =>
    refine ⟨.inl rfl, turns, remainder angle, ?_, hnonneg, not_lt.mp hwithin, fun _ => rfl⟩
    rw [zero_add, add_comm]
    exact hangle

/-- An angle has no second representative: its remainder is the error when it is represented by
zero, and otherwise the representative, which then makes no error. -/
lemma Represents.canonical_eq (h : Represents result angle) : canonical angle = result := by
  obtain ⟨turns, error, hangle, hnonneg, hle, hzero⟩ := h.congruent
  rcases h.range with rfl | ⟨hbeyond, hlt⟩
  · have hremainder : remainder angle = error := by
      refine remainder_eq_iff.mpr ⟨⟨hnonneg, hle.trans_lt tolerance_lt_two_pi⟩, turns, ?_⟩
      rw [hangle, zero_add, add_comm]
    rw [canonical, hremainder, if_neg hle.not_gt]
  · have hpos : 0 < result := tolerance_pos.trans hbeyond
    have herror : error = 0 := by
      by_contra hne
      exact hpos.ne' (hzero hne)
    have hremainder : remainder angle = result := by
      refine remainder_eq_iff.mpr ⟨⟨hpos.le, hlt⟩, turns, ?_⟩
      rw [hangle, herror, add_zero]
    rw [canonical, hremainder, if_pos hbeyond]

/-- The normal form of an angle is the number that represents it. -/
lemma normalizeAngle_eq_ok_iff : normalizeAngle angle = .ok result ↔ Represents result angle := by
  rw [normalizeAngle_eq, Except.ok.injEq]
  constructor
  · rintro rfl
    exact represents_canonical angle
  · exact Represents.canonical_eq

/-- A pose that is moved along a vector faces the normal form of its new heading. -/
lemma Represents.advance_eq {heading : ℝ} (h : Represents result heading) (pose : Pose ℝ)
    (vector : ℝ × ℝ) :
    pose.advance vector heading =
      (⟨(pose.position.1 + vector.1, pose.position.2 + vector.2), result⟩, none) := by
  have hface (moved : Pose ℝ) : moved.face heading = .ok { moved with heading := result } := by
    rw [Pose.face, normalizeAngle_eq_ok_iff.mpr h]
    rfl
  have hmove : pose.move vector =
      .ok { pose with position := (pose.position.1 + vector.1, pose.position.2 + vector.2) } := rfl
  rw [Pose.advance, hmove]
  dsimp only
  rw [hface]

/-- Over the real numbers every angle has a normal form.  It is the one number that represents the
angle; it is also that of the angle and any whole turns, which a pose faces just as well, and it is
its own normal form. -/
theorem normalizeAngle_represents (angle : ℝ) :
    ∃ result, normalizeAngle angle = .ok result ∧
      (∀ other, Represents other angle ↔ other = result) ∧
      (∀ turns : Int, normalizeAngle (angle + 2 * π * turns) = .ok result) ∧
      normalizeAngle result = .ok result ∧
      ∀ (pose : Pose ℝ) (vector : ℝ × ℝ) (turns : Int),
        pose.advance vector (angle + 2 * π * turns) =
          (⟨(pose.position.1 + vector.1, pose.position.2 + vector.2), result⟩, none) := by
  have hrepresents := represents_canonical angle
  refine ⟨canonical angle, normalizeAngle_eq angle, ?_, ?_, ?_, ?_⟩
  · intro other
    constructor
    · intro hother
      exact hother.canonical_eq.symm
    · rintro rfl
      exact hrepresents
  · intro turns
    exact normalizeAngle_eq_ok_iff.mpr (hrepresents.add_turns turns)
  · exact normalizeAngle_eq_ok_iff.mpr hrepresents.self
  · intro pose vector turns
    exact (hrepresents.add_turns turns).advance_eq pose vector

end PenRover
