import PenRover.Proofs.Drawing.Lines
import PenRover.Proofs.Geometry.Directions
import PenRover.Proofs.Geometry.RelativeLines

/-!
# Absolute and relative lines

A line to a point and the line along the vector to it are interchangeable in every drawing of such
lines (`Plan.lines_interchangeable`): over the real numbers, where all integers are exact
(`Plane.exactGrid`), and on doubles as long as the coordinates of all points and vectors stay below
`2 ^ 26`, so that the sum of the squares of two of them is exact too (`Machine.exactGrid`).  There
the turns, distances, headings and positions are the same doubles, and the vectors, which are
integers along a vector and doubles to a point, are the same numbers.
-/

namespace PenRover

open Arithmetic

namespace Plane

/-- The zero vector has no length, and keeps the heading. -/
lemma towards_zero (pose : Pose ℝ) : Command.towards pose (exact 0) (exact 0) =
    .ok ⟨whole 0, whole 0, (exact 0, exact 0), pose.heading⟩ := by
  have hroot : sqrt (0 * 0 + 0 * 0 : ℝ) = .ok 0 := by
    rw [sqrt_eq (by norm_num), mul_zero, add_zero, Real.sqrt_zero]
  have hshort : ¬below tolerance (0 : ℝ) = true := by
    rw [below_eq_true_iff]
    exact tolerance_pos.not_gt
  have hpolar : toPolar (exact 0 : ℝ) (exact 0) = .ok (whole 0, 0) := by
    simp only [toPolar, exact_eq, Int.cast_zero, mul_eq, add_eq, ok_bind, hroot]
    rw [if_neg hshort]
    rfl
  refine bind_eq_ok.mpr ⟨_, hpolar, if_pos ?_⟩
  rw [upTo_eq_true_iff]
  exact tolerance_pos.le

/-- Over the real numbers all integers are exact. -/
lemma exactGrid : ExactGrid ℝ (fun _ => True) (fun a n => a = n) (fun _ => True) where
  is_exact _ := rfl
  is_whole _ := rfl
  sub_whole _ _ _ := by rw [exact_eq, whole_eq, whole_eq, sub_eq, Int.cast_sub]
  add_whole _ _ _ := by rw [whole_eq, whole_eq, whole_eq, add_eq, Int.cast_add]
  add_exact _ _ _ := by rw [exact_eq, whole_eq, whole_eq, add_eq, Int.cast_add]
  toPolar_whole _ _ := rfl
  towards_zero := towards_zero
  exists_towards := by
    intro pose m n _ _ _
    by_cases hzero : (m, n) = (0, 0)
    · obtain ⟨rfl, rfl⟩ := Prod.mk.inj hzero
      exact ⟨_, _, towards_zero pose, normalizeAngle_eq _, trivial⟩
    · exact ⟨_, _, displacement_lineBy pose hzero, normalizeAngle_eq _, trivial⟩

end Plane

namespace Machine

/-- On doubles the integers below `2 ^ 26` are exact, and so are their squares. -/
lemma exactGrid : ExactGrid Number (fun n => |n| < 2 ^ 26) (fun a n => a.value? = some (n : ℚ))
    IsHeading where
  is_exact _ := rfl
  is_whole hn := value?_whole (abs_lt_of_moderate hn)
  sub_whole hm hn h :=
    sub_exact_whole (abs_lt_of_moderate hm) (abs_lt_of_moderate hn) (abs_lt_of_moderate h)
  add_whole hm hn h :=
    add_whole_whole (abs_lt_of_moderate hm) (abs_lt_of_moderate hn) (abs_lt_of_moderate h)
  add_exact hm hn h := (add_double_whole (abs_lt_of_moderate hn) _).trans
    (add_whole_whole (abs_lt_of_moderate hm) (abs_lt_of_moderate hn) (abs_lt_of_moderate h))
  toPolar_whole hm hn := toPolar_whole hm hn
  towards_zero pose := by
    have hpolar : toPolar (exact 0 : Number) (exact 0) = .ok (whole 0, whole 0) := by
      decide +kernel
    exact bind_eq_ok.mpr ⟨_, hpolar, rfl⟩
  exists_towards := by
    intro pose m n hpose hm hn
    obtain ⟨displacement, next, htowards, hnext, hheading⟩ :=
      exists_towards hpose (Float.ofInt m) (Float.ofInt n)
    exact ⟨_, next, Command.towards_of_toPolar (toPolar_whole hm hn).symm htowards, hnext,
      hheading⟩

end Machine

/-- In a drawing of lines to points and along vectors, any of the former can be rewritten along the
vectors that they cover, and any of the latter to the points that they reach: the plan draws all
lines with the same steps.  This holds over the real numbers, and on doubles as long as the
coordinates of all points and vectors stay below `2 ^ 26`. -/
theorem Plan.lines_interchangeable (lines : List Line) (chosen : Nat → Bool) :
    SameLines (fun (a : ℝ) n => a = n) Pose.start (0, 0) lines
        (Plan.walk Pose.start (lines.map Line.command))
        (Plan.walk Pose.start ((Line.redraw chosen (0, 0) lines).map Line.command)) ∧
      (Line.Within (fun n => |n| < 2 ^ 26) (0, 0) lines →
        SameLines (fun (a : Number) n => a.value? = some (n : ℚ)) Pose.start (0, 0) lines
          (Plan.walk Pose.start (lines.map Line.command))
          (Plan.walk Pose.start ((Line.redraw chosen (0, 0) lines).map Line.command))) := by
  constructor
  · exact Plane.exactGrid.sameLines_walk lines chosen trivial rfl ⟨trivial, trivial⟩
      (Line.within_of_forall (fun _ => trivial) _ _)
  · intro hlines
    exact Machine.exactGrid.sameLines_walk lines chosen isHeading_start rfl
      ⟨by norm_num, by norm_num⟩ hlines

/-- A drawing with a line of no length, of which all lines but the last one are rewritten. -/
theorem Plan.lines_interchangeable_still :
    Line.Within (fun n => |n| < 2 ^ 26) (0, 0)
        [.along 3 4, .toPoint 3 4, .toPoint (-1) 4, .along 0 (-4)] ∧
      SameLines (fun (a : Number) n => a.value? = some (n : ℚ)) Pose.start (0, 0)
        [.along 3 4, .toPoint 3 4, .toPoint (-1) 4, .along 0 (-4)]
        (Plan.walk Pose.start [.lineBy 3 4, .lineTo 3 4, .lineTo (-1) 4, .lineBy 0 (-4)])
        (Plan.walk Pose.start [.lineTo 3 4, .lineBy 0 0, .lineBy (-4) 0, .lineBy 0 (-4)]) := by
  have hlines : Line.Within (fun n => |n| < 2 ^ 26) (0, 0)
      [.along 3 4, .toPoint 3 4, .toPoint (-1) 4, .along 0 (-4)] := by
    simp [Line.Within, Line.target, Line.vector]
  exact ⟨hlines, (Plan.lines_interchangeable _ (fun place => place != 3)).2 hlines⟩

end PenRover
