import PenRover.Proofs.Geometry.Plane

/-!
# Polar coordinates and back

A vector is brought into polar coordinates and read back from them.  The arc cosine gives directions
above the first axis only, so the direction of a vector below the axis has to be reflected, and it
is when the vector lies below by more than the tolerance.  A vector of the strip between the axis
and the tolerance below it is not reflected: it comes back from the other side of the axis.

Over the real numbers this is all that happens (`polarImage_eq`).  The second coordinate is then off
by twice its size, which is more than the tolerance in the lower half of the strip
(`givesBack_iff`).
-/

namespace PenRover

open Arithmetic Plane

section Definitions

variable {α : Type} [Arithmetic α]

/-- The vector that is read back from the polar coordinates of a vector. -/
def polarImage (dx dy : α) : Except Fault (α × α) := do
  let (phi, r) ← toPolar dx dy
  ofPolar phi r

/-- Whether two quantities are within the tolerance of each other. -/
def near (a b : α) : Bool :=
  match sub a b with
  | .ok gap => upTo (neg tolerance) gap && upTo gap tolerance
  | .error _ => false

/-- Whether a vector comes back from its polar coordinates, each coordinate within the tolerance. -/
def givesBack (dx dy : α) : Bool :=
  match polarImage dx dy with
  | .ok (x, y) => near x dx && near y dy
  | .error _ => false

end Definitions

/-! ### The strip below the axis -/

variable {dx dy : ℝ}

/-- Two reals are near when they are within the tolerance. -/
lemma near_iff (a b : ℝ) : near a b = true ↔ |a - b| ≤ tolerance := by
  simp only [near, sub_eq, neg_eq, Bool.and_eq_true, upTo_eq_true_iff]
  exact abs_le.symm

/-- A vector comes back as it is, or from the other side of the axis when it lies in the strip. -/
lemma polarImage_eq (h : tolerance < radius dx dy) :
    polarImage dx dy = .ok (dx, if -tolerance ≤ dy ∧ dy < 0 then -dy else dy) := by
  have hpolar : polarImage dx dy = ofPolar (direction dx dy) (radius dx dy) := by
    rw [polarImage, toPolar_eq h]
    exact ok_bind _ _
  have hpos := tolerance_pos
  rw [hpolar, ofPolar_direction (hpos.trans h)]
  by_cases hbelow : dy < -tolerance
  · rw [if_pos hbelow, if_neg fun hstrip => hbelow.not_ge hstrip.1, abs_of_neg (by linarith),
      neg_neg]
  rw [if_neg hbelow]
  by_cases hstrip : dy < 0
  · rw [if_pos ⟨not_lt.mp hbelow, hstrip⟩, abs_of_neg hstrip]
  · rw [if_neg fun h => hstrip h.2, abs_of_nonneg (not_lt.mp hstrip)]

/-- A vector comes back within the tolerance unless it lies in the lower half of the strip. -/
lemma givesBack_iff (h : tolerance < radius dx dy) :
    givesBack dx dy = true ↔ dy < -tolerance ∨ -tolerance / 2 ≤ dy := by
  have hpos := tolerance_pos
  rw [givesBack, polarImage_eq h]
  simp only [Bool.and_eq_true, near_iff, sub_self, abs_zero, hpos.le, true_and]
  split_ifs with hstrip
  · rw [abs_of_nonneg (by linarith)]
    constructor
    · intro hgap
      right
      linarith
    · rintro (hbelow | hupper) <;> linarith
  · rw [sub_self, abs_zero]
    refine iff_of_true hpos.le ?_
    by_contra hlower
    have hlow : -tolerance ≤ dy := not_lt.mp fun hbelow => hlower (.inl hbelow)
    have hhigh : dy < -tolerance / 2 := not_le.mp fun hupper => hlower (.inr hupper)
    apply hstrip
    exact ⟨hlow, by linarith⟩

/-- A vector of the lower half of the strip is beyond the tolerance. -/
lemma tolerance_lt_radius_strip : tolerance < radius 1 (-9 / 10000) :=
  calc tolerance < (1 : ℝ) := by
        rw [tolerance_eq]
        norm_num
    _ = |1| := abs_one.symm
    _ ≤ radius 1 (-9 / 10000) := abs_le_radius 1 _

/-- Over the real numbers, a vector beyond the tolerance has polar coordinates, with its length, and
comes back from them as it is unless it lies in the strip, and then from the other side of the axis.
So it comes back within the tolerance except from the lower half of the strip. -/
theorem ofPolar_toPolar (dx dy : ℝ) (h : tolerance < radius dx dy) :
    (∃ phi, toPolar dx dy = .ok (phi, radius dx dy) ∧
      ofPolar phi (radius dx dy) =
        .ok (dx, if -tolerance ≤ dy ∧ dy < 0 then -dy else dy)) ∧
      (givesBack dx dy = true ↔ dy < -tolerance ∨ -tolerance / 2 ≤ dy) := by
  have himage := polarImage_eq h
  rw [polarImage, toPolar_eq h] at himage
  exact ⟨⟨direction dx dy, toPolar_eq h, himage⟩, givesBack_iff h⟩

/-- A vector just below the axis comes back reflected, by more than the tolerance. -/
theorem ofPolar_toPolar_strip :
    tolerance < radius 1 (-9 / 10000) ∧
      (∃ phi, toPolar 1 (-9 / 10000) = .ok (phi, radius 1 (-9 / 10000)) ∧
        ofPolar phi (radius 1 (-9 / 10000)) = .ok (1, -(-9 / 10000))) ∧
      ¬givesBack (1 : ℝ) (-9 / 10000) = true := by
  obtain ⟨himage, hback⟩ := ofPolar_toPolar 1 (-9 / 10000) tolerance_lt_radius_strip
  have hstrip : -tolerance ≤ (-9 / 10000 : ℝ) ∧ (-9 / 10000 : ℝ) < 0 := by
    rw [tolerance_eq]
    norm_num
  rw [if_pos hstrip] at himage
  refine ⟨tolerance_lt_radius_strip, himage, ?_⟩
  rw [hback, tolerance_eq]
  norm_num

/-- A vector of the lower half of the strip that does not come back within the tolerance, neither
over the real numbers nor on doubles. -/
theorem not_givesBack_strip :
    (tolerance < radius 1 (-9 / 10000) ∧ givesBack (1 : ℝ) (-9 / 10000) = false) ∧
      toPolar (.double 1 : Number) (.double (-0.0009)) =
        .ok (.double 0.0008999997569923699, .double 1.000000404999918) ∧
      polarImage (.double 1 : Number) (.double (-0.0009)) =
        .ok (.double 1, .double 0.0008999999999922519) ∧
      givesBack (.double 1 : Number) (.double (-0.0009)) = false := by
  refine ⟨⟨tolerance_lt_radius_strip, ?_⟩, by decide +kernel⟩
  rw [← Bool.not_eq_true, givesBack_iff tolerance_lt_radius_strip, tolerance_eq]
  norm_num

end PenRover
