import PenRover.Drawing.Plan
import PenRover.Proofs.Numeric.Exact

/-!
# Lines to points and along vectors

A line is drawn to a point or along a vector, and each can be rewritten as the other when one knows
where it starts.  Whether a plan shows the difference depends on the arithmetic: the vector to a
point is a difference of the point and the position of the robot, and the position is a sum of
vectors, so both have to be exact, or the bookkeeping drifts.

What is needed of an arithmetic is collected in `ExactGrid`, for the integers up to some size.  Then
the robot stands on a point of integers before and after every line (`ExactGrid.step`), and along a
whole drawing it makes no difference which of the lines are rewritten (`ExactGrid.sameLines_walk`).
-/

namespace PenRover

open Arithmetic

/-- A line to a point or along a vector. -/
inductive Line where
  | toPoint (x y : Int)
  | along (dx dy : Int)
  deriving DecidableEq, Repr

namespace Line

/-- The command that draws the line. -/
def command : Line → Command
  | toPoint x y => .lineTo x y
  | along dx dy => .lineBy dx dy

/-- The point that the line reaches from a point. -/
def target (p : Int × Int) : Line → Int × Int
  | toPoint x y => (x, y)
  | along dx dy => (p.1 + dx, p.2 + dy)

/-- The vector that the line covers from a point. -/
def vector (p : Int × Int) : Line → Int × Int
  | toPoint x y => (x - p.1, y - p.2)
  | along dx dy => (dx, dy)

/-- The same line written the other way: along the vector that it covers, or to the point that it
reaches. -/
def rewritten (p : Int × Int) : Line → Line
  | toPoint x y => along (x - p.1) (y - p.2)
  | along dx dy => toPoint (p.1 + dx) (p.2 + dy)

/-- The lines of a drawing from a point, those at the chosen places written the other way. -/
def redraw (chosen : Nat → Bool) (p : Int × Int) : List Line → List Line
  | [] => []
  | line :: rest =>
    (if chosen 0 then line.rewritten p else line) ::
      redraw (fun place => chosen (place + 1)) (line.target p) rest

/-- The points that the lines reach and the vectors that they cover have fitting coordinates. -/
def Within (fits : Int → Prop) (p : Int × Int) : List Line → Prop
  | [] => True
  | line :: rest =>
    ((fits (line.target p).1 ∧ fits (line.target p).2) ∧
      fits (line.vector p).1 ∧ fits (line.vector p).2) ∧ Within fits (line.target p) rest

/-- What holds of all integers holds of all coordinates. -/
lemma within_of_forall {fits : Int → Prop} (h : ∀ n, fits n) (p : Int × Int) (lines : List Line) :
    Within fits p lines := by
  induction lines generalizing p with
  | nil => trivial
  | cons line rest ih => exact ⟨⟨⟨h _, h _⟩, h _, h _⟩, ih _⟩

variable (p : Int × Int) (line : Line)

/-- A line reaches its point from the start along its vector. -/
lemma target_eq : line.target p = (p.1 + (line.vector p).1, p.2 + (line.vector p).2) := by
  cases line with
  | toPoint x y => simp only [target, vector, add_sub_cancel]
  | along dx dy => rfl

/-- A line that is written the other way covers the same vector. -/
lemma vector_rewritten : (line.rewritten p).vector p = line.vector p := by
  cases line with
  | toPoint x y => rfl
  | along dx dy => simp only [rewritten, vector, add_sub_cancel_left]

end Line

variable {α : Type} [Arithmetic α]

/-- Two plans take the same step when they draw a line from a point and a pose: the step covers the
vector of the line, and ends at its target.  A line of no length does not turn the robot.  The
coordinates, which may be exact or measured, are compared with integers by `is`. -/
structure SameStep (is : α → Int → Prop) (before : Pose α) (p : Int × Int) (line : Line)
    (step step' : PlanStep α) : Prop where
  turn_eq : step'.displacement.turn = step.displacement.turn
  distance_eq : step'.displacement.distance = step.displacement.distance
  heading_eq : step'.displacement.heading = step.displacement.heading
  vector_is : is step.displacement.vector.1 (line.vector p).1 ∧
    is step.displacement.vector.2 (line.vector p).2
  vector_is' : is step'.displacement.vector.1 (line.vector p).1 ∧
    is step'.displacement.vector.2 (line.vector p).2
  pose_eq : step'.pose = step.pose
  position_is : is step.pose.position.1 (line.target p).1 ∧
    is step.pose.position.2 (line.target p).2
  still : line.vector p = (0, 0) → step.displacement.turn = whole 0 ∧
    step.displacement.distance = whole 0 ∧ step.displacement.heading = before.heading

/-- Two plans take the same steps when they draw lines from a point and a pose. -/
inductive SameSteps (is : α → Int → Prop) :
    Pose α → Int × Int → List Line → List (PlanStep α) → List (PlanStep α) → Prop
  | nil (before : Pose α) (p : Int × Int) : SameSteps is before p [] [] []
  | cons {before : Pose α} {p : Int × Int} {line : Line} {rest : List Line}
      {step step' : PlanStep α} {steps steps' : List (PlanStep α)}
      (first : SameStep is before p line step step')
      (others : SameSteps is step.pose (line.target p) rest steps steps') :
      SameSteps is before p (line :: rest) (step :: steps) (step' :: steps')

/-- Two plans draw all of the lines, with the same steps. -/
structure SameLines (is : α → Int → Prop) (before : Pose α) (p : Int × Int) (lines : List Line)
    (plan plan' : Plan α) : Prop where
  complete : plan.failure = none
  complete' : plan'.failure = none
  steps : SameSteps is before p lines plan.steps plan'.steps

/-- A point of integers as a position. -/
def wholePoint (p : Int × Int) : α × α := (whole p.1, whole p.2)

/-- The arithmetic is exact on the integers that fit, and the direction of such a vector does not
depend on whether its coordinates are measured.  A robot that faces as it should can always turn to
it, and faces as it should then. -/
structure ExactGrid (α : Type) [Arithmetic α] (fits : Int → Prop) (is : α → Int → Prop)
    (faces : α → Prop) : Prop where
  is_exact {n : Int} : fits n → is (exact n) n
  is_whole {n : Int} : fits n → is (whole n) n
  sub_whole {m n : Int} : fits m → fits n → fits (m - n) →
    sub (exact m : α) (whole n) = .ok (whole (m - n))
  add_whole {m n : Int} : fits m → fits n → fits (m + n) →
    add (whole m : α) (whole n) = .ok (whole (m + n))
  add_exact {m n : Int} : fits m → fits n → fits (m + n) →
    add (whole m : α) (exact n) = .ok (whole (m + n))
  toPolar_whole {m n : Int} : fits m → fits n →
    toPolar (whole m : α) (whole n) = toPolar (exact m) (exact n)
  towards_zero (pose : Pose α) : Command.towards pose (exact 0) (exact 0) =
    .ok ⟨whole 0, whole 0, (exact 0, exact 0), pose.heading⟩
  exists_towards {pose : Pose α} {m n : Int} : faces pose.heading → fits m → fits n →
    ∃ displacement next, Command.towards pose (exact m) (exact n) = .ok displacement ∧
      normalizeAngle displacement.heading = .ok next ∧ faces next

/-! ### One line -/

/-- The plan of a command that succeeds begins with its step. -/
lemma Plan.walk_cons_of_ok {command : Command} {rest : List Command} {pose next : Pose α}
    {displacement : Displacement α} (hdisplacement : command.displacement pose = .ok displacement)
    (hadvance : pose.advance displacement.vector displacement.heading = (next, none)) :
    Plan.walk pose (command :: rest) =
      { Plan.walk next rest with
        steps := ⟨command, displacement, next⟩ :: (Plan.walk next rest).steps } := by
  simp only [Plan.walk, hdisplacement, hadvance]

/-- The displacement along a vector depends on its direction only. -/
lemma Command.towards_of_toPolar {pose : Pose α} {dx dy dx' dy' : α} {displacement : Displacement α}
    (hpolar : toPolar dx' dy' = toPolar dx dy)
    (h : Command.towards pose dx dy = .ok displacement) :
    Command.towards pose dx' dy' = .ok { displacement with vector := (dx', dy') } := by
  obtain ⟨⟨phi, r⟩, hvector, h⟩ := bind_eq_ok.mp h
  refine bind_eq_ok.mpr ⟨(phi, r), hpolar.trans hvector, ?_⟩
  dsimp only at h ⊢
  split at h
  next hshort =>
    rw [if_pos hshort]
    obtain rfl := Except.ok.inj h
    rfl
  next hlong =>
    rw [if_neg hlong]
    obtain ⟨difference, hdifference, h⟩ := bind_eq_ok.mp h
    obtain ⟨turn, hturn, h⟩ := bind_eq_ok.mp h
    obtain rfl := Except.ok.inj h
    exact bind_eq_ok.mpr ⟨difference, hdifference, bind_eq_ok.mpr ⟨turn, hturn, rfl⟩⟩

namespace Line

/-- The coordinates of the vector that a line covers, as its displacement has them. -/
def coordinates (p : Int × Int) (line : Line) : α × α :=
  match line with
  | toPoint .. => wholePoint (line.vector p)
  | along .. => (exact (line.vector p).1, exact (line.vector p).2)

end Line

namespace ExactGrid

variable {fits : Int → Prop} {is : α → Int → Prop} {faces : α → Prop}
  (grid : ExactGrid α fits is faces) {pose : Pose α} {p : Int × Int} {line : Line}

section Coordinates

variable (hvector : fits (line.vector p).1 ∧ fits (line.vector p).2)

include grid hvector

/-- The coordinates of a line stand for its vector. -/
lemma is_coordinates : is (line.coordinates p).1 (line.vector p).1 ∧
    is (line.coordinates p).2 (line.vector p).2 := by
  cases line with
  | toPoint x y => exact ⟨grid.is_whole hvector.1, grid.is_whole hvector.2⟩
  | along dx dy => exact ⟨grid.is_exact hvector.1, grid.is_exact hvector.2⟩

/-- The polar coordinates of a line are those of its vector. -/
lemma toPolar_coordinates : toPolar (line.coordinates p : α × α).1 (line.coordinates p).2 =
    toPolar (exact (line.vector p).1) (exact (line.vector p).2) := by
  cases line with
  | toPoint x y => exact grid.toPolar_whole hvector.1 hvector.2
  | along dx dy => rfl

variable (hposition : pose.position = wholePoint p) (hp : fits p.1 ∧ fits p.2)
  (htarget : fits (line.target p).1 ∧ fits (line.target p).2)

include hposition hp htarget

/-- The displacement of a line is that along its vector. -/
lemma displacement_command : line.command.displacement pose =
    Command.towards pose (line.coordinates p).1 (line.coordinates p).2 := by
  cases line with
  | toPoint x y =>
    have hx : sub (exact x) pose.position.1 = .ok (whole (x - p.1)) := by
      rw [hposition]
      exact grid.sub_whole htarget.1 hp.1 hvector.1
    have hy : sub (exact y) pose.position.2 = .ok (whole (y - p.2)) := by
      rw [hposition]
      exact grid.sub_whole htarget.2 hp.2 hvector.2
    simp only [Line.command, Command.displacement]
    rw [hx, hy]
    rfl
  | along dx dy => rfl

/-- The vector of a line moves the robot to its target. -/
lemma move_coordinates :
    pose.move (line.coordinates p) = .ok { pose with position := wholePoint (line.target p) } := by
  have hsum := line.target_eq p
  rw [hsum] at htarget
  have hx : add pose.position.1 (line.coordinates p).1 = .ok (whole (p.1 + (line.vector p).1)) := by
    rw [hposition]
    cases line with
    | toPoint x y => exact grid.add_whole hp.1 hvector.1 htarget.1
    | along dx dy => exact grid.add_exact hp.1 hvector.1 htarget.1
  have hy : add pose.position.2 (line.coordinates p).2 = .ok (whole (p.2 + (line.vector p).2)) := by
    rw [hposition]
    cases line with
    | toPoint x y => exact grid.add_whole hp.2 hvector.2 htarget.2
    | along dx dy => exact grid.add_exact hp.2 hvector.2 htarget.2
  unfold Pose.move
  rw [hx, hy, hsum]
  rfl

end Coordinates

include grid

/-- A line takes the robot from a point to its target, in one step that is the same however the line
is written. -/
theorem step (hface : faces pose.heading) (hposition : pose.position = wholePoint p)
    (hp : fits p.1 ∧ fits p.2) (htarget : fits (line.target p).1 ∧ fits (line.target p).2)
    (hvector : fits (line.vector p).1 ∧ fits (line.vector p).2) :
    ∃ (displacement : Displacement α) (next : Pose α),
      faces next.heading ∧ next.position = wholePoint (line.target p) ∧
      (line.vector p = (0, 0) → displacement.turn = whole 0 ∧ displacement.distance = whole 0 ∧
        displacement.heading = pose.heading) ∧
      ∀ line' : Line, line'.vector p = line.vector p →
        line'.command.displacement pose =
            .ok { displacement with vector := line'.coordinates p } ∧
          pose.advance (line'.coordinates p) displacement.heading = (next, none) := by
  obtain ⟨displacement, heading, htowards, hheading, hnext⟩ :=
    grid.exists_towards hface hvector.1 hvector.2
  refine ⟨displacement, ⟨wholePoint (line.target p), heading⟩, hnext, rfl, ?_, ?_⟩
  · intro hzero
    rw [hzero, grid.towards_zero pose] at htowards
    obtain rfl := Except.ok.inj htowards
    exact ⟨rfl, rfl, rfl⟩
  · intro line' hsame
    have htarget' : line'.target p = line.target p := by
      rw [line'.target_eq, hsame, ← line.target_eq]
    rw [← hsame] at htowards hvector
    rw [← htarget'] at htarget ⊢
    constructor
    · rw [grid.displacement_command hvector hposition hp htarget]
      exact Command.towards_of_toPolar (grid.toPolar_coordinates hvector) htowards
    · have hmove := grid.move_coordinates hvector hposition hp htarget
      have hturned : Pose.face { pose with position := wholePoint (line'.target p) }
          displacement.heading = .ok ⟨wholePoint (line'.target p), heading⟩ :=
        bind_eq_ok.mpr ⟨heading, hheading, rfl⟩
      simp only [Pose.advance, hmove, hturned]

/-! ### Drawings -/

/-- However the lines of a drawing are written, a plan draws all of them with the same steps. -/
theorem sameLines_walk (lines : List Line) (chosen : Nat → Bool) (hface : faces pose.heading)
    (hposition : pose.position = wholePoint p) (hp : fits p.1 ∧ fits p.2)
    (hlines : Line.Within fits p lines) :
    SameLines is pose p lines (Plan.walk pose (lines.map Line.command))
      (Plan.walk pose ((Line.redraw chosen p lines).map Line.command)) := by
  induction lines generalizing chosen pose p with
  | nil => exact ⟨rfl, rfl, .nil pose p⟩
  | cons line rest ih =>
    obtain ⟨⟨htarget, hvector⟩, hrest⟩ := hlines
    obtain ⟨displacement, next, hnext, hreached, hstill, hwritten⟩ :=
      grid.step hface hposition hp htarget hvector
    obtain ⟨line', hline'⟩ : ∃ line', line' = if chosen 0 then line.rewritten p else line :=
      ⟨_, rfl⟩
    have hsame : line'.vector p = line.vector p := by
      rw [hline']
      split
      · exact line.vector_rewritten p
      · rfl
    obtain ⟨hfound, hadvance⟩ := hwritten line rfl
    obtain ⟨hfound', hadvance'⟩ := hwritten line' hsame
    obtain ⟨hcomplete, hcomplete', hsteps⟩ :=
      ih (fun place => chosen (place + 1)) hnext hreached htarget hrest
    rw [Line.redraw, ← hline', List.map_cons, List.map_cons,
      Plan.walk_cons_of_ok hfound hadvance, Plan.walk_cons_of_ok hfound' hadvance']
    refine ⟨hcomplete, hcomplete', .cons ?_ hsteps⟩
    exact {
      turn_eq := rfl
      distance_eq := rfl
      heading_eq := rfl
      vector_is := grid.is_coordinates hvector
      vector_is' := by
        rw [← hsame] at hvector ⊢
        exact grid.is_coordinates hvector
      pose_eq := rfl
      position_is := by
        rw [hreached]
        exact ⟨grid.is_whole htarget.1, grid.is_whole htarget.2⟩
      still := hstill }

end ExactGrid

end PenRover
