import PenRover.Drawing.Command

/-!
# Plans

A plan walks a drawing without moving the robot.
-/

namespace PenRover

/-- One step of a plan: the command, its displacement, and the pose after it. -/
structure PlanStep (α : Type) where
  command : Command
  displacement : Displacement α
  pose : Pose α

/-- The steps of a drawing up to the first that fails; then also the fault, and the pose in which it
left the robot. -/
structure Plan (α : Type) where
  steps : List (PlanStep α)
  failure : Option (Fault × Pose α)

namespace Plan

variable {α : Type} [Arithmetic α]

/-- The plan of a drawing from a pose. -/
def walk (pose : Pose α) : List Command → Plan α
  | [] => ⟨[], none⟩
  | command :: rest =>
    match command.displacement pose with
    | .error fault => ⟨[], some (fault, pose)⟩
    | .ok displacement =>
      match pose.advance displacement.vector displacement.heading with
      | (next, some fault) => ⟨[], some (fault, next)⟩
      | (next, none) =>
        let plan := walk next rest
        { plan with steps := ⟨command, displacement, next⟩ :: plan.steps }

/-- The positions of a plan, the given first one included. -/
def path (origin : α × α) (plan : Plan α) : List (α × α) :=
  origin :: plan.steps.map fun step => step.pose.position

end Plan

end PenRover
