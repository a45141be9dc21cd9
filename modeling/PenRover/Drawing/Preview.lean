import PenRover.Drawing.Plan

/-!
# Previews

The preview of a drawing is a chart of the planned path.  Turns are planned exactly, so the chart
shows the intended drawing and not the quarter turns that the robot drives.
-/

namespace PenRover

/-- One plotted line: its points and its colour. -/
structure PlottedLine where
  points : List (Number × Number)
  colour : String

/-- A chart with its title, the names of its axes, its lines and its legend. -/
structure Chart where
  title : String
  axes : String × String
  lines : List PlottedLine
  legend : List String

/-- The chart of a drawing: its path, where it starts and where it ends. -/
def Drawing.preview (commands : List Command) : Except Fault Chart :=
  let plan : Plan Number := Plan.walk Pose.start commands
  match plan.failure with
  | some (fault, _) => .error fault
  | none =>
    let origin : Number × Number := Pose.start.position
    let path := plan.path origin
    .ok {
      title := "Planned drawing"
      axes := ("X", "Y")
      lines := [⟨path, "black"⟩, ⟨[origin], "green"⟩, ⟨[path.getLastD origin], "red"⟩]
      legend := ["Line", "Start", "End"] }

end PenRover
