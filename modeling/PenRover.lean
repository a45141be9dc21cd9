import PenRover.Dashboard.Reply
import PenRover.Main
import PenRover.Proofs.Motion.Course
import PenRover.Proofs.Geometry.Displacements
import PenRover.Proofs.Motion.Interruption
import PenRover.Proofs.Motion.Moderate
import PenRover.Proofs.Motion.Refinement
import PenRover.Proofs.Motion.Stranding
import PenRover.Proofs.Dashboard.Coherence
import PenRover.Proofs.Dashboard.Custody
import PenRover.Proofs.Drawing.Grammar
import PenRover.Proofs.Link.Delivery
import PenRover.Proofs.Link.Reconnection
import PenRover.Proofs.Link.Broadcast
import PenRover.Proofs.CommandLine.Agreement
import PenRover.Proofs.Settings.Persistence
import PenRover.Proofs.CommandLine.FrontEnds
import PenRover.Proofs.Dashboard.Atomicity
import PenRover.Proofs.Dashboard.Silence
import PenRover.Proofs.Geometry.RoundTrip
import PenRover.Proofs.Geometry.RelativeLines
import PenRover.Proofs.Geometry.Representatives
import PenRover.Proofs.Motion.QuarterTurns
import PenRover.Proofs.Motion.Supply
import PenRover.Proofs.Dashboard.Updates
import PenRover.Proofs.Dashboard.AtRest
import PenRover.Proofs.Settings.AllOrNothing
import PenRover.Proofs.Numeric.Overflow
import PenRover.Proofs.Motion.Requests
import PenRover.Proofs.Motion.Balance
import PenRover.Proofs.Geometry.Interchange
