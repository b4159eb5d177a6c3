import TimedOverlay.Main
import TimedOverlay.Proofs.Engine.Source
import TimedOverlay.Proofs.FilterGraph.RoundTrip
import TimedOverlay.Proofs.Job.Leniency
import TimedOverlay.Proofs.Job.Scaling
import TimedOverlay.Proofs.Job.Admission
import TimedOverlay.Proofs.Engine.Classification
import TimedOverlay.Proofs.Program.Composition
import TimedOverlay.Proofs.Program.Proper
import TimedOverlay.Proofs.Program.Inert
import TimedOverlay.Proofs.Console.DryRun
import TimedOverlay.Proofs.Engine.Arguments
import TimedOverlay.Proofs.Job.Opacity
import TimedOverlay.Proofs.Binary64.Overflow
import TimedOverlay.Proofs.Engine.Output
import TimedOverlay.Proofs.Job.Probing
import TimedOverlay.Proofs.Job.Lengths
import TimedOverlay.Proofs.Console.Drawing
import TimedOverlay.Proofs.Program.Gating
import TimedOverlay.Proofs.Job.Items
import TimedOverlay.Proofs.Job.Alike
import TimedOverlay.Proofs.Job.Respelling
import TimedOverlay.Proofs.Program.Depth
import TimedOverlay.Proofs.Program.Border
import TimedOverlay.Proofs.Program.Lines
import TimedOverlay.Proofs.Program.Layers
import TimedOverlay.Proofs.Program.Lettering
import TimedOverlay.Proofs.Decimal.Canonical
import TimedOverlay.Proofs.Job.Copying
import TimedOverlay.Proofs.FilterGraph.Escapes
import TimedOverlay.Proofs.Text.Folding
import TimedOverlay.Proofs.Text.Colors
import TimedOverlay.Proofs.Job.Preparation
import TimedOverlay.Proofs.Component.Restored
import TimedOverlay.Proofs.Settings.Partial
import TimedOverlay.Proofs.Console.Deadline
