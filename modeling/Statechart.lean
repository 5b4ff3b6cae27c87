import Statechart.Main
import Statechart.Proofs.Path
import Statechart.Proofs.Tree.WellFormed
import Statechart.Proofs.Tree.Legal
import Statechart.Proofs.Tree.Defaults
import Statechart.Proofs.Tree.Completion
import Statechart.Proofs.Tree.Entry
import Statechart.Proofs.Definition
import Statechart.Proofs.Configuration
import Statechart.Proofs.Selection
import Statechart.Proofs.Transition
import Statechart.Proofs.Legality
import Statechart.Proofs.RootRegions
import Statechart.Proofs.OrthogonalTargets
import Statechart.Proofs.Interpreter.Trace
import Statechart.Proofs.Interpreter.Stages
import Statechart.Proofs.Interpreter.Atomicity
import Statechart.Proofs.Acceptance
import Statechart.Proofs.EntryAndExit
import Statechart.Proofs.Json.Text
import Statechart.Proofs.Entries
import Statechart.Proofs.Value.Reordered
import Statechart.Proofs.Value.Canonical
import Statechart.Proofs.Value.Digest
import Statechart.Proofs.Replay
import Statechart.Proofs.Value.Normal
import Statechart.Proofs.Report
import Statechart.Proofs.Interpreter.Reshaped
import Statechart.Proofs.Interpreter.Resolution
import Statechart.Proofs.Script
import Statechart.Proofs.Examples.TrafficLight
import Statechart.Proofs.Conflicts
import Statechart.Proofs.Examples.TrafficLight.Steps
import Statechart.Proofs.Examples.TrafficLight.Restarts
import Statechart.Proofs.Examples.Door
import Statechart.Proofs.Examples.Intersection
import Statechart.Proofs.Tree.DocumentOrder
import Statechart.Proofs.ActionOrder
import Statechart.Proofs.Independence
import Statechart.Proofs.RegionIsolation
import Statechart.Proofs.StartingPoint
import Statechart.Proofs.DottedPath
import Statechart.Proofs.Revealed
import Statechart.Proofs.Address
import Statechart.Proofs.Declared
import Statechart.Proofs.CopyOnWrite
import Statechart.Proofs.SelfTransition
import Statechart.Proofs.Interpreter.Batches
import Statechart.Proofs.Value.Recast
import Statechart.Proofs.Value.Idempotence
import Statechart.Proofs.Json.RoundTrip
import Statechart.Proofs.EventFile
import Statechart.Proofs.Text.Markup
import Statechart.Proofs.Text.Wrap
import Statechart.Proofs.Command
import Statechart.Proofs.Site
