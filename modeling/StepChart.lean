import StepChart.Main
import StepChart.Run.FileSystem
import StepChart.Syntax.Size
import StepChart.Proofs.Handlers.Gift
import StepChart.Proofs.Handlers.Passes
import StepChart.Proofs.Handlers.Schedule
import StepChart.Proofs.Handlers.LeastFamily
import StepChart.Proofs.Machine.Registration
import StepChart.Proofs.Handlers.InheritingEdges
import StepChart.Proofs.Trace.Environment
import StepChart.Proofs.Trace.ReturnSites
import StepChart.Proofs.Trace.ReachedReturns
import StepChart.Proofs.Syntax.Everywhere
import StepChart.Proofs.Naming.Outlines
import StepChart.Proofs.Naming.Steps
import StepChart.Proofs.Machine.Graph
import StepChart.Proofs.Naming.InnerSteps
import StepChart.Proofs.Trace.ScopeChain
import StepChart.Proofs.Handlers.Stability
import StepChart.Proofs.Machine.Visits
import StepChart.Proofs.Machine.Relabel
import StepChart.Proofs.Trace.Wording
import StepChart.Proofs.Diagram.Aliases
import StepChart.Proofs.Diagram.Arrows
import StepChart.Proofs.Diagram.Documents
import StepChart.Proofs.Diagram.Graphs
import StepChart.Proofs.Syntax.Fields
import StepChart.Proofs.Trace.Fields
import StepChart.Proofs.Trace.Qualifier
import StepChart.Proofs.Go.Lexemes
import StepChart.Proofs.Syntax.Inside
import StepChart.Proofs.Go.Places
import StepChart.Proofs.Go.Comments
import StepChart.Proofs.Go.Blanking
import StepChart.Proofs.Machine.Apart
import StepChart.Proofs.Machine.Reordering
import StepChart.Proofs.Diagram.EmptyDocuments
import StepChart.Proofs.Naming.Duplicates
import StepChart.Proofs.Run.AllOrNothing
import StepChart.Proofs.Diagram.Console
import StepChart.Proofs.Naming.Destinations
import StepChart.Proofs.Trace.Depth
import StepChart.Proofs.Trace.Siblings
import StepChart.Proofs.Trace.Subroutines
import StepChart.Proofs.Trace.Termination
import StepChart.Proofs.Trace.Unresolved
import StepChart.Proofs.Trace.Overriding
import StepChart.Proofs.Trace.HandlerLiterals
import StepChart.Proofs.Step.JoinedConditions
import StepChart.Proofs.Trace.Aliasing
import StepChart.Proofs.Trace.Usages
import StepChart.Proofs.Guard.Forms
import StepChart.Proofs.Guard.Overflow
import StepChart.Proofs.Step.JoinedOperations
import StepChart.Proofs.Trace.Recognition
import StepChart.Proofs.Diagram.PhysicalLines
import StepChart.Proofs.Guard.Filling
import StepChart.Proofs.Run.Inputs
import StepChart.Proofs.Handlers.Termination
import StepChart.Proofs.Machine.Lookup
import StepChart.Proofs.Run.Ancestors
import StepChart.Proofs.Run.Resolution
import StepChart.Proofs.Trace.BlankImports
