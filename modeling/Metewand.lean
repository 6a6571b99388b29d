import Metewand.Archive.Soundness
import Metewand.RunStore.Documents
import Metewand.RunStore.Progress
import Metewand.RunStore.Registered
import Metewand.ArtifactStore.Convergence
import Metewand.Planning.Expansion
import Metewand.Planning.Preselection
import Metewand.Planning.Scheduling
import Metewand.Evidence.LocalTree
import Metewand.Buffered.FixedCount
import Metewand.Buffered.Sound
import Metewand.Buffered.Invariant
import Metewand.Buffered.Schedules
import Metewand.Run.Dispatch
import Metewand.Worker.Warmed
import Metewand.Protocol.Wire
import Metewand.Worker.Logs
import Metewand.Execution.Phases
import Metewand.Core.Timestamps
import Metewand.Worker.TreeAccounting
import Metewand.Export.Types
import Metewand.Core.SchemaResources
import Metewand.Export.Completeness
import Metewand.Inspection.Agreement
import Metewand.Publication.Race
import Metewand.RunStore.Identity
import Metewand.RunStore.Membership
import Metewand.RunStore.Clock
import Metewand.Output.AllOrNothing
import Metewand.Core.TypedIdentities
import Metewand.Core.ManifestSeparation
import Metewand.Execution.Composition
import Metewand.Run.FreshOrder
import Metewand.RunStore.Prediction
import Metewand.Buffered.Acceptance
