import ArchFlow.Main
import ArchFlow.Proofs.Command.Run
import ArchFlow.Proofs.Flow.Finality
import ArchFlow.Proofs.Flow.Isolation
import ArchFlow.Proofs.Flow.Iteration
import ArchFlow.Proofs.Flow.Totality
import ArchFlow.Proofs.Flow.Via
import ArchFlow.Proofs.Graph.Flowchart
import ArchFlow.Proofs.Session.Depth
import ArchFlow.Proofs.Session.Exact
import ArchFlow.Proofs.Session.Redundancy
import ArchFlow.Proofs.Snapshot.DerivedIds
import ArchFlow.Proofs.TypeSet.Construction
