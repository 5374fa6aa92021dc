import LockExplorer.Main
import LockExplorer.Proofs.Action.RoundTrip
import LockExplorer.Proofs.CommandLine.Rerun
import LockExplorer.Proofs.Exploration.Alarms
import LockExplorer.Proofs.Exploration.Balanced
import LockExplorer.Proofs.Exploration.Coverage
import LockExplorer.Proofs.Exploration.HeldAtEnd
import LockExplorer.Proofs.Exploration.LockGraph
import LockExplorer.Proofs.Exploration.NeverReleased
import LockExplorer.Proofs.Exploration.OneResource
import LockExplorer.Proofs.Exploration.Renaming
import LockExplorer.Proofs.Exploration.TraceAndLog
import LockExplorer.Proofs.Exploration.Truncation
import LockExplorer.Proofs.Exploration.VerdictChange
import LockExplorer.Proofs.Ledger.Calls
import LockExplorer.Proofs.Orderings.InRange
import LockExplorer.Proofs.OwnershipCycle.Exactness
import LockExplorer.Proofs.OwnershipCycle.Nesting
import LockExplorer.Proofs.Run.Commutation
import LockExplorer.Proofs.Run.Composition
import LockExplorer.Proofs.Run.Transfer
import LockExplorer.Proofs.Scenario.FirstFault
import LockExplorer.Proofs.Scenario.RoundTrip
