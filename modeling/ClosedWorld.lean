import ClosedWorld.Main
import ClosedWorld.Proofs.Rerun
import ClosedWorld.Proofs.Primitives
import ClosedWorld.Proofs.Stripping
import ClosedWorld.Proofs.Resolution
import ClosedWorld.Proofs.Induction
import ClosedWorld.Proofs.Violations
import ClosedWorld.Proofs.Nesting
import ClosedWorld.Proofs.Reading
import ClosedWorld.Proofs.RoundTrip
import ClosedWorld.Proofs.Decoded
import ClosedWorld.Proofs.Scaling
import ClosedWorld.Proofs.Provenance
import ClosedWorld.Proofs.Output
import ClosedWorld.Proofs.Reports
import ClosedWorld.Proofs.Accounting
import ClosedWorld.Proofs.EntryTable
import ClosedWorld.Proofs.Names
import ClosedWorld.Proofs.Commuting
import ClosedWorld.Proofs.Chaining
import ClosedWorld.Proofs.Frame
import ClosedWorld.Proofs.Rearranging
import ClosedWorld.Proofs.Faults
import ClosedWorld.Proofs.Removals
import ClosedWorld.Proofs.Detection
import ClosedWorld.Proofs.Trusting
import ClosedWorld.Proofs.NameSets
import ClosedWorld.Proofs.EntrySteps
import ClosedWorld.Proofs.Modified
import ClosedWorld.Proofs.Keying
import ClosedWorld.Proofs.Overriding
import ClosedWorld.Proofs.Printing
import ClosedWorld.Proofs.Zeros
import ClosedWorld.Proofs.Uses
import ClosedWorld.Proofs.Session
