import CountedHeap.Scenario.Session
import CountedHeap.Proofs.Conservation
import CountedHeap.Proofs.References
import CountedHeap.Proofs.Buffers
import CountedHeap.Proofs.Finality
import CountedHeap.Proofs.Containment
import CountedHeap.Proofs.Fixed
import CountedHeap.Proofs.Cascade
import CountedHeap.Proofs.Swapping
import CountedHeap.Proofs.Shortage
import CountedHeap.Proofs.Shutdown
import CountedHeap.Proofs.Holdings
import CountedHeap.Proofs.Agreement
import CountedHeap.Proofs.Interchange
import CountedHeap.Proofs.Interleaving
import CountedHeap.Proofs.Frame
import CountedHeap.Proofs.Observation
import CountedHeap.Proofs.Poisoning
import CountedHeap.Proofs.Boxing
import CountedHeap.Proofs.Closures
import CountedHeap.Proofs.Custody
import CountedHeap.Proofs.ZeroSizes
import CountedHeap.Proofs.Outsourcing
import CountedHeap.Proofs.Substitution
import CountedHeap.Proofs.Workload
import CountedHeap.Proofs.Partings
import CountedHeap.Proofs.Releases
import CountedHeap.Proofs.Reordering
