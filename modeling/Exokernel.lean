import Exokernel.Kernel.Call
import Exokernel.Kernel.History
import Exokernel.Kernel.Operation
import Exokernel.Memory.FlatMap
import Exokernel.Memory.Bytewise
import Exokernel.FramePool.History
import Exokernel.Proofs.Frames
import Exokernel.Proofs.Tables
import Exokernel.Proofs.Spaces
import Exokernel.Proofs.Slots
import Exokernel.Proofs.Calls
import Exokernel.Proofs.Conservation
import Exokernel.Proofs.Isolation
import Exokernel.Proofs.Rights
import Exokernel.Proofs.Turns
import Exokernel.Proofs.Failures
import Exokernel.Proofs.Fates
import Exokernel.Proofs.Messages
import Exokernel.Proofs.Waiting
import Exokernel.Proofs.Orders
import Exokernel.Proofs.Ownership
import Exokernel.Proofs.Entries
import Exokernel.Proofs.Refills
import Exokernel.Proofs.Channels
import Exokernel.Proofs.Mappings
import Exokernel.Proofs.Heap
import Exokernel.Proofs.Flows
import Exokernel.Proofs.Strokes
import Exokernel.Proofs.Ids
import Exokernel.Proofs.UserMode
import Exokernel.Proofs.Residue
import Exokernel.Proofs.Leaks
import Exokernel.Proofs.Commit
import Exokernel.Proofs.Coherence
import Exokernel.Proofs.Imprints
import Exokernel.Proofs.Running
import Exokernel.Proofs.Resuming
import Exokernel.Proofs.Snapshots
import Exokernel.Proofs.Breaks
import Exokernel.Proofs.FlatMap
import Exokernel.Proofs.Endings
import Exokernel.Proofs.Growth
import Exokernel.Proofs.Ranges
import Exokernel.Proofs.Stores
import Exokernel.Proofs.Counts
import Exokernel.Proofs.FreshPages
import Exokernel.Proofs.Sharing
import Exokernel.Proofs.Forks
import Exokernel.Proofs.Rotation
import Exokernel.Proofs.Allocator
import Exokernel.Proofs.Bytes
import Exokernel.Proofs.Copies
import Exokernel.Proofs.Pointers
import Exokernel.Proofs.Results
import Exokernel.Proofs.Layout
