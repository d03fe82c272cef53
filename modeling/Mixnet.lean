import Mixnet.FinishRealtime
import Mixnet.InvariantLog
import Mixnet.Json.Reader
import Mixnet.Json.Request
import Mixnet.Json.Stored
import Mixnet.Kernel.Blinding
import Mixnet.Node.Settle
import Mixnet.Proofs.Completion
import Mixnet.Proofs.Finished
import Mixnet.Proofs.Gate
import Mixnet.Proofs.InputCompleteness
import Mixnet.Proofs.Passage
import Mixnet.Proofs.Rejection
import Mixnet.Proofs.Regrouping
import Mixnet.Proofs.Reachability
import Mixnet.Proofs.Processing
import Mixnet.Proofs.Planning
import Mixnet.Proofs.Containment
import Mixnet.Proofs.Gathering
import Mixnet.Proofs.Handoff
import Mixnet.Proofs.Edges
import Mixnet.Proofs.Rounding
import Mixnet.Proofs.Withholding
import Mixnet.Proofs.Decline
import Mixnet.Proofs.Termination
import Mixnet.Proofs.Standstill
import Mixnet.Proofs.Upkeep
import Mixnet.Proofs.Erasure
import Mixnet.Proofs.WireForm
import Mixnet.Proofs.Permutation
import Mixnet.Proofs.Padding
import Mixnet.Proofs.Multiples
import Mixnet.Proofs.Bounds
import Mixnet.Proofs.Confinement
import Mixnet.Proofs.Connecting
import Mixnet.Proofs.Excess
import Mixnet.Proofs.Construction
import Mixnet.Proofs.Cancellation
import Mixnet.Proofs.Ring
import Mixnet.Proofs.Contiguity
import Mixnet.Proofs.Crowding
