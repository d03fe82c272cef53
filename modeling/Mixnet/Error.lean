import Mixnet.Phase.Kind
import Mixnet.Phase.State
import Mixnet.Span
import Mixnet.Topology

/-!
# Errors

An error refuses an operation or ends a round, and the node lives on.  Each part of the node has a
family of errors of its own; an error of one family can carry one of another as its cause.

## Main definitions

* `StreamError`, `KernelError`, `QueueError`, `TransportError`, `GraphError`, `RoundError`,
  `ConfigError`, `NodeError`: the families
* `kind` of a family: the name of an error's variant, joined by a dot with the kind of its cause
* `message` of a family: the text shown to an operator

## Design notes

A variant carries what its text needs and nothing else.  A variant that only passes on its cause
shows the text of the cause.
-/

namespace Mixnet

open Mixnet.Text

/-! ## Streams -/

/-- Errors of decoding or addressing the slots of a stream. -/
inductive StreamError where
  /-- The stream has no cells yet. -/
  | notLinked
  /-- The stream has no slot of that index. -/
  | indexOutOfRange (index size : Nat)
  /-- A payload is no element of the group. -/
  | notInGroup
  /-- A slot has the wrong form. -/
  | malformed (reason : String)
deriving DecidableEq

namespace StreamError

/-- The name of the variant. -/
def kind : StreamError → String
  | notLinked => "NotLinked"
  | indexOutOfRange .. => "IndexOutOfRange"
  | notInGroup => "NotInGroup"
  | malformed .. => "Malformed"

/-- The text of the error. -/
def message : StreamError → String
  | notLinked => "stream has not been linked to a round buffer"
  | indexOutOfRange index size => s!"slot index {index} outside stream of {size} slots"
  | notInGroup => "value is not an element of the cyclic group"
  | malformed reason => "malformed slot: " ++ reason

instance : Describe StreamError :=
  ⟨fun
    | indexOutOfRange index size =>
      record "IndexOutOfRange" [("index", describe index), ("size", describe size)]
    | malformed reason => wrapped "Malformed" [describe reason]
    | error => error.kind⟩

end StreamError

/-! ## Kernels -/

/-- Errors of the computation inside a module. -/
inductive KernelError where
  /-- The kernel was given a stream of another type. -/
  | streamMismatch (expected : String)
  /-- The kernel met a stream error. -/
  | stream (source : StreamError)
  /-- The kernel reported a failure. -/
  | failed (reason : String)
  /-- The kernel died. -/
  | panicked (reason : String)
deriving DecidableEq

namespace KernelError

/-- The name of the variant. -/
def kind : KernelError → String
  | streamMismatch .. => "StreamMismatch"
  | stream source => "Stream." ++ source.kind
  | failed .. => "Failed"
  | panicked .. => "Panicked"

/-- The text of the error. -/
def message : KernelError → String
  | streamMismatch expected => "kernel expects a " ++ expected ++ " stream"
  | stream source => source.message
  | failed reason => "kernel failed: " ++ reason
  | panicked reason => "kernel panicked: " ++ reason

instance : Describe KernelError :=
  ⟨fun
    | streamMismatch expected => record "StreamMismatch" [("expected", describe expected)]
    | stream source => wrapped "Stream" [describe source]
    | failed reason => wrapped "Failed" [describe reason]
    | panicked reason => wrapped "Panicked" [describe reason]⟩

end KernelError

/-! ## Queues and transport -/

/-- Errors of the bounded handoff queues. -/
inductive QueueError where
  /-- There is no room. -/
  | full
  /-- The other end is gone. -/
  | disconnected
deriving DecidableEq

namespace QueueError

/-- The name of the variant. -/
def kind : QueueError → String
  | full => "Full"
  | disconnected => "Disconnected"

/-- The text of the error. -/
def message : QueueError → String
  | full => "queue full"
  | disconnected => "queue disconnected"

instance : Describe QueueError := ⟨kind⟩

end QueueError

/-- Errors of handing on a phase's output. -/
inductive TransportError where
  /-- A peer could not be reached. -/
  | peer (node : NodeId) (reason : String)
  /-- Several transmissions failed. -/
  | aggregate (errors : List TransportError)
  /-- The output ended early. -/
  | incomplete (roundId : Nat)
  /-- A handoff queue refused. -/
  | queue (source : QueueError)
  /-- A slot could not be read. -/
  | stream (source : StreamError)

namespace TransportError

/-- The name of the variant. -/
def kind : TransportError → String
  | peer .. => "Peer"
  | aggregate .. => "Aggregate"
  | incomplete .. => "Incomplete"
  | queue source => "Queue." ++ source.kind
  | stream source => "Stream." ++ source.kind

mutual

/-- The text of the error. -/
def message : TransportError → String
  | peer node reason => "peer " ++ node.name ++ ": " ++ reason
  | aggregate errors =>
    s!"{errors.length} transmission errors: " ++ "; ".intercalate (messages errors)
  | incomplete roundId => s!"output ended before round {roundId} completed"
  | queue source => source.message
  | stream source => source.message

/-- The texts of several errors. -/
def messages : List TransportError → List String
  | [] => []
  | error :: rest => error.message :: messages rest

end

mutual

/-- The description of the error. -/
def description : TransportError → String
  | peer node reason => record "Peer" [("peer", describe node), ("reason", describe reason)]
  | aggregate errors =>
    wrapped "Aggregate" ["[" ++ commaSeparated (descriptions errors) ++ "]"]
  | incomplete roundId => record "Incomplete" [("round_id", describe roundId)]
  | queue source => wrapped "Queue" [describe source]
  | stream source => wrapped "Stream" [describe source]

/-- The descriptions of several errors. -/
def descriptions : List TransportError → List String
  | [] => []
  | error :: rest => error.description :: descriptions rest

end

instance : Describe TransportError := ⟨description⟩

end TransportError

/-! ## Wiring -/

/-- Errors of connecting the modules of a graph. -/
inductive GraphError where
  /-- There is no such module. -/
  | invalidModule (id : Nat)
  /-- The edge would close a cycle. -/
  | cycleDetected (source target : Nat)
  /-- The edge is there already. -/
  | duplicateEdge (source target : Nat)
deriving DecidableEq

namespace GraphError

/-- The name of the variant. -/
def kind : GraphError → String
  | invalidModule .. => "InvalidModule"
  | cycleDetected .. => "CycleDetected"
  | duplicateEdge .. => "DuplicateEdge"

/-- The text of the error. -/
def message : GraphError → String
  | invalidModule id => s!"module {id} does not exist"
  | cycleDetected source target => s!"edge {source} -> {target} would create a cycle"
  | duplicateEdge source target => s!"edge {source} -> {target} already exists"

end GraphError

/-! ## Rounds -/

/-- Errors that end a round, or refuse an event sent to it. -/
inductive RoundError where
  /-- There is no such round. -/
  | unknownRound (id : Nat)
  /-- There is such a round already. -/
  | duplicateRound (id : Nat)
  /-- The round ended before. -/
  | alreadyFailed (id : Nat)
  /-- No response is registered for the tag. -/
  | unknownTag (tag : String)
  /-- The round has no phase of that kind. -/
  | unknownPhase (kind : PhaseKind)
  /-- Two phases of one kind were given. -/
  | duplicatePhase (kind : PhaseKind)
  /-- A phase is in none of the states in which it takes the event. -/
  | unexpectedState (phase : PhaseKind) (state : PhaseState) (expected : List PhaseState)
  /-- The slots of an event leave a gap or are out of order. -/
  | nonContiguousSlots
  /-- The local node does not take part. -/
  | notInTopology
  /-- A slot could not be taken in. -/
  | stream (source : StreamError)
  /-- A kernel failed. -/
  | kernel (module : String) (source : KernelError)
  /-- A phase took too long. -/
  | timeout (phase : PhaseKind) (after : Span)
  /-- A graph stopped before its work was done. -/
  | terminated (phase : PhaseKind)
  /-- The workers of a phase could not start. -/
  | spawn (phase : PhaseKind) (reason : String)
  /-- The output could not be handed on. -/
  | transport (source : TransportError)

namespace RoundError

/-- The name of the variant. -/
def kind : RoundError → String
  | unknownRound .. => "UnknownRound"
  | duplicateRound .. => "DuplicateRound"
  | alreadyFailed .. => "AlreadyFailed"
  | unknownTag .. => "UnknownTag"
  | unknownPhase .. => "UnknownPhase"
  | duplicatePhase .. => "DuplicatePhase"
  | unexpectedState .. => "UnexpectedState"
  | nonContiguousSlots => "NonContiguousSlots"
  | notInTopology => "NotInTopology"
  | stream source => "Stream." ++ source.kind
  | kernel _ source => "Kernel." ++ source.kind
  | timeout .. => "Timeout"
  | terminated .. => "Terminated"
  | spawn .. => "Spawn"
  | transport source => "Transport." ++ source.kind

/-- The text of the error. -/
def message : RoundError → String
  | unknownRound id => s!"round {id} does not exist"
  | duplicateRound id => s!"round {id} already exists"
  | alreadyFailed id => s!"round {id} has already failed"
  | unknownTag tag => "no response registered for tag " ++ describe tag
  | unknownPhase kind => "round has no " ++ kind.text ++ " phase"
  | duplicatePhase kind => "phase type " ++ kind.text ++ " registered twice"
  | unexpectedState phase state expected =>
    phase.text ++ " is " ++ state.text ++ ", expected one of " ++ describe expected
  | nonContiguousSlots => "slots in one event must be contiguous"
  | notInTopology => "topology does not contain the local node"
  | stream source => source.message
  | kernel module source => "module " ++ module ++ ": " ++ source.message
  | timeout phase after => phase.text ++ " timed out after " ++ describe after
  | terminated phase => phase.text ++ " graph terminated before completion"
  | spawn phase reason => "could not start " ++ phase.text ++ " workers: " ++ reason
  | transport source => source.message

instance : Describe RoundError :=
  ⟨fun
    | unknownRound id => wrapped "UnknownRound" [describe id]
    | duplicateRound id => wrapped "DuplicateRound" [describe id]
    | alreadyFailed id => wrapped "AlreadyFailed" [describe id]
    | unknownTag tag => wrapped "UnknownTag" [describe tag]
    | unknownPhase kind => wrapped "UnknownPhase" [describe kind]
    | duplicatePhase kind => wrapped "DuplicatePhase" [describe kind]
    | unexpectedState phase state expected =>
      record "UnexpectedState"
        [("phase", describe phase), ("state", describe state), ("expected", describe expected)]
    | nonContiguousSlots => "NonContiguousSlots"
    | notInTopology => "NotInTopology"
    | stream source => wrapped "Stream" [describe source]
    | kernel module source =>
      record "Kernel" [("module", describe module), ("source", describe source)]
    | timeout phase after => record "Timeout" [("phase", describe phase), ("after", describe after)]
    | terminated phase => wrapped "Terminated" [describe phase]
    | spawn phase reason => record "Spawn" [("phase", describe phase), ("reason", describe reason)]
    | transport source => wrapped "Transport" [describe source]⟩

end RoundError

/-! ## Nodes -/

/-- Errors of a node's configuration. -/
inductive ConfigError where
  /-- A setting is out of its bounds. -/
  | invalid (reason : String)
deriving DecidableEq

namespace ConfigError

/-- The name of the variant. -/
def kind : ConfigError → String
  | invalid .. => "Invalid"

/-- The text of the error. -/
def message : ConfigError → String
  | invalid reason => "invalid configuration: " ++ reason

end ConfigError

/-- Errors of starting a node. -/
inductive NodeError where
  /-- The configuration is invalid. -/
  | config (source : ConfigError)
  /-- The consumer of the resource queue could not start. -/
  | spawn (reason : String)
deriving DecidableEq

namespace NodeError

/-- The name of the variant. -/
def kind : NodeError → String
  | config source => "Config." ++ source.kind
  | spawn .. => "Spawn"

/-- The text of the error. -/
def message : NodeError → String
  | config source => source.message
  | spawn reason => "could not start resource queue: " ++ reason

end NodeError

end Mixnet
