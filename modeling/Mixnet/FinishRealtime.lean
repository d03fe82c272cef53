import Mixnet.Transmitter

/-!
# Finishing the realtime part

The last realtime phase of a round gathers the finished slots into one batch, hands the batch to the
gateway, and tells every other node that the round is done.

## Main definitions

* `FinishRealtime.gather`: the batch made of the slots read
* `FinishRealtime.audience`, `FinishRealtime.tell`: tells every peer
* `FinishRealtime.summarize`: what the calls come to
* `FinishRealtime.transmitter`, `finishRealtime`: the transmitter

## Design notes

Padding slots are never read, even when a chunk straddles the end of the batch.  Nothing is handed
over unless the output was complete, and nobody is told before the handover.  One peer's failure
does not keep the others from being told.

A node can stand in the ring more than once.  It is then told as often, and may answer otherwise
each time, so the notifier is asked with the position of the peer.
-/

namespace Mixnet

namespace FinishRealtime

/-- A batch of `batchSize` slots in which each slot read stands at its index. -/
def gather (batchSize : Nat) (slots : List Slot) : List Slot :=
  (slots.foldl (fun batch slot => batch.setIfInBounds slot.index slot)
    (Array.replicate batchSize Slot.blank)).toList

/-- Everyone who is told, with the positions in the ring: all nodes but the local one. -/
def audience (topology : Topology) : List (NodeId × Nat) :=
  topology.nodes.zipIdx.filter (·.2 ≠ topology.localIndex)

/-- The failure in a notice, if there is one.  A dead notifier is blamed on the local node, which is
a fault where there is none. -/
def failureOf? (topology : Topology) : Notice → Except Fault (Option TransportError)
  | .delivered => .ok none
  | .refused error => .ok (some error)
  | .died => topology.localNode.map fun node => some (.peer node "notifier panicked")

/-- Tells every peer, in the order of the ring. -/
def tell (notify : Nat → NodeId → Nat → Notice) (topology : Topology) (roundId : Nat) :
    List PeerCall :=
  (audience topology).map fun (peer, position) =>
    { position, peer, notice := notify position peer roundId }

/-- Gathers the failures of the calls, in the order in which they were made. -/
def summarize (topology : Topology) (calls : List PeerCall) : TransmitResult :=
  match calls.mapM fun call => failureOf? topology call.notice with
  | .error _ => .died
  | .ok failures =>
    match failures.filterMap id with
    | [] => .returned (.ok ())
    | errors => .returned (.error (.aggregate errors))

/-- Hands the gathered batch over, then tells every peer. -/
def finish (notify : Nat → NodeId → Nat → Notice) (context : TransmitContext)
    (completed : BatchQueue CompletedRound) (slots : List Slot) : Conclusion :=
  if context.outputComplete then
    let batch := { roundId := context.roundId, slots := gather context.batchSize slots }
    match completed.send batch with
    | (.error error, queue) => .silent queue (.returned (.error (.queue error)))
    | (.ok (), queue) =>
      let calls := tell notify context.topology context.roundId
      { result := summarize context.topology calls
        completed := queue
        delivered := none
        notified := calls }
  else .silent completed (.returned (.error (.incomplete context.roundId)))

/-- The transmitter of the last realtime phase, for a notifier that is asked with the position of
the peer in the ring. -/
def transmitter (notify : Nat → NodeId → Nat → Notice) : Transmitter where
  reads := some fun batchSize chunk => chunk.slots.filter (· < batchSize)
  conclude := finish notify

end FinishRealtime

/-- The transmitter of the last realtime phase, for a notifier that goes by the name of the peer. -/
def finishRealtime (notify : NodeId → Nat → Notice) : Transmitter :=
  FinishRealtime.transmitter fun _ => notify

end Mixnet
