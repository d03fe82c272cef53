import Mixnet.Word
import Mixnet.Text.Description

/-!
# Topology

The nodes that cooperate on a round stand in a ring.  A topology is that ring seen from one of them.

## Main definitions

* `NodeId`: the name of a node
* `Topology`: the ring and the local position in it
* `Topology.create`: the ring around a node, if the node takes part
* `Topology.nextNode`, `Topology.prevNode`: the neighbours in the ring
* `Topology.peers`: everyone but the local node

## Design notes

A topology can also be read from stored data, and then nothing promises that its position lies in
the ring.  The neighbours are therefore partial, with the fault that a bad position meets.
-/

namespace Mixnet

open Mixnet.Text

/-- The name of a node. -/
structure NodeId where
  /-- The name itself. -/
  name : String
deriving DecidableEq

namespace NodeId

instance : Describe NodeId := ⟨fun id => wrapped "NodeId" [quote id.name]⟩

/-- Node names are ordered by their code points, which is the order of their bytes. -/
def precedes (left right : NodeId) : Bool := !(decide (right.name < left.name))

end NodeId

/-- The nodes of a round in processing order, and where the local node stands. -/
structure Topology where
  /-- The nodes, in processing order. -/
  nodes : List NodeId
  /-- The position of the local node. -/
  localIndex : Nat
deriving DecidableEq

namespace Topology

/-- The ring `nodes` seen from `node`: its first position counts.  A node outside the ring has no
topology. -/
def create (nodes : List NodeId) (node : NodeId) : Option Topology :=
  (nodes.findIdx? (· = node)).map fun position => { nodes, localIndex := position }

/-- The number of nodes. -/
def size (topology : Topology) : Nat := topology.nodes.length

/-- Whether the ring has no node. -/
def isEmpty (topology : Topology) : Bool := topology.nodes.isEmpty

/-- The node at a position, if there is one. -/
def nodeAt? (topology : Topology) (index : Nat) : Option NodeId := topology.nodes[index]?

/-- The first position of a node, if it takes part. -/
def indexOf? (topology : Topology) (node : NodeId) : Option Nat :=
  topology.nodes.findIdx? (· = node)

/-- The node at a position that is expected to exist. -/
def nodeAt (topology : Topology) (index : Nat) : Except Fault NodeId :=
  match topology.nodes[index]? with
  | some node => .ok node
  | none => .error (.indexOutOfBounds topology.size index)

/-- The local node. -/
def localNode (topology : Topology) : Except Fault NodeId := topology.nodeAt topology.localIndex

/-- The node at a position wrapped around the ring. -/
def nodeAround (topology : Topology) (position : Nat) : Except Fault NodeId :=
  if topology.size = 0 then .error .zeroRing else topology.nodeAt (position % topology.size)

/-- The node after the local one, the first after the last. -/
def nextNode (topology : Topology) : Except Fault NodeId := do
  topology.nodeAround (← Word.sum 64 topology.localIndex 1)

/-- The node before the local one, the last before the first. -/
def prevNode (topology : Topology) : Except Fault NodeId := do
  topology.nodeAround (← Word.difference (← Word.sum 64 topology.localIndex topology.size) 1)

/-- Whether the local node is the first. -/
def isFirstNode (topology : Topology) : Bool := topology.localIndex = 0

/-- Whether the local node is the last. -/
def isLastNode (topology : Topology) : Except Fault Bool := do
  return (← Word.sum 64 topology.localIndex 1) = topology.size

/-- Every node but the local one, in order. -/
def peers (topology : Topology) : List NodeId := topology.nodes.eraseIdx topology.localIndex

instance : Describe Topology :=
  ⟨fun topology =>
    record "Topology" [("nodes", describe topology.nodes), ("local", describe topology.localIndex)]⟩

end Topology

end Mixnet
