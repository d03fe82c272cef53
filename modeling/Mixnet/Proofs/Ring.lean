import Mathlib.Data.List.Perm.Basic
import Mathlib.Data.List.Nodup
import Mixnet.Node
import Mixnet.Proofs.Routing

/-!
# The ring of nodes

Every node of a round finds its own place in the list of nodes: the first where its name stands.  If
no name stands twice, then all these views fit together into one ring.  If some name does, its later
places are nobody's, and the ring falls apart.

## Main definitions

* `Topology.following`, `Topology.preceding`: the ring as the next node and the previous one see it
* `Topology.travel`: the ring as it is seen after some moves to the next node
* `Topology.IsRing`: what makes the nodes a ring of distinct participants

## Main statements

* `Topology.create_eq_some_iff`: which place a node finds
* `Topology.travel_eq`: moves to the next node go around once in as many moves as there are nodes
* `Topology.ring_iff_nodup`: the nodes make a ring exactly if no name stands twice

## Design notes

Positions are words, and the moves check their arithmetic.  The bound on the length of a list is the
memory that a list of names takes: each of them fills more than two bytes.
-/

namespace Mixnet.Topology

variable {nodes : List NodeId} {node : NodeId} {topology : Topology}

/-! ## The place of a node -/

@[simp]
theorem size_mk (position : Nat) : (⟨nodes, position⟩ : Topology).size = nodes.length := rfl

/-- A node finds the first place where its name stands. -/
theorem create_eq_some_iff :
    create nodes node = some topology ↔
      topology.nodes = nodes ∧ nodes[topology.localIndex]? = some node ∧
        ∀ earlier < topology.localIndex, nodes[earlier]? ≠ some node := by
  obtain ⟨others, position⟩ := topology
  simp only [create, Option.map_eq_some_iff, Topology.mk.injEq, List.findIdx?_eq_some_iff_getElem,
    decide_eq_true_eq]
  constructor
  · rintro ⟨_, ⟨inside, found, first⟩, rfl, rfl⟩
    refine ⟨rfl, List.getElem?_eq_some_iff.mpr ⟨inside, found⟩, fun earlier before again => ?_⟩
    obtain ⟨_, same⟩ := List.getElem?_eq_some_iff.mp again
    exact first earlier before same
  · rintro ⟨rfl, found, first⟩
    obtain ⟨inside, found⟩ := List.getElem?_eq_some_iff.mp found
    refine ⟨position, ⟨inside, found, fun earlier before same => ?_⟩, rfl, rfl⟩
    exact first earlier before (List.getElem?_eq_some_iff.mpr ⟨_, same⟩)

/-- Where no name stands twice, a node finds the one place where its name stands. -/
theorem create_of_getElem? (once : nodes.Nodup) {position : Nat}
    (found : nodes[position]? = some node) : create nodes node = some ⟨nodes, position⟩ := by
  refine create_eq_some_iff.mpr ⟨rfl, found, fun earlier before again => ?_⟩
  obtain ⟨inside, -⟩ := List.getElem?_eq_some_iff.mp again
  exact Nat.ne_of_lt before ((List.getElem?_inj inside once).mp (again.trans found.symm))

theorem localNode_eq_ok {position : Nat} (found : nodes[position]? = some node) :
    (⟨nodes, position⟩ : Topology).localNode = .ok node := by
  rw [localNode, nodeAt, found]

/-- The local node and its peers are the nodes of the round. -/
theorem local_cons_peers_perm {position : Nat} (found : nodes[position]? = some node) :
    (node :: (⟨nodes, position⟩ : Topology).peers).Perm nodes := by
  obtain ⟨inside, rfl⟩ := List.getElem?_eq_some_iff.mp found
  exact List.getElem_cons_eraseIdx_perm inside

/-! ## Neighbours -/

/-- The ring as the node after the local one sees it. -/
def following (topology : Topology) : Option Topology := do
  create topology.nodes (← topology.nextNode.toOption)

/-- The ring as the node before the local one sees it. -/
def preceding (topology : Topology) : Option Topology := do
  create topology.nodes (← topology.prevNode.toOption)

/-- The ring as it is seen after some moves to the next node. -/
def travel (topology : Topology) : Nat → Option Topology
  | 0 => some topology
  | moves + 1 => topology.travel moves >>= following

/-- A position wraps at most once within two rounds. -/
theorem wrap_eq {position size : Nat} (small : position < 2 * size) :
    position % size = if position < size then position else position - size := by
  split
  case isTrue inside => exact Nat.mod_eq_of_lt inside
  case isFalse outside =>
    rw [Nat.mod_eq_sub_mod (Nat.not_lt.mp outside), Nat.mod_eq_of_lt (by omega)]

/-- A step back undoes a step on. -/
theorem wrap_back {place size : Nat} (below : place < size) :
    ((place + 1) % size + size - 1) % size = place := by
  rw [wrap_eq (show place + 1 < 2 * size by omega)]
  split
  case isTrue =>
    rw [show place + 1 + size - 1 = place + size by omega, Nat.add_mod_right,
      Nat.mod_eq_of_lt below]
  case isFalse last =>
    rw [wrap_eq (by omega), if_pos (by omega)]
    omega

section Neighbours

variable {position : Nat} (inside : position < nodes.length)
  (fits : 2 * nodes.length ≤ Word.limit 64)

include inside

theorem nodeAt_eq_ok (here : Nat) : (⟨nodes, here⟩ : Topology).nodeAt position =
    .ok nodes[position] := by
  rw [nodeAt, List.getElem?_eq_getElem inside]

theorem nodeAround_eq (here other : Nat) : (⟨nodes, here⟩ : Topology).nodeAround other =
    (⟨nodes, here⟩ : Topology).nodeAt (other % nodes.length) := by
  have some_node : (⟨nodes, here⟩ : Topology).size ≠ 0 := by
    rw [size_mk]
    omega
  rw [nodeAround, if_neg some_node, size_mk]

include fits

theorem nextNode_eq : (⟨nodes, position⟩ : Topology).nextNode =
    (⟨nodes, position⟩ : Topology).nodeAt ((position + 1) % nodes.length) := by
  rw [nextNode, Word.sum_eq_ok (by simp only; omega), Fault.ok_bind, nodeAround_eq inside]

theorem prevNode_eq : (⟨nodes, position⟩ : Topology).prevNode =
    (⟨nodes, position⟩ : Topology).nodeAt ((position + nodes.length - 1) % nodes.length) := by
  rw [prevNode, size_mk, Word.sum_eq_ok (by simp only; omega), Fault.ok_bind, Word.difference,
    if_pos (by simp only; omega), Fault.ok_bind, nodeAround_eq inside]

theorem isLastNode_eq : (⟨nodes, position⟩ : Topology).isLastNode =
    .ok (decide (position + 1 = nodes.length)) := by
  rw [isLastNode, Word.sum_eq_ok (by simp only; omega)]
  rfl

/-! ## Moves around the ring -/

variable (once : nodes.Nodup)

include once

theorem following_eq : (⟨nodes, position⟩ : Topology).following =
    some ⟨nodes, (position + 1) % nodes.length⟩ := by
  have below : (position + 1) % nodes.length < nodes.length := Nat.mod_lt _ (by omega)
  rw [following, nextNode_eq inside fits, nodeAt_eq_ok below]
  exact create_of_getElem? once (List.getElem?_eq_getElem below)

theorem preceding_eq : (⟨nodes, position⟩ : Topology).preceding =
    some ⟨nodes, (position + nodes.length - 1) % nodes.length⟩ := by
  have below : (position + nodes.length - 1) % nodes.length < nodes.length :=
    Nat.mod_lt _ (by omega)
  rw [preceding, prevNode_eq inside fits, nodeAt_eq_ok below]
  exact create_of_getElem? once (List.getElem?_eq_getElem below)

/-- **Every move leads one place on**, from the last place to the first. -/
theorem travel_eq (moves : Nat) : (⟨nodes, position⟩ : Topology).travel moves =
    some ⟨nodes, (position + moves) % nodes.length⟩ := by
  induction moves with
  | zero => rw [travel, Nat.add_zero, Nat.mod_eq_of_lt inside]
  | succ moves ih =>
    have below : (position + moves) % nodes.length < nodes.length := Nat.mod_lt _ (by omega)
    rw [travel, ih]
    exact (following_eq below fits once).trans (by rw [Nat.mod_add_mod, Nat.add_assoc])

end Neighbours

/-! ## The ring -/

/-- The nodes of a round are a ring of distinct participants, as one of them sees it. -/
structure IsRing (topology : Topology) : Prop where
  /-- The local node is none of its peers. -/
  local_apart : ∀ node, topology.localNode = .ok node → node ∉ topology.peers
  /-- With the local node, the peers are all nodes, each once. -/
  each_once : ∀ node, topology.localNode = .ok node →
    ∀ other ∈ topology.nodes, (node :: topology.peers).count other = 1
  /-- Moves to the next node lead to every place in fewer moves than there are nodes... -/
  all_visited : ∀ position < topology.size, ∃ moves < topology.size,
    topology.travel moves = some { topology with localIndex := position }
  /-- ... and not back before ... -/
  not_before : ∀ moves, 0 < moves → moves < topology.size → topology.travel moves ≠ some topology
  /-- ... but then. -/
  back : topology.travel topology.size = some topology
  /-- Wherever the moves lead, the next node has this one for its previous node. -/
  prev_next : ∀ moves here, topology.travel moves = some here → ∃ next,
    here.following = some next ∧ next.prevNode = here.localNode ∧ next.preceding = some here
  /-- Exactly one node takes itself for the first. -/
  one_first : ∃! node, ∃ view, create topology.nodes node = some view ∧ view.isFirstNode = true
  /-- Exactly one node takes itself for the last. -/
  one_last : ∃! node, ∃ view, create topology.nodes node = some view ∧ view.isLastNode = .ok true

/-- The first node is the one whose name stands first. -/
theorem first_iff : (∃ view, create nodes node = some view ∧ view.isFirstNode = true) ↔
    nodes[0]? = some node := by
  constructor
  · rintro ⟨view, created, first⟩
    obtain ⟨-, found, -⟩ := create_eq_some_iff.mp created
    rwa [of_decide_eq_true first] at found
  · intro found
    exact ⟨⟨nodes, 0⟩, create_eq_some_iff.mpr ⟨rfl, found, by simp⟩, rfl⟩

/-- One node is the first of some. -/
theorem one_first {position : Nat} (inside : position < nodes.length) :
    ∃! first, ∃ view, create nodes first = some view ∧ view.isFirstNode = true := by
  have some_node : 0 < nodes.length := by omega
  have found := List.getElem?_eq_getElem some_node
  refine ⟨nodes[0], first_iff.mpr found, fun other first => ?_⟩
  exact Option.some.inj ((first_iff.mp first).symm.trans found)

/-- The last node is the one whose name stands last and nowhere before. -/
theorem last_iff (fits : 2 * nodes.length ≤ Word.limit 64) :
    (∃ view, create nodes node = some view ∧ view.isLastNode = .ok true) ↔
      create nodes node = some ⟨nodes, nodes.length - 1⟩ := by
  have place {position : Nat} (created : create nodes node = some ⟨nodes, position⟩) :
      (⟨nodes, position⟩ : Topology).isLastNode = .ok true ↔ position = nodes.length - 1 := by
    obtain ⟨-, found, -⟩ := create_eq_some_iff.mp created
    obtain ⟨inside, -⟩ := List.getElem?_eq_some_iff.mp found
    simp only at inside
    rw [isLastNode_eq inside fits, Except.ok.injEq, decide_eq_true_eq]
    omega
  constructor
  · rintro ⟨⟨others, position⟩, created, last⟩
    obtain rfl := (create_eq_some_iff.mp created).1
    rwa [← (place created).mp last]
  · exact fun created => ⟨_, created, (place created).mpr rfl⟩

theorem isRing_of_nodup {position : Nat} (inside : position < nodes.length)
    (fits : 2 * nodes.length ≤ Word.limit 64) (once : nodes.Nodup) :
    (⟨nodes, position⟩ : Topology).IsRing := by
  have found : nodes[position]? = some nodes[position] := List.getElem?_eq_getElem inside
  have perm := local_cons_peers_perm found
  have here_ok := localNode_eq_ok found
  have travels := travel_eq inside fits once
  constructor
  case local_apart =>
    intro node is_local
    obtain rfl := Except.ok.inj (here_ok.symm.trans is_local)
    exact (List.nodup_cons.mp (perm.nodup_iff.mpr once)).1
  case each_once =>
    intro node is_local other known
    obtain rfl := Except.ok.inj (here_ok.symm.trans is_local)
    rw [perm.count_eq]
    exact List.count_eq_one_of_mem once known
  case all_visited =>
    intro place below
    rw [size_mk] at below ⊢
    refine ⟨(place + nodes.length - position) % nodes.length, Nat.mod_lt _ (by omega), ?_⟩
    rw [travels, Nat.add_mod_mod, show position + (place + nodes.length - position) =
      place + nodes.length by omega, Nat.add_mod_right, Nat.mod_eq_of_lt below]
  case not_before =>
    intro moves some_move few returned
    rw [size_mk] at few
    rw [travels, wrap_eq (by omega)] at returned
    simp only [Option.some.injEq, Topology.mk.injEq, true_and] at returned
    split at returned <;> omega
  case back =>
    rw [size_mk, travels, Nat.add_mod_right, Nat.mod_eq_of_lt inside]
  case prev_next =>
    intro moves here reached
    obtain rfl := Option.some.inj ((travels moves).symm.trans reached)
    have below : (position + moves) % nodes.length < nodes.length := Nat.mod_lt _ (by omega)
    generalize (position + moves) % nodes.length = place at below
    have next_below : (place + 1) % nodes.length < nodes.length := Nat.mod_lt _ (by omega)
    refine ⟨_, following_eq below fits once, ?_, ?_⟩
    · rw [prevNode_eq next_below fits, wrap_back below, localNode, nodeAt_eq_ok below,
        nodeAt_eq_ok below]
    · rw [preceding_eq next_below fits once, wrap_back below]
  case one_first => exact one_first inside
  case one_last =>
    have last_inside : nodes.length - 1 < nodes.length := by omega
    have last_found := List.getElem?_eq_getElem last_inside
    refine ⟨nodes[nodes.length - 1], (last_iff fits).mpr (create_of_getElem? once last_found),
      fun other last => ?_⟩
    obtain ⟨-, found, -⟩ := create_eq_some_iff.mp ((last_iff fits).mp last)
    exact (Option.some.inj (last_found.symm.trans found)).symm

/-- A ring has no name twice: the local node and its peers are all of the names. -/
theorem nodup_of_isRing {position : Nat} (found : nodes[position]? = some node)
    (ring : (⟨nodes, position⟩ : Topology).IsRing) : nodes.Nodup := by
  have perm := local_cons_peers_perm found
  refine List.nodup_iff_count_le_one.mpr fun other => ?_
  by_cases known : other ∈ nodes
  · rw [← perm.count_eq]
    exact Nat.le_of_eq (ring.each_once node (localNode_eq_ok found) other known)
  · rw [List.count_eq_zero_of_not_mem known]
    exact Nat.zero_le 1

/-- A round that a node creates sees the ring from that node. -/
theorem topology_of_createRound {host after : Node} {roundId batchSize : Nat}
    {phases : List Phase} {responses : ResponseMap}
    (accepted : host.createRound roundId nodes batchSize phases responses = .ok after) :
    ∃ round, after.rounds = host.rounds.push round ∧
      create nodes host.id = some round.topology := by
  rw [Node.createRound] at accepted
  split at accepted
  case isTrue => cases accepted
  case isFalse =>
    split at accepted
    case h_1 => cases accepted
    case h_2 topology created =>
      split at accepted
      case h_1 => cases accepted
      case h_2 round made =>
        split at accepted
        case h_1 => cases accepted
        case h_2 registry added =>
          injection accepted with accepted
          subst accepted
          obtain ⟨-, _, _, -, -, rfl⟩ := Round.create_eq_ok made
          exact ⟨_, rfl, created⟩

/-- **The nodes make a ring exactly if no name stands twice.**  Whatever names stand in the list,
the local node and its peers are all of them, exactly one node takes itself for the first and at
most one for the last.  A round that a node creates sees the ring in the same way. -/
theorem ring_iff_nodup (created : create nodes node = some topology)
    (fits : 2 * nodes.length ≤ Word.limit 64) :
    (topology.IsRing ↔ nodes.Nodup) ∧
    topology.localNode = .ok node ∧ (node :: topology.peers).Perm nodes ∧
    (∃! first, ∃ view, create nodes first = some view ∧ view.isFirstNode = true) ∧
    (∀ last other, (∃ view, create nodes last = some view ∧ view.isLastNode = .ok true) →
      (∃ view, create nodes other = some view ∧ view.isLastNode = .ok true) → last = other) ∧
    ∀ (host after : Node) (roundId batchSize : Nat) (phases : List Phase)
      (responses : ResponseMap), host.id = node →
      host.createRound roundId nodes batchSize phases responses = .ok after →
      ∃ round, after.rounds = host.rounds.push round ∧ round.topology = topology := by
  obtain ⟨others, position⟩ := topology
  obtain ⟨rfl, found, -⟩ := create_eq_some_iff.mp created
  obtain ⟨inside, -⟩ := List.getElem?_eq_some_iff.mp found
  refine ⟨⟨nodup_of_isRing found, isRing_of_nodup inside fits⟩, localNode_eq_ok found,
    local_cons_peers_perm found, one_first inside, fun last other => ?_, ?_⟩
  · rw [last_iff fits, last_iff fits]
    intro last_created other_created
    obtain ⟨-, last_found, -⟩ := create_eq_some_iff.mp last_created
    obtain ⟨-, other_found, -⟩ := create_eq_some_iff.mp other_created
    exact Option.some.inj (last_found.symm.trans other_found)
  · intro host after roundId batchSize phases responses named accepted
    obtain ⟨round, pushed, seen⟩ := topology_of_createRound accepted
    rw [named, created] at seen
    exact ⟨round, pushed, (Option.some.inj seen).symm⟩

/-- Three nodes, seen from the second. -/
theorem ring_iff_nodup_sample :
    create [⟨"a"⟩, ⟨"b"⟩, ⟨"c"⟩] ⟨"b"⟩ = some ⟨[⟨"a"⟩, ⟨"b"⟩, ⟨"c"⟩], 1⟩ ∧
      (⟨[⟨"a"⟩, ⟨"b"⟩, ⟨"c"⟩], 1⟩ : Topology).IsRing := by
  have created :
      create [⟨"a"⟩, ⟨"b"⟩, ⟨"c"⟩] ⟨"b"⟩ = some ⟨[⟨"a"⟩, ⟨"b"⟩, ⟨"c"⟩], 1⟩ := by decide
  exact ⟨created, (ring_iff_nodup created (by decide)).1.mpr (by decide)⟩

/-- Where the name of the first node stands again at the end, that node is accepted and is its own
peer, moves to the next node are back after two of them, and no node takes itself for the last. -/
theorem repeated_name_is_own_peer :
    create [⟨"a"⟩, ⟨"b"⟩, ⟨"a"⟩] ⟨"a"⟩ = some ⟨[⟨"a"⟩, ⟨"b"⟩, ⟨"a"⟩], 0⟩ ∧
      (⟨"a"⟩ : NodeId) ∈ (⟨[⟨"a"⟩, ⟨"b"⟩, ⟨"a"⟩], 0⟩ : Topology).peers ∧
      (⟨[⟨"a"⟩, ⟨"b"⟩, ⟨"a"⟩], 0⟩ : Topology).travel 2 =
        some ⟨[⟨"a"⟩, ⟨"b"⟩, ⟨"a"⟩], 0⟩ ∧
      ¬ (∃ node view, create [⟨"a"⟩, ⟨"b"⟩, ⟨"a"⟩] node = some view ∧
        view.isLastNode = .ok true) ∧
      ¬ (⟨[⟨"a"⟩, ⟨"b"⟩, ⟨"a"⟩], 0⟩ : Topology).IsRing := by
  have met : (⟨"a"⟩ : NodeId) ∈ (⟨[⟨"a"⟩, ⟨"b"⟩, ⟨"a"⟩], 0⟩ : Topology).peers := by decide
  refine ⟨by decide, met, by decide, ?_, fun ring => ring.local_apart _ rfl met⟩
  rintro ⟨node, last⟩
  have created := (last_iff (by decide)).mp last
  obtain ⟨-, found, first⟩ := create_eq_some_iff.mp created
  exact first 0 (by decide) found

end Mixnet.Topology
