import Mixnet.Proofs.Search
import Mixnet.Proofs.Termination

/-!
# Connecting modules

Two modules of a graph are connected unless an end does not exist, the edge is there already, or it
would close a cycle.  This file states the answer in terms of paths, and follows the wiring of a
graph from its creation through any calls: nothing that can be asked of a graph, and nothing that
happens to it, puts its wiring out of order.

## Main definitions

* `Wiring.Ordered`: what a wiring names exists, and it has no cycle
* `Graph.connectInPlace`: adding an edge, decided by the search
* `Graph.Connects`: the answers of connecting two modules
* `Graph.Rewires`: what a call does that concerns the wiring

## Main statements

* `Graph.connectInPlace_eq`: the search decides what growing a set of modules decides
* `Graph.ordered_attempts`: any calls keep the wiring of a graph in order
* `Graph.connect_exact`: the edges after any calls, and the answer to every new edge
-/

namespace Mixnet

open Graph (Feeds)

namespace Wiring

/-! ## No way round -/

/-- Where modules are ranked along the edges, no way along them leads back to where it began. -/
theorem Acyclic.no_loop {wiring : Wiring} (acyclic : wiring.Acyclic) (module : Nat) :
    ¬ Relation.TransGen (fun source target => (source, target) ∈ wiring.edges) module module := by
  obtain ⟨rank, rises⟩ := acyclic
  have climbs {source target : Nat}
      (way : Relation.TransGen (fun source target => (source, target) ∈ wiring.edges) source
        target) : rank source < rank target := by
    induction way with
    | single edge => exact rises _ _ edge
    | tail _ edge ih => exact Nat.lt_trans ih (rises _ _ edge)
  exact fun way => Nat.lt_irrefl _ (climbs way)

/-- A wiring in order: what it names exists, and it has no cycle. -/
structure Ordered (wiring : Wiring) : Prop where
  valid : wiring.Valid
  acyclic : wiring.Acyclic

namespace Ordered

variable {wiring after : Wiring} {module source target : Nat} {context : Option String}

theorem empty : Wiring.empty.Ordered :=
  ⟨.empty, id, fun _ _ edge => absurd edge List.not_mem_nil⟩

theorem add (ordered : wiring.Ordered) (spec : ModuleSpec) : (wiring.add spec).Ordered :=
  ⟨ordered.valid.add spec, ordered.acyclic.of_edges_eq rfl⟩

theorem connect (ordered : wiring.Ordered) (connected : wiring.connect source target = .ok after) :
    after.Ordered :=
  ⟨ordered.valid.connect connected, ordered.acyclic.connect ordered.valid connected⟩

theorem setFirst (ordered : wiring.Ordered) (marked : wiring.setFirst module context = .ok after) :
    after.Ordered := by
  refine ⟨ordered.valid.setFirst marked, ordered.acyclic.of_edges_eq ?_⟩
  obtain ⟨-, -, rfl⟩ := of_setFirst marked
  rfl

theorem setLast (ordered : wiring.Ordered) (marked : wiring.setLast module context = .ok after) :
    after.Ordered := by
  refine ⟨ordered.valid.setLast marked, ordered.acyclic.of_edges_eq ?_⟩
  obtain ⟨-, -, rfl⟩ := of_setLast marked
  rfl

end Ordered

end Wiring

namespace Graph

variable {graph after : Graph} {source target : Nat}

/-! ## Adding an edge in place -/

/-- Adding an edge as it is carried out on the graph itself: both ends are looked up, the edges are
looked through, and the source is searched for from the target with marks of its own. -/
def connectInPlace (graph : Graph) (source target : Nat) :
    Except (Failure GraphError) Unit × Graph :=
  match graph.expect .unbuilt "connect" with
  | .error fault => (.error (.fault fault), graph)
  | .ok () =>
    match [source, target].find? (graph.wiring.size ≤ ·) with
    | some unknown => (.error (.error (.invalidModule unknown)), graph)
    | none =>
      if (source, target) ∈ graph.wiring.edges then
        (.error (.error (.duplicateEdge source target)), graph)
      else
        match graph.wiring.search source target (Array.replicate graph.wiring.size false) with
        | .error fault => (.error (.fault fault), graph)
        | .ok (true, _) => (.error (.error (.cycleDetected source target)), graph)
        | .ok (false, _) =>
          (.ok (), { graph with wiring :=
            { graph.wiring with edges := graph.wiring.edges ++ [(source, target)] } })

open Classical in
/-- Connecting two modules, in terms of paths. -/
theorem connect_eq (stage : graph.state = .unbuilt) (valid : graph.wiring.Valid)
    (source target : Nat) :
    graph.connect source target =
      if graph.wiring.size ≤ source then .error (.error (.invalidModule source))
      else if graph.wiring.size ≤ target then .error (.error (.invalidModule target))
      else if (source, target) ∈ graph.wiring.edges then
        .error (.error (.duplicateEdge source target))
      else if Feeds graph.wiring target source then
        .error (.error (.cycleDetected source target))
      else .ok { graph with wiring :=
        { graph.wiring with edges := graph.wiring.edges ++ [(source, target)] } } := by
  have opened : graph.expect .unbuilt "connect" = .ok () :=
    Invariant.require_eq_ok.mpr (decide_eq_true stage)
  unfold connect Wiring.connect
  rw [opened]
  simp only [List.contains_iff_mem]
  split_ifs with source_unknown target_unknown repeated reached way way <;> try rfl
  all_goals
    rw [valid.mem_reachableFrom (Nat.lt_of_not_le target_unknown)] at reached
    contradiction

/-- **The search decides what growing a set of modules decides**: an edge is added in place, or
refused, as it is on a copy. -/
theorem connectInPlace_eq (valid : graph.wiring.Valid) (source target : Nat) :
    graph.connectInPlace source target =
      ((graph.connect source target).map fun _ => (),
        (graph.attempt (.connect source target)).2) := by
  have attempted : (graph.attempt (.connect source target)).2 =
      (graph.orElse (graph.connect source target)).2 := rfl
  rw [attempted]
  unfold connectInPlace
  cases opened : graph.expect .unbuilt "connect" with
  | error fault =>
      unfold connect
      rw [opened]
      rfl
  | ok =>
      have stage := of_decide_eq_true (Invariant.require_eq_ok.mp opened)
      rw [connect_eq stage valid]
      by_cases source_unknown : graph.wiring.size ≤ source
      · simp [source_unknown, Except.map, orElse]
      by_cases target_unknown : graph.wiring.size ≤ target
      · simp [source_unknown, target_unknown, Except.map, orElse]
      by_cases repeated : (source, target) ∈ graph.wiring.edges
      · simp [source_unknown, target_unknown, repeated, Except.map, orElse]
      obtain ⟨found, later, searched, found_iff⟩ :=
        Wiring.search_exact valid.bounds (Nat.lt_of_not_le target_unknown) source
      cases found <;>
        simp [source_unknown, target_unknown, repeated, searched, ← found_iff, Except.map, orElse]

/-! ## The answers -/

/-- What connecting two modules of a graph comes to: both ends have to exist, the edge has to be
new, and the source must not be reached from the target, in this order; then the edge is all that
is added. -/
structure Connects (graph : Graph) (source target : Nat) : Prop where
  unknown : ∀ module, graph.connect source target = .error (.error (.invalidModule module)) ↔
    graph.wiring.size ≤ source ∧ module = source ∨
      source < graph.wiring.size ∧ graph.wiring.size ≤ target ∧ module = target
  repeated : graph.connect source target = .error (.error (.duplicateEdge source target)) ↔
    (source < graph.wiring.size ∧ target < graph.wiring.size) ∧
      (source, target) ∈ graph.wiring.edges
  cyclic : graph.connect source target = .error (.error (.cycleDetected source target)) ↔
    (source < graph.wiring.size ∧ target < graph.wiring.size) ∧
      (source, target) ∉ graph.wiring.edges ∧ Feeds graph.wiring target source
  added : ∀ after, graph.connect source target = .ok after ↔
    (source < graph.wiring.size ∧ target < graph.wiring.size) ∧
      (source, target) ∉ graph.wiring.edges ∧ ¬ Feeds graph.wiring target source ∧
        after = { graph with wiring :=
          { graph.wiring with edges := graph.wiring.edges ++ [(source, target)] } }

theorem connects_of_valid (stage : graph.state = .unbuilt) (valid : graph.wiring.Valid)
    (source target : Nat) : graph.Connects source target := by
  have answer := connect_eq stage valid source target
  constructor
  · intro module
    rw [answer]
    split_ifs <;> simp <;> omega
  · rw [answer]
    split_ifs <;> simp <;> grind
  · rw [answer]
    split_ifs <;> simp <;> grind
  · intro after
    rw [answer]
    split_ifs <;> simp <;> grind

/-! ## Any calls -/

theorem wiring_send (graph : Graph) (chunk : Chunk) :
    (graph.send chunk).2.wiring = graph.wiring := by
  unfold send
  split
  · rfl
  · split_ifs
    · rfl
    · dsimp only
      split_ifs <;> rfl

theorem wiring_of_run (started : graph.run = .ok after) : after.wiring = graph.wiring := by
  unfold run at started
  split at started
  case isTrue =>
    injection started with same
    exact same ▸ rfl
  case isFalse =>
    obtain ⟨-, started⟩ := Invariant.require_bind_eq_ok.mp started
    obtain ⟨dispatch, -, started⟩ := Fault.bind_eq_ok.mp started
    injection started with same
    exact same ▸ rfl

theorem wiring_of_takeOutput {taken : ChunkQueue.Taken}
    (collecting : graph.takeOutput = .ok (taken, after)) : after.wiring = graph.wiring := by
  obtain ⟨dispatch, -, collecting⟩ := Fault.bind_eq_ok.mp collecting
  split at collecting
  case h_1 => cases collecting
  case h_2 =>
    injection collecting with both
    injection both with _ same
    exact same ▸ rfl

theorem wiring_kill (graph : Graph) : graph.kill.wiring = graph.wiring := by
  unfold kill
  split
  · rfl
  · split_ifs <;> rfl

/-- What happens to a graph never changes its wiring. -/
theorem wiring_attempt_event (graph : Graph) (event : Event) :
    (graph.attempt (.event event)).2.wiring = graph.wiring := by
  rw [attempt]
  cases acted : graph.act event with
  | none =>
      cases event with
      | send chunk => exact graph.wiring_send chunk
      | _ => rfl
  | some after =>
      show after.wiring = graph.wiring
      cases event with
      | link buffer =>
          obtain ⟨-, stream, rfl⟩ := link_ok (eq_ok_of_toOption acted)
          rfl
      | start => exact wiring_of_run (eq_ok_of_toOption acted)
      | send chunk =>
          have there := graph.wiring_send chunk
          rw [act] at acted
          split at acted
          case h_1 sent =>
            injection acted with same
            rwa [sent, same] at there
          case h_2 => cases acted
      | work step =>
          obtain ⟨next, -, rfl⟩ := Option.map_eq_some_iff.mp acted
          rfl
      | collect =>
          obtain ⟨⟨taken, there⟩, taking, rfl⟩ := Fault.map_eq_ok.mp (eq_ok_of_toOption acted)
          exact wiring_of_takeOutput taking
      | kill =>
          injection acted with same
          exact same ▸ graph.wiring_kill

/-- Adding a module goes through while a graph is wired, and adds that module. -/
theorem of_addModule {spec : ModuleSpec} (made : (graph.addModule spec).map Prod.snd = .ok after) :
    graph.state = .unbuilt ∧ after = { graph with wiring := graph.wiring.add spec } := by
  obtain ⟨⟨id, there⟩, added, rfl⟩ := Fault.map_eq_ok.mp made
  exact addModule_ok added

/-- Nothing but the wiring of a graph has changed, and it is in order if it was. -/
def Rewires (graph after : Graph) : Prop :=
  ∃ wiring, after = { graph with wiring } ∧ (graph.wiring.Ordered → wiring.Ordered)

/-- A call rewires a graph, if it is not a call to build it and no event. -/
theorem attempt_cases (graph : Graph) (call : Call) :
    graph.Rewires (graph.attempt call).2 ∨ (∃ batch, call = .build batch) ∨
      ∃ event, call = .event event := by
  have kept : graph.Rewires graph := ⟨graph.wiring, rfl, id⟩
  cases call with
  | addModule spec =>
      refine Or.inl (orElse_of kept fun after made => ?_)
      obtain ⟨-, rfl⟩ := of_addModule made
      exact ⟨_, rfl, fun ordered => ordered.add spec⟩
  | connect source target =>
      refine Or.inl (orElse_of kept fun after connected => ?_)
      obtain ⟨-, wiring, made, rfl⟩ := connect_ok connected
      exact ⟨wiring, rfl, fun ordered => ordered.connect made⟩
  | setFirst module =>
      refine Or.inl (orElse_of kept fun after marked => ?_)
      obtain ⟨wiring, set, rfl⟩ := setFirst_ok marked
      exact ⟨wiring, rfl, fun ordered => ordered.setFirst set⟩
  | setLast module =>
      refine Or.inl (orElse_of kept fun after marked => ?_)
      obtain ⟨wiring, set, rfl⟩ := setLast_ok marked
      exact ⟨wiring, rfl, fun ordered => ordered.setLast set⟩
  | build batch => exact Or.inr (Or.inl ⟨batch, rfl⟩)
  | event event => exact Or.inr (Or.inr ⟨event, rfl⟩)

/-- **Every call keeps the wiring in order**, whether it goes through or not. -/
theorem ordered_attempt (ordered : graph.wiring.Ordered) (call : Call) :
    (graph.attempt call).2.wiring.Ordered := by
  rcases graph.attempt_cases call with ⟨wiring, rewired, kept⟩ | ⟨batch, rfl⟩ | ⟨event, rfl⟩
  · rw [rewired]
    exact kept ordered
  · rw [attempt]
    cases done : graph.build batch with
    | error fault => exact ordered
    | ok after =>
        obtain ⟨-, _, _, _, -, -, -, rfl⟩ := build_ok done
        exact ordered
  · rwa [wiring_attempt_event]

theorem ordered_attempts (ordered : graph.wiring.Ordered) (calls : List Call) :
    (graph.attempts calls).wiring.Ordered := by
  induction calls generalizing graph with
  | nil => exact ordered
  | cons call rest ih => exact ih (ordered_attempt ordered call)

/-- A graph that has not been built, and has nothing to work with. -/
structure Unbuilt (graph : Graph) : Prop where
  stage : graph.state = .unbuilt
  nothing : graph.dispatch = none

/-- A graph is built by the call to build it, and by no other. -/
theorem Unbuilt.attempt (unbuilt : graph.Unbuilt) {call : Call}
    (other : ∀ batch, call ≠ .build batch) : (graph.attempt call).2.Unbuilt := by
  rcases graph.attempt_cases call with ⟨wiring, rewired, -⟩ | ⟨batch, rfl⟩ | ⟨event, rfl⟩
  · rw [rewired]
    exact ⟨unbuilt.stage, unbuilt.nothing⟩
  · exact absurd rfl (other batch)
  · rwa [attempt_event_of_unbuilt unbuilt.stage unbuilt.nothing]

theorem Unbuilt.attempts (unbuilt : graph.Unbuilt) {calls : List Call}
    (others : ∀ call ∈ calls, ∀ batch, call ≠ .build batch) : (graph.attempts calls).Unbuilt := by
  induction calls generalizing graph with
  | nil => exact unbuilt
  | cons call rest ih =>
      obtain ⟨here, behind⟩ := List.forall_mem_cons.mp others
      exact ih (unbuilt.attempt here) behind

/-- **Connecting keeps a graph free of cycles, and refuses exactly what it must.**  After any calls
on a new graph, every edge joins two modules that exist, no edge is repeated, and no way along the
edges leads back to where it began.  As long as the graph has not been built, an edge is refused for
an end that does not exist, then for being there, then for a path from its target to its source, and
for nothing else; otherwise it is all that is added.  A refusal changes nothing.  The search ends on
every wiring, cyclic ones included, and finds what there is a path to. -/
theorem connect_exact (name : String) (settings : GraphSettings) (stream : Stream)
    (calls : List Call) :
    let graph := (create name settings stream).attempts calls
    ((∀ edge ∈ graph.wiring.edges, edge.1 < graph.wiring.size ∧ edge.2 < graph.wiring.size) ∧
        graph.wiring.edges.Nodup ∧
        ∀ module, ¬ Relation.TransGen (fun source target => (source, target) ∈ graph.wiring.edges)
          module module) ∧
      ((∀ call ∈ calls, ∀ batch, call ≠ .build batch) → graph.state = .unbuilt) ∧
      (graph.state = .unbuilt → ∀ source target, graph.Connects source target) ∧
      (∀ source target, graph.connectInPlace source target =
        ((graph.connect source target).map fun _ => (),
          (graph.attempt (.connect source target)).2)) ∧
      (∀ source target refusal, (graph.connectInPlace source target).1 = .error refusal →
        (graph.connectInPlace source target).2 = graph) ∧
      ∀ wiring : Wiring, wiring.Bounded → ∀ source target, target < wiring.size → ∃ found later,
        wiring.search source target (Array.replicate wiring.size false) = .ok (found, later) ∧
          (found = true ↔ Feeds wiring target source) := by
  intro graph
  have created : (create name settings stream).wiring.Ordered := .empty
  have unbuilt : (create name settings stream).Unbuilt := ⟨rfl, rfl⟩
  have ordered : graph.wiring.Ordered := ordered_attempts created calls
  refine ⟨⟨ordered.valid.bounds, ordered.valid.distinct, ordered.acyclic.no_loop⟩, ?_, ?_,
    connectInPlace_eq ordered.valid, ?_, ?_⟩
  · exact fun others => (unbuilt.attempts others).stage
  · exact fun stage => connects_of_valid stage ordered.valid
  · intro source target refusal refused
    rw [connectInPlace_eq ordered.valid] at refused ⊢
    cases answer : graph.connect source target with
    | error failure =>
        rw [attempt, answer]
        rfl
    | ok after => simp [answer, Except.map] at refused
  · exact fun wiring bounded source target known => Wiring.search_exact bounded known source

/-- Three modules in a row, the edge that would close the ring, and one that is there already. -/
def ringCalls : List Call :=
  [.addModule (sampleModule "one" 1 1), .addModule (sampleModule "two" 1 1),
    .addModule (sampleModule "three" 1 1), .connect 0 1, .connect 1 2, .connect 2 0, .connect 0 1]

theorem connect_exact_sample :
    let graph := (create "ring" sample.settings (.blank "nothing")).attempts ringCalls
    graph.wiring.edges = [(0, 1), (1, 2)] ∧
      graph.connect 2 0 = .error (.error (.cycleDetected 2 0)) ∧ Feeds graph.wiring 0 2 ∧
      ¬ Feeds graph.wiring 2 0 := by
  intro graph
  obtain ⟨-, unbuilt, answers, -, -, -⟩ :=
    connect_exact "ring" sample.settings (.blank "nothing") ringCalls
  have answer := answers (unbuilt (by simp [ringCalls]))
  have wired : graph.wiring.edges = [(0, 1), (1, 2)] := by decide +kernel
  have closing : graph.connect 2 0 = .error (.error (.cycleDetected 2 0)) := rfl
  obtain ⟨-, -, forward⟩ := (answer 2 0).cyclic.mp closing
  obtain ⟨-, -, back, -⟩ := ((answer 0 2).added _).mp rfl
  exact ⟨wired, closing, forward, back⟩

end Graph

end Mixnet
