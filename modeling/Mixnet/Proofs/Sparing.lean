import Mathlib.Data.List.Fold
import Mathlib.Data.List.MinMax
import Mixnet.Proofs.Construction
import Mixnet.Proofs.Routing

/-!
# A buffer for every phase

A round sets up its buffer when it knows the expanded size of each of its phases, and links them to
it.  Linking refuses a buffer that is shorter than the batch of the phase.  This file finds that the
buffer of a round is never refused, whatever else a round may be refused for.

## Main definitions

* `Graph.shortBuffer`: the fault of a buffer that is too short
* `Fault.Spares`: a result that is no such fault

## Main statements

* `Graph.spares_build`, `Graph.spares_link`: which operations raise no such fault
* `Round.spares_create`: creating a round never does
-/

namespace Mixnet

/-- A buffer is too short for an expanded batch. -/
def Graph.shortBuffer (context : Option String) : Fault :=
  .violated .graphShape "round buffer shorter than the expanded batch" context

/-- A result that does not blame the buffer for being too short. -/
def Fault.Spares {α : Type} (result : Except Fault α) : Prop :=
  ∀ context, result ≠ .error (Graph.shortBuffer context)

namespace Fault

variable {α β : Type}

@[simp] theorem spares_ok (value : α) : Spares (.ok value) := by
  simp [Spares]

theorem Spares.bind {first : Except Fault α} {next : α → Except Fault β} (head : Spares first)
    (tail : ∀ value, first = .ok value → Spares (next value)) : Spares (first >>= next) := by
  intro context blamed
  rcases bind_eq_error.mp blamed with refused | ⟨value, made, refused⟩
  · exact head context refused
  · exact tail value made context refused

/-- A requirement of another invariant, or with another reason. -/
theorem spares_require {invariant : Invariant} {reason : String}
    (other : (invariant, reason) ≠
      (.graphShape, "round buffer shorter than the expanded batch"))
    (condition : Bool) (context : Option String) :
    Spares (invariant.require condition reason context) := by
  intro named blamed
  cases condition with
  | true => cases blamed
  | false =>
      injection blamed with blamed
      injection blamed with invariant_eq reason_eq
      exact other (Prod.ext invariant_eq reason_eq)

end Fault

open Fault

namespace Graph

/-- Compiling a wiring does not blame the buffer. -/
theorem spares_compile (name : String) (settings : GraphSettings) (wiring : Wiring)
    (batch : Nat) : Spares (Plan.compile name settings wiring batch) := by
  unfold Plan.compile
  refine Spares.bind ?shape fun _ _ => Spares.bind ?expansion fun _ _ =>
    Spares.bind ?sizes fun _ _ => spares_ok _
  case shape =>
    unfold Plan.checkShape
    refine (spares_require (by decide) _ _).bind fun _ _ => ?_
    refine (spares_require (by decide) _ _).bind fun _ _ => ?_
    split
    case h_1 =>
      refine (spares_require (by decide) _ _).bind fun _ _ => ?_
      refine (spares_require (by decide) _ _).bind fun _ _ => ?_
      refine (spares_require (by decide) _ _).bind fun _ _ => ?_
      exact (spares_require (by decide) _ _).bind fun _ _ => spares_ok _
    case h_2 =>
      intro context blamed
      injection blamed with blamed
      simp [shortBuffer] at blamed
  case expansion =>
    intro context blamed
    have overflow := expandBatchSize_refused blamed
    simp [shortBuffer, expandBatchSize.overflow] at overflow
  case sizes =>
    intro context blamed
    obtain ⟨reason, other, same | same⟩ := Plan.resolveFrom_refused blamed <;>
      simp [shortBuffer, Invariant.graphShape, Invariant.threadBounds,
        Invariant.chunkDividesAssignment] at same

/-- Neither does an account that is refused. -/
theorem spares_create (expanded unit chunkSize inputs : Nat) (threshold : Binary32) :
    Spares (AssignmentList.create expanded unit chunkSize inputs threshold) := by
  intro context blamed
  cases AssignmentList.create_eq_error.mp blamed

theorem spares_buildModules (expanded : Nat) (specs : List ModuleSpec)
    (sizes : List ResolvedModule) : Spares (buildModules expanded specs sizes) := by
  induction specs generalizing sizes with
  | nil => exact spares_ok _
  | cons spec specs ih =>
      cases sizes with
      | nil => exact spares_ok _
      | cons resolved sizes =>
          have made : Spares (buildModule expanded spec resolved) :=
            (spares_create _ _ _ _ _).bind fun _ _ => spares_ok _
          exact made.bind fun _ _ => (ih sizes).bind fun _ _ => spares_ok _

theorem spares_buildSink (expanded : Nat) (settings : GraphSettings) (last : Nat) :
    Spares (buildSink expanded settings last) :=
  (spares_create _ _ _ _ _).bind fun _ _ => spares_ok _

/-- **Building a graph does not blame the buffer**, which it has never seen. -/
theorem spares_build (graph : Graph) (batch : Nat) : Spares (graph.build batch) := by
  unfold build expect
  refine (spares_require (by decide) _ _).bind fun _ _ => ?_
  refine (spares_compile _ _ _ _).bind fun _ _ => ?_
  refine (spares_buildModules _ _ _).bind fun _ _ => ?_
  exact (spares_buildSink _ _ _).bind fun _ _ => spares_ok _

/-- **Linking a graph blames the buffer only if it is too short.** -/
theorem spares_link {graph : Graph} {buffer : RoundBuffer}
    (enough : graph.expandedSize ≤ buffer.expandedSize) : Spares (graph.link buffer) := by
  unfold link expect
  refine (spares_require (by decide) _ _).bind fun _ _ => ?_
  rw [decide_eq_true enough]
  refine Spares.bind (spares_ok ()) fun _ _ => ?_
  refine Spares.bind ?_ fun _ _ => spares_ok _
  cases graph.stream with
  | blank name => exact spares_ok _
  | payload stream =>
      intro context blamed
      cases linked : stream.link graph.expandedSize buffer with
      | error fault =>
          have spared : Spares (stream.link graph.expandedSize buffer) :=
            (spares_require (by decide) _ _).bind fun _ _ => spares_ok _
          simp only [Stream.link, linked, Except.map] at blamed
          injection blamed with same
          exact spared context (same ▸ linked)
      | ok cells => simp [Stream.link, linked, Except.map] at blamed

end Graph

namespace Round

variable {buffer : RoundBuffer} {phases built : List Phase}

theorem spares_buildPhases (batchSize : Nat) (phases : List Phase) :
    Spares (buildPhases batchSize phases) := by
  induction phases with
  | nil => exact spares_ok _
  | cons phase phases ih =>
      exact (phase.graph.spares_build batchSize).bind fun _ _ => ih.bind fun _ _ => spares_ok _

/-- Linking phases does not blame a buffer that is as long as each of them. -/
theorem spares_linkPhases (binding : PhaseBinding)
    (enough : ∀ phase ∈ phases, phase.graph.expandedSize ≤ buffer.expandedSize) :
    Spares (linkPhases buffer binding phases) := by
  induction phases with
  | nil => exact spares_ok _
  | cons phase phases ih =>
      obtain ⟨here, others⟩ := List.forall_mem_cons.mp enough
      refine (Graph.spares_link here).bind fun graph _ => ?_
      have bound : Spares ({ phase with graph : Phase }.bind binding) :=
        (spares_require (by decide) _ _).bind fun _ _ => spares_ok _
      exact bound.bind fun _ _ => (ih others).bind fun _ _ => spares_ok _

/-- No phase is longer than the longest. -/
theorem le_expandedSize {phase : Phase} (member : phase ∈ phases) (batchSize : Nat) :
    phase.graph.expandedSize ≤ expandedSize batchSize phases := by
  have among : phase.graph.expandedSize ∈ phases.map fun phase => phase.graph.expandedSize :=
    List.mem_map_of_mem member
  unfold expandedSize
  split
  case h_1 => cases member
  case h_2 =>
    rw [List.foldl_eq_foldr]
    exact List.le_max_of_le' 0 among (Nat.le_refl _)

/-- **A new round never finds its buffer too short.** -/
theorem spares_assemble (group : CyclicGroup) (id : Nat) (topology : Topology) (batchSize : Nat)
    (phases : List Phase) (responses : ResponseMap) :
    Spares (assemble group id topology batchSize phases responses) := by
  refine (spares_buildPhases batchSize phases).bind fun built _ => ?_
  refine (spares_linkPhases _ fun phase member => ?_).bind fun _ _ => spares_ok _
  exact (le_expandedSize member batchSize).trans (Nat.le_max_left _ _)

end Round

end Mixnet
