import Mixnet.Proofs.Reached

/-!
# Input

The first module is fed from outside.  What it has received is what was sent, so what can be said
about it depends on the chunks that were sent: whether they are disjoint, and whether they cover the
batch.

## Main definitions

* `Graph.Portions`: non-empty and disjoint chunks of a batch

## Main statements

* `Dispatch.delivers_portion`: a module that is fed from outside takes every further portion
* `Graph.Reached.coverage_first`: the first module has received each slot as often as it was sent
* `Graph.Reached.takes`: a graph whose work goes on takes a further portion
-/

namespace Mixnet

open Journal

/-! ## A module that is fed from outside -/

section Entrance

variable {dispatch : Dispatch} {target expanded : Nat} {module : Module} {chunk : Chunk}

/-- **A module at work that is fed from outside takes every further portion**: its queue is open,
and the portion is delivered. -/
theorem Dispatch.delivers_portion (found : dispatch.modules[target]? = some module)
    (fits : module.Fits expanded) (sized : module.assignments.Sized expanded 1)
    (kept : module.Kept false (reportsTo dispatch.journal target)
      (queuedOn dispatch.journal target)) (running : dispatch.terminated = false)
    (once : ∀ slot, Chunk.coverage (chunk :: reportsTo dispatch.journal target) slot ≤ 1)
    (nonempty : chunk.start < chunk.stop) (inside : chunk.stop ≤ expanded) :
    module.queue.closed = false ∧ ∃ next released answer,
      dispatch.Delivers expanded none target chunk module next released answer := by
  constructor
  · by_contra closed
    rw [Bool.not_eq_false, kept.closed_iff] at closed
    rcases closed with impossible | complete
    · cases impossible
    · -- Everything has been received, the first slot of the chunk among it.
      have often : Chunk.coverage (reportsTo dispatch.journal target) chunk.start = 1 := by
        refine kept.coverage_of_complete fits sized ?_ complete (by omega)
        intro slot
        have bound := once slot
        rw [Chunk.coverage_cons] at bound
        omega
      have bound := once chunk.start
      rw [Chunk.coverage_cons, often, if_pos (Chunk.covers_iff.mpr ⟨le_rfl, nonempty⟩)] at bound
      omega
  · obtain ⟨out, list, accepted⟩ := AssignmentList.prime_accepts sized kept.accounts
      (Or.inr inside) fun index _ => sized.load_le once index
    exact Dispatch.prime_delivers found sized (running.symm ▸ kept) accepted none

/-- What is delivered to the first module of a graph at work is taken. -/
theorem Graph.send_of_delivers {graph : Graph} {next : Module} {released : List Chunk}
    {answer : Bool} (first_eq : graph.wiring.first = some target)
    (dispatch_eq : graph.dispatch = some dispatch) (running : dispatch.terminated = false)
    (found : dispatch.modules[target]? = some module) (opened : module.queue.closed = false)
    (delivers : dispatch.Delivers expanded none target chunk module next released answer) :
    graph.send chunk = (.ok answer, { graph with
      dispatch := some (dispatch.delivered none target chunk next released answer) }) := by
  unfold send
  rw [Graph.dispatched, dispatch_eq]
  simp only [first_eq, Option.getD_some, running, found, Option.map_some, opened,
    delivers.prime_eq, Bool.false_eq_true, if_false]

end Entrance

namespace Graph

/-- Non-empty and disjoint chunks of a batch of `expanded` slots. -/
structure Portions (expanded : Nat) (chunks : List Chunk) : Prop where
  nonempty : ∀ chunk ∈ chunks, chunk.start < chunk.stop
  inside : ∀ chunk ∈ chunks, chunk.stop ≤ expanded
  apart : chunks.Pairwise Chunk.Apart

theorem Portions.coverage_le {expanded : Nat} {chunks : List Chunk}
    (portions : Portions expanded chunks) (slot : Nat) : Chunk.coverage chunks slot ≤ 1 :=
  Chunk.pairwise_apart_iff.mp portions.apart slot

variable {built graph : Graph} {origin dispatch : Dispatch} {first last : Nat}
  {rank : Nat → Nat} {events : List Event} {module : Module}

namespace Reached

/-- The first module has one input: the outside. -/
theorem sized_first (building : Built built origin first last rank)
    (reached : Reached built origin first events graph dispatch)
    (found : dispatch.modules[first]? = some module) :
    module.assignments.Sized built.expandedSize 1 := by
  have sized := (reached.sound.accounted.fits building.laid found).sized
  have inputs_eq : module.inputs = [] :=
    (building.laid.entrance first module.fresh (reached.sound.accounted.laid_out found)).mpr rfl
  rw [inputs_eq] at sized
  exact sized

/-- **The first module has received each slot as often as it was sent.** -/
theorem coverage_first (reached : Reached built origin first events graph dispatch)
    (running : dispatch.terminated = false) (slot : Nat) :
    Chunk.coverage (reportsTo dispatch.journal first) slot = Chunk.coverage (sent events) slot := by
  rw [reached.received running]
  exact Chunk.coverage_perm (List.reverse_perm _) slot

/-- **A graph whose work goes on takes a further portion.** -/
theorem takes (building : Built built origin first last rank)
    (reached : Reached built origin first events graph dispatch)
    (running : dispatch.terminated = false) {chunk : Chunk}
    (portions : Portions built.expandedSize (sent events ++ [chunk])) :
    ∃ answer after, graph.send chunk = (.ok answer, after) := by
  have first_le : first ≤ dispatch.sink := by
    rw [reached.sound.accounted.sink_eq]
    exact building.laid.first_lt.le
  obtain ⟨module, found⟩ := reached.sound.exists_module building.laid first_le
  have once : ∀ slot, Chunk.coverage (chunk :: reportsTo dispatch.journal first) slot ≤ 1 := by
    intro slot
    have bound := portions.coverage_le slot
    rw [Chunk.coverage_append, ← reached.coverage_first running] at bound
    rw [Chunk.coverage_cons]
    simpa [Chunk.coverage_cons] using bound
  have chunk_mem : chunk ∈ sent events ++ [chunk] :=
    List.mem_append_right _ (List.mem_singleton_self _)
  obtain ⟨opened, next, released, answer, delivers⟩ := Dispatch.delivers_portion found
    (reached.sound.accounted.fits building.laid found) (reached.sized_first building found)
    (running ▸ reached.sound.accounted.kept first module found) running once
    (portions.nonempty chunk chunk_mem) (portions.inside chunk chunk_mem)
  exact ⟨answer, _, send_of_delivers (reached.wiring_eq ▸ building.first_eq) reached.dispatch_eq
    running found opened delivers⟩

end Reached

end Graph

end Mixnet
