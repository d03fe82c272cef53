import Mixnet.Proofs.ExactlyOnce

/-!
# No module runs ahead of its inputs

A module is never called on slots that one of its inputs has not returned on, and a chunk leaves the
graph only if every module on a path to the last one has returned on all of it.  This needs nothing
of kernels or of input: kernels may fail, the graph may be killed, and input may overlap, as long as
it is taken.

## Main statements

* `Graph.Built.returned_upstream`: where a module has returned, everything on a path to it has
* `Graph.Reached.called_behind`: a kernel is called behind all inputs of its module
* `Graph.Reached.queued_behind`: the sink queues behind everything that feeds the last module
* `Graph.no_module_ahead`: no module runs ahead, and failed work never leaves the graph
-/

namespace Mixnet

open Journal

namespace Journal

theorem one_le_coverage_returnedOn {journal : List Observation} {id slot : Nat} {chunk : Chunk}
    {result : Except KernelError Unit} (member : .returned id chunk result ∈ journal)
    (covers : chunk.covers slot = true) : 1 ≤ Chunk.coverage (returnedOn journal id) slot := by
  refine Chunk.coverage_pos_iff.mpr ⟨chunk, ?_, covers⟩
  rw [returnedOn, view, List.mem_filterMap]
  exact ⟨_, member, by simp⟩

/-- A slot that two different results were returned on was returned on twice. -/
theorem two_le_coverage_returnedOn {journal : List Observation} {id slot : Nat}
    {left right : Chunk} {left_result right_result : Except KernelError Unit}
    (left_mem : .returned id left left_result ∈ journal)
    (right_mem : .returned id right right_result ∈ journal) (different : left_result ≠ right_result)
    (left_covers : left.covers slot = true) (right_covers : right.covers slot = true) :
    2 ≤ Chunk.coverage (returnedOn journal id) slot := by
  obtain ⟨newer, past, rfl⟩ := List.append_of_mem left_mem
  have here : Chunk.coverage (returnedOn (.returned id left left_result :: past) id) slot =
      Chunk.coverage (returnedOn past id) slot + 1 := by
    simp [Chunk.coverage_cons, left_covers]
  rw [returnedOn, view_append, Chunk.coverage_append, ← returnedOn, ← returnedOn, here]
  -- The other return is older or newer than this one, but it is not the same.
  rcases List.mem_append.mp right_mem with before | behind
  · have := one_le_coverage_returnedOn before right_covers
    omega
  · rcases List.mem_cons.mp behind with same | older
    · injection same with _ _ same
      exact absurd same.symm different
    · have := one_le_coverage_returnedOn older right_covers
      omega

end Journal

namespace Dispatch

variable {origin dispatch : Dispatch} {first expanded : Nat} {rank : Nat → Nat}
  {journal past : List Observation}

theorem Causal.of_suffix (causal : Causal origin first journal) (suffix : past <:+ journal) :
    Causal origin first past :=
  fun observation older inner => causal observation older (inner.trans suffix)

/-- What an observation at a place of the journal is justified by, and that it is causal itself. -/
theorem Causal.at_split (causal : Causal origin first journal) {newer : List Observation}
    {observation : Observation} (split : journal = newer ++ observation :: past) :
    Justified origin first past observation ∧ Causal origin first past := by
  have suffix : observation :: past <:+ journal := ⟨newer, split.symm⟩
  exact ⟨causal observation past suffix, causal.of_suffix ((List.suffix_cons _ _).trans suffix)⟩

/-- A kernel does not both return and fail on a slot. -/
theorem Sound.not_failed (sound : Sound origin first dispatch)
    (laid : origin.Laid first expanded rank) {id slot : Nat} {chunk : Chunk} {error : KernelError}
    (failed : .returned id chunk (.error error) ∈ dispatch.journal)
    (covers : chunk.covers slot = true) : ¬ Returned dispatch.journal id slot := by
  rintro ⟨other, returned, other_covers⟩
  have wired : id < dispatch.sink := by
    rw [sound.accounted.sink_eq]
    exact (sound.causal.justified (sound.causal.justified failed)).1
  obtain ⟨module, found⟩ := sound.exists_module laid wired.le
  have twice := two_le_coverage_returnedOn failed returned (by simp) covers other_covers
  have once := sound.conserved.calls_once sound.accounted laid found wired slot
  have within := sound.returning.coverage_le id slot
  omega

end Dispatch

namespace Graph

variable {built graph : Graph} {origin dispatch : Dispatch} {first last : Nat} {rank : Nat → Nat}
  {events : List Event} {journal past : List Observation}

/-- **Where a module has returned, everything on a path to it has.** -/
theorem Built.returned_upstream (building : Built built origin first last rank)
    (valid : built.wiring.Valid) (causal : Dispatch.Causal origin first journal)
    {source target : Nat} (feeds : Feeds built.wiring source target) {slot : Nat}
    (returned : Returned journal target slot) : Returned journal source slot := by
  -- By induction on the path, from its end: one edge at a time, a return needs those before it.
  induction feeds using Relation.ReflTransGen.head_induction_on with
  | refl => exact returned
  | @head input id edge _ ih =>
      have wired : id < origin.sink := by
        rw [building.sink_eq]
        exact (valid.bounds _ edge).2
      obtain ⟨module, found⟩ : ∃ module, origin.modules[id]? = some module := by
        have size_eq := building.laid.size_eq
        exact ⟨_, Array.getElem?_eq_getElem (by omega)⟩
      refine causal.returned_input found ?_ ih
      rw [building.inputs_eq id module found wired]
      exact Wiring.mem_inputsOf.mpr edge

namespace Reached

/-- **A kernel is called behind all inputs of its module**: they have returned on the whole
assignment that the call belongs to. -/
theorem called_behind (building : Built built origin first last rank)
    (reached : Reached built origin first events graph dispatch) {id : Nat} {chunk : Chunk}
    {newer : List Observation} (split : dispatch.journal = newer ++ .called id chunk :: past) :
    ∃ module, dispatch.modules[id]? = some module ∧ ∃ k < module.assignments.size,
      k * module.assignmentSize ≤ chunk.start ∧ chunk.stop ≤ (k + 1) * module.assignmentSize ∧
      ∀ input, (input, id) ∈ built.wiring.edges → ∀ slot, k * module.assignmentSize ≤ slot →
        slot < (k + 1) * module.assignmentSize → Returned past input slot := by
  have sound := reached.sound
  obtain ⟨⟨inner, assignment, queued, start_le, stop_le⟩, causal⟩ := sound.causal.at_split split
  obtain ⟨before, before_found, assigned, returned⟩ := causal.justified queued
  obtain ⟨module, found, rfl⟩ := sound.accounted.exists_of_origin before_found
  have fits := sound.accounted.fits building.laid found
  rw [Module.fresh, Module.all_fresh] at assigned
  obtain ⟨k, inside, rfl⟩ := AssignmentList.mem_all.mp assigned
  obtain ⟨start_eq, stop_eq⟩ := fits.sized.assignment_bounds inside
  rw [fits.unit_eq] at start_eq stop_eq
  rw [← Nat.succ_mul] at stop_eq
  refine ⟨module, found, k, inside, start_eq ▸ start_le, stop_eq ▸ stop_le, ?_⟩
  intro input edge slot above below
  refine returned input ?_ slot (Chunk.covers_iff.mpr ⟨start_eq ▸ above, stop_eq ▸ below⟩)
  rw [building.inputs_eq id module.fresh before_found inner]
  exact Wiring.mem_inputsOf.mpr edge

/-- **The sink queues a chunk behind everything that feeds the last module.** -/
theorem queued_behind (building : Built built origin first last rank)
    (reached : Reached built origin first events graph dispatch) (valid : built.wiring.Valid)
    {chunk : Chunk} {newer : List Observation}
    (split : dispatch.journal = newer ++ .queued dispatch.sink chunk :: past) {id slot : Nat}
    (feeds : Feeds built.wiring id last) (covered : chunk.covers slot = true) :
    Returned past id slot := by
  obtain ⟨⟨module, found, -, returned⟩, causal⟩ := reached.sound.causal.at_split split
  rw [reached.sound.accounted.sink_eq] at found
  refine building.returned_upstream valid causal feeds (returned last ?_ slot covered)
  rw [building.sink_inputs module found]
  exact List.mem_singleton_self _

/-- What waits to be taken was queued by the sink. -/
theorem queued_of_pending (building : Built built origin first last rank)
    (reached : Reached built origin first events graph dispatch) {chunk : Chunk}
    (waiting : chunk ∈ graph.pendingOutput) : .queued dispatch.sink chunk ∈ dispatch.journal := by
  obtain ⟨sink, found⟩ := reached.sound.exists_module building.laid le_rfl
  rw [pendingOutput, reached.dispatch_eq] at waiting
  simp only [Option.bind_some, found, Option.map_some, Option.getD_some] at waiting
  exact mem_queuedOn.mp ((reached.sound.accounted.kept _ sink found).waiting_sub.subset waiting)

/-- The sink has queued no slot on which a module that feeds the last one failed. -/
theorem apart_of_failed (building : Built built origin first last rank)
    (reached : Reached built origin first events graph dispatch) (valid : built.wiring.Valid)
    {chunk call : Chunk} {id : Nat} {error : KernelError}
    (queued : .queued dispatch.sink chunk ∈ dispatch.journal) (feeds : Feeds built.wiring id last)
    (failed : .returned id call (.error error) ∈ dispatch.journal) : Chunk.Apart chunk call := by
  rintro slot ⟨covered, call_covers⟩
  obtain ⟨newer, past, split⟩ := List.append_of_mem queued
  have returned := reached.queued_behind building valid split feeds covered
  refine reached.sound.not_failed building.laid failed call_covers (returned.mono ?_)
  intro observation member
  rw [split]
  exact List.mem_append_right _ (List.mem_cons_of_mem _ member)

end Reached

/-- **No module runs ahead of its inputs, and failed work never reaches the output.**  Whatever
kernels do and whenever the graph is killed: when the kernel of a module is called on a chunk, every
module with an edge to it has returned on the whole assignment that contains the chunk; when the
sink queues a chunk, every module from which the last one can be reached has returned on all of it;
only such chunks wait to be taken; and no such module has failed on a slot of them. -/
theorem no_module_ahead {graph built after : Graph} {batch : Nat} {events : List Event}
    (wired : graph.Wired)
    (few : ∀ module, (graph.wiring.inputsOf module).length < Word.limit 32)
    (building : graph.build batch = .ok built) (played : built.play events = some after) :
    ∃ dispatch last, after.dispatch = some dispatch ∧ graph.wiring.last = some last ∧
      (∀ id chunk newer past, dispatch.journal = newer ++ .called id chunk :: past →
        ∃ module, dispatch.modules[id]? = some module ∧ ∃ k < module.assignments.size,
          k * module.assignmentSize ≤ chunk.start ∧
          chunk.stop ≤ (k + 1) * module.assignmentSize ∧
          ∀ input, (input, id) ∈ graph.wiring.edges → ∀ slot, k * module.assignmentSize ≤ slot →
            slot < (k + 1) * module.assignmentSize → Returned past input slot) ∧
      (∀ chunk newer past, dispatch.journal = newer ++ .queued dispatch.sink chunk :: past →
        ∀ id, Feeds graph.wiring id last → ∀ slot, chunk.covers slot = true →
          Returned past id slot) ∧
      (∀ chunk ∈ after.pendingOutput, .queued dispatch.sink chunk ∈ dispatch.journal) ∧
      (∀ chunk, .queued dispatch.sink chunk ∈ dispatch.journal → ∀ id, Feeds graph.wiring id last →
        ∀ call error, .returned id call (.error error) ∈ dispatch.journal →
          Chunk.Apart chunk call) := by
  have valid := wired.valid.1
  obtain ⟨wiring_eq, origin, first, last, rank, building⟩ := build_built wired few building
  obtain ⟨dispatch, reached⟩ := reached_of_play building played
  rw [← wiring_eq] at valid ⊢
  refine ⟨dispatch, last, reached.dispatch_eq, building.last_eq, ?_, ?_, ?_, ?_⟩
  · intro id chunk newer past split
    exact reached.called_behind building split
  · intro chunk newer past split id feeds slot covered
    exact reached.queued_behind building valid split feeds covered
  · intro chunk waiting
    exact reached.queued_of_pending building waiting
  · intro chunk queued id feeds call error failed
    exact reached.apart_of_failed building valid queued feeds failed

/-- A run in which the second call of the first module dies while the second module is at rest. -/
def sampleFailure : List Event :=
  [.link (.create ⟨7, 2⟩ 4 4), .start, .send front] ++
  [Dispatch.Step.take 0, .enter 0, .leave 0 (.ok ()), .proceed 0, .proceed 0, .enter 0,
    .leave 0 (.error (.panicked "lost"))].map .work ++ [.collect, .send front]

theorem no_module_ahead_sample : ∃ after, sampleBuilt.play sampleFailure = some after ∧
    ∃ dispatch last, after.dispatch = some dispatch ∧ sample.wiring.last = some last ∧
      (∀ id chunk newer past, dispatch.journal = newer ++ .called id chunk :: past →
        ∃ module, dispatch.modules[id]? = some module ∧ ∃ k < module.assignments.size,
          k * module.assignmentSize ≤ chunk.start ∧
          chunk.stop ≤ (k + 1) * module.assignmentSize ∧
          ∀ input, (input, id) ∈ sample.wiring.edges → ∀ slot, k * module.assignmentSize ≤ slot →
            slot < (k + 1) * module.assignmentSize → Returned past input slot) ∧
      (∀ chunk newer past, dispatch.journal = newer ++ .queued dispatch.sink chunk :: past →
        ∀ id, Feeds sample.wiring id last → ∀ slot, chunk.covers slot = true →
          Returned past id slot) ∧
      (∀ chunk ∈ after.pendingOutput, .queued dispatch.sink chunk ∈ dispatch.journal) ∧
      (∀ chunk, .queued dispatch.sink chunk ∈ dispatch.journal →
        ∀ id, Feeds sample.wiring id last → ∀ call error,
          .returned id call (.error error) ∈ dispatch.journal → Chunk.Apart chunk call) := by
  have plays : (sampleBuilt.play sampleFailure).isSome = true := by decide +kernel
  obtain ⟨after, played⟩ := Option.isSome_iff_exists.mp plays
  exact ⟨after, played, no_module_ahead sample_wired sample_few sample_build played⟩

end Graph

end Mixnet
