import Mixnet.Proofs.Causality

/-!
# What a complete graph has finished

A graph counts as complete once its sink has queued everything.  The sink hears of the last module
alone, so completeness speaks of the modules that the last one can be reached from: each of them has
queued all its assignments, and its kernel has returned on every slot.  A graph in which one of them
has failed is therefore never complete.

Of a module on a side branch completeness says nothing.  Compiling asks that every module can be
reached from the first one, not that it reaches the last one, and so a graph can be complete while
a side branch still works, or has failed.

## Main definitions

* `Module.Finished`: a module that has queued everything and returned on everything
* `Graph.forked`: a graph with a side branch

## Main statements

* `Graph.Reached.goes_on`: what was observed stays observed
* `Graph.Built.feeds_of_only_end`: if only the last module has no outputs, every module feeds it
* `Graph.complete_finished`: in a complete graph, all that feeds the last module has finished, and a
  graph in which it has failed is never complete
* `Graph.side_branch_fails`: a complete graph, and a kernel that fails on a side branch
-/

namespace Mixnet

open Journal

/-! ## Finished modules -/

/-- A module that has queued all its assignments, and whose kernel has returned on every slot. -/
structure Module.Finished (module : Module) (journal : List Observation) (id expanded : Nat) :
    Prop where
  queued_everything : module.assignments.completed = module.assignments.size
  returned_everywhere : ∀ slot < expanded, Returned journal id slot

namespace Module.Kept

variable {module : Module} {terminated : Bool} {received queued : List Chunk} {expanded : Nat}

/-- A module that has queued as many assignments as it has, has queued each of them. -/
theorem queued_perm_all (kept : module.Kept terminated received queued)
    (complete : module.assignments.completed = module.assignments.size) :
    queued.Perm module.assignments.all := by
  have within := kept.queued_sub.trans module.assignments.released_sublist_all.subperm
  refine within.perm_of_length_le ?_
  rw [AssignmentList.length_all, ← complete, kept.completed_eq]

/-- A module that has queued each of its assignments has queued as many as it has. -/
theorem complete_of_queued (kept : module.Kept terminated received queued)
    (fits : module.Fits expanded) (everything : module.assignments.all ⊆ queued) :
    module.assignments.completed = module.assignments.size := by
  have enough := (List.subperm_of_subset fits.sized.nodup_all everything).length_le
  have bound := kept.released_le
  rw [AssignmentList.length_all] at enough
  rw [kept.completed_eq]
  omega

end Module.Kept

/-- An assignment that shares a slot with another one is that one. -/
theorem AssignmentList.Sized.index_eq_of_covers {list : AssignmentList} {expanded inputs : Nat}
    (sized : list.Sized expanded inputs) {left right slot : Nat} (left_lt : left < list.size)
    (right_lt : right < list.size) (left_covers : (list.assignment left).covers slot = true)
    (right_covers : (list.assignment right).covers slot = true) : left = right := by
  have position {index : Nat} (inside : index < list.size)
      (covers : (list.assignment index).covers slot = true) :
      slot / list.assignmentSize = index := by
    obtain ⟨start_eq, stop_eq⟩ := sized.assignment_bounds inside
    rw [Chunk.covers_iff, start_eq, stop_eq, ← Nat.succ_mul] at covers
    exact Nat.div_eq_of_lt_le covers.1 covers.2
  exact (position left_lt left_covers).symm.trans (position right_lt right_covers)

namespace Dispatch.Sound

variable {origin dispatch : Dispatch} {first expanded : Nat} {rank : Nat → Nat} {module : Module}

/-- A module whose kernel has returned on every slot has queued all its assignments. -/
theorem finished (sound : Sound origin first dispatch) (laid : origin.Laid first expanded rank)
    {id : Nat} (found : dispatch.modules[id]? = some module)
    (returned : ∀ slot < expanded, Returned dispatch.journal id slot) :
    module.Finished dispatch.journal id expanded := by
  have fits := sound.accounted.fits laid found
  have kept := sound.accounted.kept id module found
  refine ⟨kept.complete_of_queued fits ?_, returned⟩
  intro chunk member
  obtain ⟨index, inside, rfl⟩ := AssignmentList.mem_all.mp member
  obtain ⟨start_eq, stop_eq⟩ := fits.sized.assignment_bounds inside
  -- The return on its first slot belongs to a call, and the call to an assignment that was queued.
  have first_slot : (module.assignments.assignment index).covers
      (index * module.assignments.assignmentSize) = true := by
    rw [Chunk.covers_iff, start_eq, stop_eq]
    exact ⟨le_rfl, Nat.lt_add_of_pos_right fits.sized.positive⟩
  have in_batch : index * module.assignments.assignmentSize < expanded :=
    (Nat.lt_add_of_pos_right fits.sized.positive).trans_le (fits.sized.stop_le inside)
  obtain ⟨call, returned, covers⟩ := returned _ in_batch
  obtain ⟨-, assignment, queued, start_le, stop_le⟩ :=
    sound.causal.justified (sound.causal.justified returned)
  obtain ⟨other, other_inside, rfl⟩ :=
    AssignmentList.mem_all.mp (kept.assigned (mem_queuedOn.mpr queued))
  rw [Chunk.covers_iff] at covers
  have other_covers : (module.assignments.assignment other).covers
      (index * module.assignments.assignmentSize) = true :=
    Chunk.covers_iff.mpr ⟨start_le.trans covers.1, covers.2.trans_le stop_le⟩
  rw [fits.sized.index_eq_of_covers inside other_inside first_slot other_covers]
  exact mem_queuedOn.mpr queued

/-- A call was on some slot of the batch. -/
theorem exists_slot_of_called (sound : Sound origin first dispatch)
    (laid : origin.Laid first expanded rank) {id : Nat} {call : Chunk}
    (called : .called id call ∈ dispatch.journal) :
    ∃ slot < expanded, call.covers slot = true := by
  obtain ⟨wired, assignment, queued, -, stop_le⟩ := sound.causal.justified called
  have wired_le : id ≤ dispatch.sink := by
    rw [sound.accounted.sink_eq]
    exact wired.le
  obtain ⟨module, found⟩ := sound.exists_module laid wired_le
  have fits := sound.accounted.fits laid found
  have sized := (sound.calls laid found).2 call (mem_calledOn.mpr called)
  obtain ⟨index, inside, rfl⟩ := AssignmentList.mem_all.mp
    ((sound.accounted.kept id module found).assigned (mem_queuedOn.mpr queued))
  rw [(fits.sized.assignment_bounds inside).2] at stop_le
  have nonempty := fits.call_pos
  have ordered := call.start_le_stop
  rw [← sized, Chunk.length] at nonempty
  have in_batch := stop_le.trans (fits.sized.stop_le inside)
  exact ⟨call.start, by omega, Chunk.covers_iff.mpr ⟨le_rfl, by omega⟩⟩

end Dispatch.Sound

/-! ## What stays observed -/

namespace Dispatch

variable {origin dispatch next : Dispatch} {first expanded : Nat} {rank : Nat → Nat}

/-- **What was observed stays observed** when a worker moves. -/
theorem Moves.grown {step : Step} (moved : dispatch.Moves step next)
    (sound : Sound origin first dispatch) (laid : origin.Laid first expanded rank) :
    dispatch.journal ⊆ next.journal := by
  cases moved with
  | entered => exact List.subset_cons_self _ _
  | returned => exact List.subset_cons_self _ _
  | @failed position worker chunk rest error =>
      obtain ⟨-, journal_eq, -⟩ := Dispatch.fail_eq (((dispatch.observe (.returned worker.module
        chunk (.error error))).setActivity position .idle)) worker.module error
      rw [journal_eq]
      exact List.subset_cons_self _ _
  | reported here next done =>
      obtain ⟨module, after, released, -, -, rfl⟩ := sound.reports laid here next done
      exact subset_deliver
  | crashed here next refused => exact (sound.not_refused laid here next refused).elim
  | _ => exact List.Subset.refl _

end Dispatch

namespace Graph

variable {built graph after : Graph} {origin dispatch next : Dispatch} {first last expanded : Nat}
  {rank : Nat → Nat} {events later : List Event} {event : Event} {stage ended : GraphState}

theorem Turn.grown (turn : Turn origin first expanded stage dispatch event ended next)
    (laid : origin.Laid first expanded rank) (sound : Dispatch.Sound origin first dispatch) :
    dispatch.journal ⊆ next.journal := by
  cases turn with
  | fed => exact subset_deliver
  | worked moved => exact moved.grown sound laid
  | killed =>
      obtain ⟨-, journal_eq, -⟩ := dispatch.terminate_eq
      exact fun _ member => (congrArg (_ ∈ ·) journal_eq).mpr member
  | _ => exact List.Subset.refl _

namespace Reached

/-- **A play goes on from a state it has reached**, and what was observed stays observed. -/
theorem goes_on (building : Built built origin first last rank)
    (reached : Reached built origin first events graph dispatch)
    (continued : graph.play later = some after) :
    ∃ next, Reached built origin first (events ++ later) after next ∧
      dispatch.journal ⊆ next.journal := by
  induction later generalizing events graph dispatch with
  | nil =>
      injection continued with same
      subst same
      exact ⟨dispatch, by rwa [List.append_nil], List.Subset.refl _⟩
  | cons event later ih =>
      obtain ⟨middle, acted, continued⟩ := Option.bind_eq_some_iff.mp continued
      obtain ⟨between, dispatch_eq, wiring_eq, turned⟩ := reached.turn building acted
      obtain ⟨next, arrived, grown⟩ :=
        ih (reached.go building.laid dispatch_eq wiring_eq turned) continued
      rw [List.append_assoc, List.singleton_append] at arrived
      exact ⟨next, arrived, List.Subset.trans (turned.grown building.laid reached.sound) grown⟩

/-- **In a complete graph, what feeds the last module has returned on every slot.** -/
theorem returned_of_complete (building : Built built origin first last rank)
    (reached : Reached built origin first events graph dispatch) (valid : built.wiring.Valid)
    (complete : dispatch.complete = true) {id slot : Nat} (feeds : Feeds built.wiring id last)
    (inside : slot < built.expandedSize) : Returned dispatch.journal id slot := by
  have sound := reached.sound
  obtain ⟨sink, found⟩ := sound.exists_module building.laid le_rfl
  have kept := sound.accounted.kept _ sink found
  obtain ⟨index, index_lt, covered⟩ :=
    (sound.accounted.fits building.laid found).sized.exists_covers inside
  have everything := kept.queued_perm_all ((sound.accounted.complete_iff sink found).mp complete)
  have queued := mem_queuedOn.mp
    (everything.mem_iff.mpr (AssignmentList.mem_all.mpr ⟨index, index_lt, rfl⟩))
  obtain ⟨newer, past, split⟩ := List.append_of_mem queued
  refine (reached.queued_behind building valid split feeds covered).mono ?_
  rw [split]
  exact fun _ member => List.mem_append_right _ (List.mem_cons_of_mem _ member)

/-- A module that feeds another one is a module. -/
theorem exists_module_of_feeds (building : Built built origin first last rank)
    (reached : Reached built origin first events graph dispatch) (valid : built.wiring.Valid)
    {id : Nat} (feeds : Feeds built.wiring id last) :
    ∃ module, dispatch.modules[id]? = some module := by
  have known : last < built.wiring.size := valid.last_lt last building.last_eq
  have wired : id < built.wiring.size := by
    cases feeds using Relation.ReflTransGen.head_induction_on with
    | refl => exact known
    | head edge => exact (valid.bounds _ edge).1
  refine reached.sound.exists_module building.laid ?_
  rw [reached.sound.accounted.sink_eq, building.sink_eq]
  exact wired.le

/-- **A graph in which something that feeds the last module has failed is not complete.** -/
theorem incomplete_of_failed (building : Built built origin first last rank)
    (reached : Reached built origin first events graph dispatch) (valid : built.wiring.Valid)
    {id : Nat} {call : Chunk} {error : KernelError} (feeds : Feeds built.wiring id last)
    (failed : .returned id call (.error error) ∈ dispatch.journal) : graph.isComplete = false := by
  rw [isComplete, reached.dispatch_eq, ← Bool.not_eq_true]
  intro complete
  obtain ⟨slot, inside, covers⟩ :=
    reached.sound.exists_slot_of_called building.laid (reached.sound.causal.justified failed)
  exact reached.sound.not_failed building.laid failed covers
    (reached.returned_of_complete building valid complete feeds inside)

end Reached

/-- **If only the last module has no outputs, every module feeds it.** -/
theorem Built.feeds_of_only_end (building : Built built origin first last rank)
    (valid : built.wiring.Valid)
    (only_end : ∀ id < built.wiring.size, built.wiring.outputsOf id = [] → id = last) {id : Nat}
    (known : id < built.wiring.size) : Feeds built.wiring id last := by
  -- Ranks rise along the edges and are bounded, so a walk along them ends.
  have rises {source target : Nat} (edge : (source, target) ∈ built.wiring.edges) :
      rank source < rank target := by
    have wired : target < origin.sink := building.sink_eq ▸ (valid.bounds _ edge).2
    have size_eq := building.laid.size_eq
    have found : origin.modules[target]? = some origin.modules[target] :=
      Array.getElem?_eq_getElem (by omega)
    refine (building.laid.backward target _ found source ?_).1
    rw [building.inputs_eq target _ found wired]
    exact Wiring.mem_inputsOf.mpr edge
  have bounded (other : Nat) (other_lt : other < built.wiring.size) :
      rank other ≤ (Finset.range built.wiring.size).sup rank :=
    Finset.le_sup (Finset.mem_range.mpr other_lt)
  induction distance : (Finset.range built.wiring.size).sup rank - rank id
    using Nat.strong_induction_on generalizing id with
  | h distance ih =>
      cases outputs : built.wiring.outputsOf id with
      | nil =>
          rw [only_end id known outputs]
          exact Relation.ReflTransGen.refl
      | cons next rest =>
          have edge : (id, next) ∈ built.wiring.edges := by
            rw [← Wiring.mem_outputsOf, outputs]
            exact List.mem_cons_self
          have next_lt : next < built.wiring.size := (valid.bounds _ edge).2
          have rise := rises edge
          have bound := bounded next next_lt
          exact (ih _ (by omega) next_lt rfl).head edge

/-- **In a complete graph, everything that feeds the last module has finished.**  Whatever kernels
do and whenever the graph is killed: if the graph is complete, every module from which the last one
can be reached has queued all its assignments and returned on every slot; once the kernel of such a
module has failed, the graph is not complete, and never will be.  If only the last module has no
outputs, these are all modules. -/
theorem complete_finished {graph built after : Graph} {batch : Nat} {events : List Event}
    (wired : graph.Wired)
    (few : ∀ module, (graph.wiring.inputsOf module).length < Word.limit 32)
    (building : graph.build batch = .ok built) (played : built.play events = some after) :
    ∃ dispatch last, after.dispatch = some dispatch ∧ graph.wiring.last = some last ∧
      (after.isComplete = true → ∀ id, Feeds graph.wiring id last →
        ∃ module, dispatch.modules[id]? = some module ∧
          module.Finished dispatch.journal id built.expandedSize) ∧
      (∀ id, Feeds graph.wiring id last →
        ∀ call error, .returned id call (.error error) ∈ dispatch.journal →
          ∀ later final, after.play later = some final → final.isComplete = false) ∧
      ((∀ id < graph.wiring.size, graph.wiring.outputsOf id = [] → id = last) →
        ∀ id < graph.wiring.size, Feeds graph.wiring id last) := by
  have valid := wired.valid.1
  obtain ⟨wiring_eq, origin, first, last, rank, building⟩ := build_built wired few building
  obtain ⟨dispatch, reached⟩ := reached_of_play building played
  rw [← wiring_eq] at valid ⊢
  refine ⟨dispatch, last, reached.dispatch_eq, building.last_eq, ?_, ?_, ?_⟩
  · intro complete id feeds
    rw [isComplete, reached.dispatch_eq] at complete
    obtain ⟨module, found⟩ := reached.exists_module_of_feeds building valid feeds
    exact ⟨module, found, reached.sound.finished building.laid found fun slot inside =>
      reached.returned_of_complete building valid complete feeds inside⟩
  · intro id feeds call error failed later final continued
    obtain ⟨next, arrived, grown⟩ := reached.goes_on building continued
    exact arrived.incomplete_of_failed building valid feeds (grown failed)
  · intro only_end id known
    exact building.feeds_of_only_end valid only_end known

theorem complete_finished_sample : ∃ after, sampleBuilt.play sampleRun = some after ∧
    after.isComplete = true ∧ ∃ dispatch, after.dispatch = some dispatch ∧
      ∀ id < 2, ∃ module, dispatch.modules[id]? = some module ∧
        module.Finished dispatch.journal id 4 := by
  have runs : ((sampleBuilt.play sampleRun).any fun graph => graph.isComplete) = true := by
    decide +kernel
  obtain ⟨after, played, complete⟩ := (Option.any_eq_true _ _).mp runs
  obtain ⟨dispatch, last, dispatch_eq, last_eq, finished, -, all_feed⟩ :=
    complete_finished sample_wired sample_few sample_build played
  obtain rfl : last = 1 := (Option.some.inj last_eq).symm
  refine ⟨after, played, complete, dispatch, dispatch_eq, ?_⟩
  intro id known
  have feeds := all_feed (by decide) id known
  rw [sampleBuilt_expandedSize] at finished
  exact finished complete id feeds

/-! ## A side branch -/

/-- A graph with a module that the last one does not hear of. -/
def forked : Graph :=
  { sample with
    name := "forked"
    wiring := {
      modules := [sampleModule "root" 4 0, sampleModule "end" 4 0, sampleModule "side" 4 0]
      edges := [(0, 1), (0, 2)]
      first := some 0
      last := some 1 } }

theorem forked_wired : forked.Wired := by
  have empty : (Graph.create "forked" forked.settings (.blank "nothing")).Wired :=
    .create (show GraphSettings.create 1 1 .zero = .ok forked.settings from rfl)
  have root := empty.addModule (show addModule _ (sampleModule "root" 4 0) = .ok (0, _) from rfl)
  have exit := root.addModule (show addModule _ (sampleModule "end" 4 0) = .ok (1, _) from rfl)
  have side := exit.addModule (show addModule _ (sampleModule "side" 4 0) = .ok (2, _) from rfl)
  have main_edge := side.connect (show connect _ 0 1 = .ok _ from rfl)
  have side_edge := main_edge.connect (show connect _ 0 2 = .ok _ from rfl)
  have entrance := side_edge.setFirst (show setFirst _ 0 = .ok _ from rfl)
  exact entrance.setLast (show setLast _ 1 = .ok forked from rfl)

/-- It, built for four slots. -/
def forkedBuilt : Graph := (forked.build 4).toOption.getD forked

/-- A run on the whole batch in which the end has returned before the side hears of anything. -/
def mainBranch : List Event :=
  [.link (.create ⟨7, 2⟩ 4 4), .start, .send front, .send back] ++
  [Dispatch.Step.take 0, .enter 0, .leave 0 (.ok ()), .proceed 0, .proceed 0, .take 1, .enter 1,
    .leave 1 (.ok ()), .proceed 1, .proceed 1].map .work

/-- What is left to do on the side, where the kernel dies. -/
def sideBranch : List Event :=
  [Dispatch.Step.proceed 0, .take 2, .enter 2, .leave 2 (.error (.panicked "lost"))].map .work

/-- **A complete graph with a side branch.**  The graph is complete while the module on the side has
queued none of its assignments, and is so still after the kernel of that module has failed. -/
theorem side_branch_fails : forked.Wired ∧ forked.build 4 = .ok forkedBuilt ∧
    ∃ before after dispatch module, forkedBuilt.play mainBranch = some before ∧
      before.isComplete = true ∧ before.dispatch = some dispatch ∧
      dispatch.modules[2]? = some module ∧ module.assignments.completed = 0 ∧
      module.assignments.size = 1 ∧ before.play sideBranch = some after ∧
      after.isComplete = true ∧
      after.failure = some { module := "side", error := .panicked "lost" } := by
  have runs : ((forkedBuilt.play mainBranch).any fun before =>
      before.isComplete && (before.dispatch.any fun dispatch =>
        dispatch.modules[2]?.any fun module => decide
          (module.assignments.completed = 0 ∧ module.assignments.size = 1)) &&
      (before.play sideBranch).any fun after => after.isComplete && decide
        (after.failure = some { module := "side", error := .panicked "lost" })) = true := by
    decide +kernel
  obtain ⟨before, played, runs⟩ := (Option.any_eq_true _ _).mp runs
  rw [Bool.and_eq_true, Bool.and_eq_true] at runs
  obtain ⟨⟨complete, idle⟩, later⟩ := runs
  obtain ⟨dispatch, dispatch_eq, idle⟩ := (Option.any_eq_true _ _).mp idle
  obtain ⟨module, found, idle⟩ := (Option.any_eq_true _ _).mp idle
  obtain ⟨none_queued, single⟩ := of_decide_eq_true idle
  obtain ⟨after, continued, ends⟩ := (Option.any_eq_true _ _).mp later
  rw [Bool.and_eq_true, decide_eq_true_eq] at ends
  exact ⟨forked_wired, rfl, before, after, dispatch, module, played, complete, dispatch_eq, found,
    none_queued, single, continued, ends.1, ends.2⟩

end Graph

end Mixnet
