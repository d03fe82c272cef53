import Mixnet.Proofs.Effort
import Mixnet.Proofs.ExactlyOnce
import Mixnet.Proofs.Rest

/-!
# No work is lost, and no graph is stuck

A calm graph that was fed the whole batch cannot take steps forever, and where it comes to rest
everything has been done.  The state it comes to rest in does not depend on the schedule: it is
known when the graph is built.

## Main definitions

* `Module.finished`, `Dispatch.finished`: a module and a graph that have done everything
* `Dispatch.settled`: a state apart from its history and its output

## Main statements

* `Dispatch.Sound.done`: a graph at rest that was fed the whole batch has done everything
* `Dispatch.Done.settled_eq`: it has finished, whatever the schedule
* `Graph.no_lost_work`: every schedule ends, and it ends with everything done
-/

namespace Mixnet

open Journal

/-! ## Finished graphs -/

/-- A module that has done everything. -/
def Module.finished (module : Module) : Module :=
  { module with
    assignments := { module.assignments with
      counts := Array.replicate module.assignments.size module.assignments.maxCount
      primed := module.assignments.size
      completed := module.assignments.size
      waiting := [] }
    queue := { module.queue with chunks := [], closed := true } }

/-- A fulfilled module has finished, but for the chunks that wait at it. -/
theorem Module.Fulfilled.finished_eq {module : Module} {queued : List Chunk}
    (fulfilled : module.Fulfilled queued) (closed : module.queue.closed = true) :
    module.withWaiting [] = module.fresh.finished := by
  have counts_eq : module.assignments.counts =
      Array.replicate module.assignments.size module.assignments.maxCount := by
    refine Array.ext (Array.size_replicate ..).symm ?_
    intro index inside _
    rw [Array.getElem_replicate, ← fulfilled.full index inside, AssignmentList.countAt,
      Array.getElem?_eq_getElem inside, Option.getD_some]
  have unworked : module.fresh.finished = module.finished := by
    rw [Module.fresh, finished, AssignmentList.size_fresh]
    rfl
  have counters_eq : module.assignments = { module.assignments with
      counts := Array.replicate module.assignments.size module.assignments.maxCount
      primed := module.assignments.size
      completed := module.assignments.size
      waiting := [] } := by
    calc module.assignments
        = { module.assignments with
            counts := module.assignments.counts
            primed := module.assignments.primed
            completed := module.assignments.completed
            waiting := module.assignments.waiting } := rfl
      _ = _ := by
          rw [counts_eq, fulfilled.primed_eq, fulfilled.completed_eq, fulfilled.unparked]
  rw [unworked, finished, ← counters_eq, ← closed]
  rfl

namespace Dispatch

variable {origin dispatch : Dispatch} {first expanded : Nat} {rank : Nat → Nat}

/-- A graph that has done everything: all modules have finished, all workers have gone. -/
def finished (origin : Dispatch) : Dispatch :=
  { origin with
    modules := origin.modules.map Module.finished
    workers := (origin.crew.map fun worker => { worker with activity := .exited }).toArray
    complete := true }

/-- A state apart from its history, and from the finished chunks that wait to be taken. -/
def settled (dispatch : Dispatch) : Dispatch :=
  { dispatch with
    modules := dispatch.modules.modify dispatch.sink (·.withWaiting [])
    journal := [] }

/-- A state in which everything has been done. -/
structure Done (dispatch : Dispatch) : Prop where
  fulfilled : ∀ (id : Nat) module, dispatch.modules[id]? = some module →
    module.Fulfilled (queuedOn dispatch.journal id)
  closed : ∀ (id : Nat) module, dispatch.modules[id]? = some module → module.queue.closed = true
  exhausted : dispatch.Exhausted
  exited : ∀ (position : Nat) worker, dispatch.workers[position]? = some worker →
    worker.activity = .exited
  complete : dispatch.complete = true

/-- **A graph at rest that was fed the whole batch has done everything.** -/
theorem Sound.done (sound : Sound origin first dispatch) (laid : origin.Laid first expanded rank)
    (manned : ∀ id < dispatch.sink, ∃ (position : Nat) (worker : Worker),
      dispatch.workers[position]? = some worker ∧ worker.module = id)
    (running : dispatch.terminated = false) (unfailed : dispatch.failure = none)
    (staying : dispatch.dismissed = false)
    (fed : ∀ slot < expanded, Chunk.coverage (reportsTo dispatch.journal first) slot = 1)
    (atRest : dispatch.AtRest) : dispatch.Done := by
  have exhausted := atRest.exhausted sound manned running unfailed staying
  have fulfilled {id : Nat} {module : Module} (found : dispatch.modules[id]? = some module) :
      module.Fulfilled (queuedOn dispatch.journal id) :=
    exhausted.fulfilled sound laid running fed found
  have closed {id : Nat} {module : Module} (found : dispatch.modules[id]? = some module) :
      module.queue.closed = true :=
    (sound.accounted.kept id module found).closed_iff.mpr (Or.inr (fulfilled found).completed_eq)
  have drained (id : Nat) (module : Module) (found : dispatch.modules[id]? = some module)
      (wired : id < dispatch.sink) : module.queue.isDrained = true := by
    have empty := exhausted.drained id wired
    rw [waiting_eq found] at empty
    rw [ChunkQueue.isDrained, closed found, empty]
    rfl
  obtain ⟨sink, sink_found⟩ := sound.exists_module laid le_rfl
  exact ⟨fun _ _ found => fulfilled found, fun _ _ found => closed found, exhausted,
    fun _ _ here => atRest.exited sound laid drained here,
    (sound.accounted.complete_iff sink sink_found).mpr (fulfilled sink_found).completed_eq⟩

/-- Workers that have all gone are the crew, gone. -/
theorem workers_eq_of_exited (roster_eq : dispatch.roster =
      origin.crew.map fun worker => (worker.module, worker.thread))
    (exited : ∀ (position : Nat) worker, dispatch.workers[position]? = some worker →
      worker.activity = .exited) :
    dispatch.workers =
      (origin.crew.map fun worker => { worker with activity := .exited }).toArray := by
  have gone : dispatch.workers.toList =
      dispatch.roster.map fun place =>
        { module := place.1, thread := place.2, activity := .exited } := by
    rw [roster, List.map_map]
    refine (List.map_id _).symm.trans (List.map_congr_left ?_)
    intro worker member
    obtain ⟨position, here⟩ := Array.mem_iff_getElem?.mp (Array.mem_toList_iff.mp member)
    have left := exited position worker here
    cases worker
    cases left
    rfl
  refine Array.toList_inj.mp ?_
  rw [gone, roster_eq, List.map_map]
  rfl

/-- **A graph that has done everything has finished**, whatever the schedule. -/
theorem Done.settled_eq (done : dispatch.Done) (sound : Sound origin first dispatch)
    (laid : origin.Laid first expanded rank)
    (roster_eq : dispatch.roster = origin.crew.map fun worker => (worker.module, worker.thread))
    (running : dispatch.terminated = false) (unfailed : dispatch.failure = none)
    (staying : dispatch.dismissed = false) : dispatch.settled = origin.finished := by
  have modules_eq : dispatch.modules.modify dispatch.sink (·.withWaiting []) =
      origin.modules.map Module.finished := by
    apply Array.ext_getElem?
    intro id
    rw [← sound.accounted.frame, Array.map_map, Array.getElem?_modify, Array.getElem?_map]
    cases found : dispatch.modules[id]? with
    | none => split <;> rfl
    | some module =>
        have finished_eq :=
          (done.fulfilled id module found).finished_eq (done.closed id module found)
        split
        case isTrue => exact congrArg some finished_eq
        case isFalse inner =>
          -- A queue of a module with workers is empty already.
          have wired : id < dispatch.sink := by
            obtain ⟨inside, -⟩ := Array.getElem?_eq_some_iff.mp found
            have size_eq : dispatch.modules.size = dispatch.sink + 1 := by
              rw [sound.accounted.sink_eq, ← laid.size_eq, ← sound.accounted.frame, Array.size_map]
            omega
          have empty := done.exhausted.drained id wired
          rw [waiting_eq found] at empty
          have unchanged : module.withWaiting [] = module := by
            rw [Module.withWaiting, ← empty]
          rw [← unchanged]
          exact congrArg some finished_eq
  have untouched := laid.untouched
  rw [settled, finished, modules_eq, workers_eq_of_exited roster_eq done.exited, done.complete,
    running, unfailed, staying, sound.accounted.sink_eq]
  rw [untouched]
  rfl

end Dispatch

namespace Graph

variable {built graph : Graph} {origin dispatch : Dispatch} {first last : Nat} {rank : Nat → Nat}
  {events : List Event}

/-- No worker can take a step. -/
def AtRest (graph : Graph) : Prop := ∀ step, graph.act (.work step) = none

/-- Every module of a running graph has a worker. -/
theorem Reached.exists_worker (building : Built built origin first last rank)
    (reached : Reached built origin first events graph dispatch) (running : graph.state = .running)
    {id : Nat} (wired : id < dispatch.sink) : ∃ (position : Nat) (worker : Worker),
      dispatch.workers[position]? = some worker ∧ worker.module = id := by
  have roster_eq := reached.manned
  rw [running] at roster_eq
  obtain ⟨module, found⟩ := reached.sound.exists_module building.laid wired.le
  have laid_out := reached.sound.accounted.laid_out found
  have places := (building.laid.staffed id _ laid_out).mpr (reached.sound.accounted.sink_eq ▸ wired)
  rw [← Array.getElem?_toList] at laid_out
  obtain ⟨hired, hired_mem, module_eq⟩ :
      ∃ hired ∈ origin.crew, hired.module = 0 + id := exists_mem_workersFrom laid_out places
  have listed : (hired.module, hired.thread) ∈ dispatch.roster := by
    rw [roster_eq]
    exact List.mem_map.mpr ⟨hired, hired_mem, rfl⟩
  obtain ⟨worker, worker_mem, same⟩ := List.mem_map.mp listed
  obtain ⟨position, here⟩ := Array.mem_iff_getElem?.mp (Array.mem_toList_iff.mp worker_mem)
  injection same with same_module
  exact ⟨position, worker, here, by rw [same_module, module_eq, Nat.zero_add]⟩

/-- A running graph that can take no step has done everything, if the whole batch was sent and
nothing has ended the work. -/
theorem Reached.done (building : Built built origin first last rank)
    (reached : Reached built origin first events graph dispatch) (calm : Calm events)
    (fed : ∀ slot < built.expandedSize, Chunk.coverage (sent events) slot = 1)
    (running : graph.state = .running) (atRest : graph.AtRest) :
    dispatch.Done ∧ dispatch.settled = origin.finished := by
  obtain ⟨going, unfailed, staying⟩ := reached.calm calm
  have still : dispatch.AtRest := by
    intro step
    have stuck := atRest step
    rw [act, reached.dispatch_eq] at stuck
    exact Option.map_eq_none_iff.mp stuck
  have done := reached.sound.done building.laid
    (fun _ wired => reached.exists_worker building running wired) going unfailed staying
    (fun slot inside => (reached.coverage_first going slot).trans (fed slot inside)) still
  have roster_eq := reached.manned
  rw [running] at roster_eq
  exact ⟨done, done.settled_eq reached.sound building.laid roster_eq going unfailed staying⟩

/-- The bounds of all assignments, one after the other. -/
theorem map_bounds_all {list : AssignmentList} {expanded inputs : Nat}
    (sized : list.Sized expanded inputs) :
    list.all.map (fun chunk => (chunk.start, chunk.stop)) =
      (List.range (expanded / list.assignmentSize)).map fun k =>
        (k * list.assignmentSize, (k + 1) * list.assignmentSize) := by
  have size_eq : expanded / list.assignmentSize = list.size := by
    rw [← sized.covering, Nat.mul_div_cancel _ sized.positive]
  rw [size_eq, AssignmentList.all, List.map_map]
  apply List.map_congr_left
  intro k member
  obtain ⟨start_eq, stop_eq⟩ := sized.assignment_bounds (List.mem_range.mp member)
  exact Prod.ext start_eq (stop_eq.trans (Nat.succ_mul k _).symm)

/-- **No work is lost, and no graph is stuck.**  No play of a built graph takes more steps than a
number that depends on the graph alone.  Where a calm play has started the workers and sent every
slot of the batch once, and no worker can take a step, the graph has finished: every module has
found every assignment full and has queued it, the queues of the wired modules are closed and empty,
their kernels were called on every slot once, and the finished chunks, collected or not, are the
batch cut at the grain of the sink.  So all schedules end in one state, up to the order of these
chunks. -/
theorem no_lost_work {graph built : Graph} {batch : Nat} (wired : graph.Wired)
    (few : ∀ module, (graph.wiring.inputsOf module).length < Word.limit 32)
    (building : graph.build batch = .ok built) :
    ∃ origin, built.dispatch = some origin ∧
      (∃ limit, ∀ events after, built.play events = some after → steps events ≤ limit) ∧
      ∀ events after, built.play events = some after → Calm events →
        (∀ slot < built.expandedSize, Chunk.coverage (sent events) slot = 1) →
        after.state = .running → after.AtRest →
        ∃ dispatch, after.dispatch = some dispatch ∧ dispatch.settled = origin.finished ∧
          (∀ (id : Nat) module, dispatch.modules[id]? = some module →
            module.assignments.size * module.assignmentSize = built.expandedSize ∧
              module.assignments.completed = module.assignments.size ∧
              module.assignments.primed = module.assignments.size ∧
              module.assignments.waiting = []) ∧
          (∀ (id : Nat) module, dispatch.modules[id]? = some module → id < graph.wiring.size →
            module.queue.closed = true ∧ module.queue.chunks = [] ∧
              ∀ slot, Chunk.coverage (calledOn dispatch.journal id) slot =
                if slot < built.expandedSize then 1 else 0) ∧
          ((built.collected events ++ after.pendingOutput).map fun chunk =>
              (chunk.start, chunk.stop)).Perm
            ((List.range (built.expandedSize / built.settings.minSlotSize)).map fun k =>
              (k * built.settings.minSlotSize, (k + 1) * built.settings.minSlotSize)) ∧
          after.isComplete = true := by
  obtain ⟨wiring_eq, origin, first, last, rank, building⟩ := build_built wired few building
  refine ⟨origin, building.dispatch_eq,
    ⟨origin.workload, fun events after played => steps_le_workload building played⟩, ?_⟩
  intro events after played calm fed running atRest
  obtain ⟨dispatch, reached, output⟩ := collected_perm building played
  obtain ⟨done, settled_eq⟩ := reached.done building calm fed running atRest
  have accounted := reached.sound.accounted
  refine ⟨dispatch, reached.dispatch_eq, settled_eq, ?_, ?_, ?_, ?_⟩
  · intro id module found
    have fits := accounted.fits building.laid found
    have fulfilled := done.fulfilled id module found
    exact ⟨fits.unit_eq ▸ fits.sized.covering, fulfilled.completed_eq, fulfilled.primed_eq,
      fulfilled.unparked⟩
  · intro id module found inner
    have wired_id : id < dispatch.sink := by
      rw [accounted.sink_eq, building.sink_eq, wiring_eq]
      exact inner
    have empty := done.exhausted.drained id wired_id
    rw [Dispatch.waiting_eq found] at empty
    exact ⟨done.closed id module found, empty, done.exhausted.coverage_called found wired_id
      (accounted.fits building.laid found) (done.fulfilled id module found)⟩
  · -- The sink cuts the batch at its grain, and has queued all of it.
    obtain ⟨sink, found⟩ := reached.sound.exists_module building.laid le_rfl
    have fits := accounted.fits building.laid found
    have unit_eq : sink.assignments.assignmentSize = built.settings.minSlotSize :=
      fits.unit_eq.trans (building.sink_unit sink.fresh
        (accounted.sink_eq ▸ accounted.laid_out found))
    rw [← accounted.sink_eq] at output
    rw [← unit_eq, ← map_bounds_all fits.sized]
    exact (output.trans (done.fulfilled _ sink found).queued_all).map _
  · rw [isComplete, reached.dispatch_eq]
    exact done.complete

theorem sample_atRest {after : Graph} (played : sampleBuilt.play sampleRun = some after) :
    after.state = .running ∧ after.AtRest := by
  have ends : ((sampleBuilt.play sampleRun).any fun graph => decide (graph.state = .running) &&
      (graph.dispatch.any fun dispatch => dispatch.isDeserted)) = true := by decide +kernel
  rw [played, Option.any_some, Bool.and_eq_true, decide_eq_true_eq] at ends
  obtain ⟨running, deserted⟩ := ends
  obtain ⟨dispatch, dispatch_eq, gone⟩ := (Option.any_eq_true _ _).mp deserted
  refine ⟨running, ?_⟩
  intro step
  rw [act, dispatch_eq, Option.bind_some, Dispatch.atRest_of_deserted gone, Option.map_none]

theorem no_lost_work_sample : ∃ after, sampleBuilt.play sampleRun = some after ∧
    ∃ origin dispatch, sampleBuilt.dispatch = some origin ∧ after.dispatch = some dispatch ∧
      dispatch.settled = origin.finished ∧ after.isComplete = true := by
  have plays : (sampleBuilt.play sampleRun).isSome = true := by decide +kernel
  obtain ⟨after, played⟩ := Option.isSome_iff_exists.mp plays
  obtain ⟨running, atRest⟩ := sample_atRest played
  have fed : ∀ slot < sampleBuilt.expandedSize, Chunk.coverage (sent sampleRun) slot = 1 := by
    rw [sampleBuilt_expandedSize]
    decide +kernel
  obtain ⟨origin, origin_eq, -, ends⟩ := no_lost_work sample_wired sample_few sample_build
  obtain ⟨dispatch, dispatch_eq, settled_eq, -, -, -, complete⟩ :=
    ends sampleRun after played sample_calm fed running atRest
  exact ⟨after, played, origin, dispatch, origin_eq, dispatch_eq, settled_eq, complete⟩

end Graph

end Mixnet
