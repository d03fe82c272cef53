import Mixnet.Proofs.Connecting

/-!
# Chunks stay in the batch

Everything that a module is asked to work on is one of its assignments, and the assignments of every
module end where the batch does.  So no kernel is called, and no output is read, past the end of the
batch, whatever happens to the graph: nothing here asks that reports are accepted, that no kernel
fails, or that the wiring makes sense.

## Main definitions

* `Chunk.OnGrid`: an assignment of a given size inside a batch
* `AssignmentList.Confined`, `Module.Confined`: accounting and queue of a module inside a batch
* `Task.Within`, `Activity.Within`: work inside a batch
* `Dispatch.Confined`: every chunk in the hands of a graph lies in the batch
* `Graph.Confined`: a built graph of which that holds
* `Graph.Acts`: what an event that goes through makes of a built graph
* `Graph.Aftermath`: what an event leaves of a built graph, whether it goes through or not

## Main statements

* `AssignmentList.Confined.prime`: what a report releases are assignments
* `Dispatch.Confined.moves`: every step keeps the chunks in the batch
* `Graph.confined_of_build`: building makes such a graph, wired or not
* `Graph.Confined.play`: whatever happens to it keeps it so

## Design notes

The number of assignments of a module is rounded up, so that the last of them could end behind the
batch.  That it does not is the work of the expansion: every declared size divides the expanded
batch, and an undeclared one is the expanded batch itself.
-/

namespace Mixnet

/-- One of the chunks of `unit` slots that a batch of `expanded` slots is divided into. -/
def Chunk.OnGrid (unit expanded : Nat) (chunk : Chunk) : Prop :=
  ∃ index, chunk.start = index * unit ∧ chunk.stop = (index + 1) * unit ∧ chunk.stop ≤ expanded

theorem Chunk.OnGrid.length_eq {unit expanded : Nat} {chunk : Chunk}
    (assigned : chunk.OnGrid unit expanded) : chunk.length = unit := by
  obtain ⟨index, start_eq, stop_eq, -⟩ := assigned
  rw [Chunk.length, start_eq, stop_eq, Nat.succ_mul, Nat.add_sub_cancel_left]

/-! ## Accounting -/

namespace AssignmentList

variable {list after : AssignmentList} {expanded : Nat} {ready released : List Chunk}

/-- The assignments of a list end inside the batch, and those that wait are among them. -/
structure Confined (list : AssignmentList) (expanded : Nat) : Prop where
  grid : list.size * list.assignmentSize ≤ expanded
  parked : ∀ chunk ∈ list.waiting, chunk.OnGrid list.assignmentSize expanded

/-- A later state of the accounting of the same assignments, inside the batch. -/
structure Continues (list after : AssignmentList) (expanded : Nat) : Prop where
  unit_eq : after.assignmentSize = list.assignmentSize
  confined : after.Confined expanded

namespace Confined

theorem refl (confined : list.Confined expanded) : list.Continues list expanded :=
  ⟨rfl, confined⟩

/-- Weight does not move assignments. -/
theorem addWeight (confined : list.Confined expanded) {index weight : Nat}
    {outcome : Except Fault Bool} (added : list.addWeight index weight = (outcome, after)) :
    list.Continues after expanded := by
  have change := list.addWeight_reweighed index weight
  rw [added] at change
  obtain ⟨size_eq, unit_eq, -, -⟩ := eq_of_fresh_eq change.fresh_eq
  refine ⟨unit_eq, ?_, ?_⟩
  · rw [size_eq, unit_eq]
    exact confined.grid
  · rw [change.waiting_eq, unit_eq]
    exact confined.parked

/-- An assignment of the list ends inside the batch. -/
theorem onGrid (confined : list.Confined expanded) {index : Nat} {chunk : Chunk}
    (inside : index < list.size)
    (made : Chunk.ofLength (index * list.assignmentSize) list.assignmentSize = .ok chunk) :
    chunk.OnGrid list.assignmentSize expanded := by
  have within : (index + 1) * list.assignmentSize ≤ expanded :=
    (Nat.mul_le_mul_right _ inside).trans confined.grid
  rw [Nat.succ_mul] at within
  unfold Chunk.ofLength Word.sum at made
  split at made
  case isFalse => cases made
  case isTrue fits =>
    rw [Fault.ok_bind, Chunk.ofBounds_eq_ok (Nat.le_add_right _ _) fits] at made
    injection made with made
    subst made
    exact ⟨index, rfl, (Nat.succ_mul _ _).symm, within⟩

/-- **What becomes full is an assignment of the list.** -/
theorem absorb (confined : list.Confined expanded) (position remaining : Nat)
    (gathered : ∀ chunk ∈ ready, chunk.OnGrid list.assignmentSize expanded) :
    list.Continues (list.absorb position remaining ready).2 expanded ∧
      ∀ out, (list.absorb position remaining ready).1 = .ok out →
        ∀ chunk ∈ out, chunk.OnGrid list.assignmentSize expanded := by
  fun_induction AssignmentList.absorb list position remaining ready with
  | case1 =>
      refine ⟨confined.refl, ?_⟩
      rintro out ⟨⟩ chunk member
      exact gathered chunk (List.mem_reverse.mp member)
  | case2 => exact ⟨confined.refl, by rintro out ⟨⟩⟩
  | case3 => exact ⟨confined.refl, by rintro out ⟨⟩⟩
  | case4 => exact ⟨confined.refl, by rintro out ⟨⟩⟩
  | case5 list position remaining ready _ _ index _ edge _ _ weight fault stored added =>
      exact ⟨confined.addWeight added, by rintro out ⟨⟩⟩
  | case6 list position remaining ready _ _ index _ edge _ _ weight stored added ih =>
      obtain ⟨unit_eq, kept⟩ := confined.addWeight added
      obtain ⟨later, fulfilled⟩ := ih kept (by rwa [unit_eq])
      rw [unit_eq] at fulfilled
      exact ⟨⟨later.unit_eq.trans unit_eq, later.confined⟩, fulfilled⟩
  | case7 list position remaining ready _ _ index _ edge _ _ weight stored added =>
      exact ⟨confined.addWeight added, by rintro out ⟨⟩⟩
  | case8 list position remaining ready _ _ index inside edge _ _ weight stored added full made
      ih =>
      obtain ⟨unit_eq, kept⟩ := confined.addWeight added
      have full_on := confined.onGrid (Nat.lt_of_not_le inside) made
      obtain ⟨later, fulfilled⟩ := ih kept (by
        rw [unit_eq]
        exact List.forall_mem_cons.mpr ⟨full_on, gathered⟩)
      rw [unit_eq] at fulfilled
      exact ⟨⟨later.unit_eq.trans unit_eq, later.confined⟩, fulfilled⟩

/-- The gate lets assignments through, and parks assignments. -/
theorem gate (confined : list.Confined expanded)
    (gathered : ∀ chunk ∈ ready, chunk.OnGrid list.assignmentSize expanded) :
    list.Continues (list.gate ready).2 expanded ∧
      ∀ out, (list.gate ready).1 = .ok out →
        ∀ chunk ∈ out, chunk.OnGrid list.assignmentSize expanded := by
  have both : ∀ chunk ∈ list.waiting ++ ready, chunk.OnGrid list.assignmentSize expanded := by
    intro chunk member
    rcases List.mem_append.mp member with parked | fresh
    · exact confined.parked chunk parked
    · exact gathered chunk fresh
  unfold AssignmentList.gate
  split
  case isTrue => exact ⟨confined.refl, by rintro out ⟨⟩ chunk ⟨⟩⟩
  case isFalse =>
    dsimp only
    split
    case h_1 => exact ⟨⟨rfl, confined.grid, confined.parked⟩, by rintro out ⟨⟩⟩
    case h_2 =>
      split
      case isTrue => exact ⟨⟨rfl, confined.grid, both⟩, by rintro out ⟨⟩ chunk ⟨⟩⟩
      case isFalse =>
        split
        case isTrue =>
          refine ⟨⟨rfl, confined.grid, by rintro chunk ⟨⟩⟩, ?_⟩
          rintro out ⟨⟩ chunk member
          exact both chunk (List.mem_mergeSort.mp member)
        case isFalse =>
          refine ⟨⟨rfl, confined.grid, confined.parked⟩, ?_⟩
          rintro out ⟨⟩
          exact gathered

/-- **What a report releases are assignments of the list.** -/
theorem prime (confined : list.Confined expanded) (piece : Chunk) :
    list.Continues (list.prime piece).2 expanded ∧
      ∀ out, (list.prime piece).1 = .ok out →
        ∀ chunk ∈ out, chunk.OnGrid list.assignmentSize expanded := by
  obtain ⟨counted, fulfilled⟩ := confined.absorb piece.start piece.length
    (List.forall_mem_nil _)
  unfold AssignmentList.prime
  split
  case h_1 fault stored absorbed =>
    rw [absorbed] at counted
    exact ⟨counted, by rintro out ⟨⟩⟩
  case h_2 full stored absorbed =>
    rw [absorbed] at counted fulfilled
    obtain ⟨unit_eq, kept⟩ := counted
    obtain ⟨later, released⟩ := kept.gate (by
      rw [unit_eq]
      exact fulfilled full rfl)
    rw [unit_eq] at released
    exact ⟨⟨later.unit_eq.trans unit_eq, later.confined⟩, released⟩

/-- Counting released assignments moves none. -/
theorem complete (confined : list.Confined expanded) (count : Nat) :
    list.Continues (list.complete count).2 expanded := by
  have counted : ∀ completed, list.Continues { list with completed } expanded :=
    fun _ => ⟨rfl, confined.grid, confined.parked⟩
  unfold AssignmentList.complete
  split
  case isTrue => exact confined.refl
  case isFalse =>
    dsimp only
    split
    case h_1 => exact counted _
    case h_2 => split <;> exact counted _

end Confined

/-- A new list of assignments that divide the batch ends inside the batch. -/
theorem confined_of_create {unit chunkSize inputs : Nat} {threshold : Binary32}
    (made : create expanded unit chunkSize inputs threshold = .ok list)
    (divides : unit ≠ 0 → unit ∣ expanded) :
    list.assignmentSize = unit ∧ list.Confined expanded := by
  unfold create at made
  obtain ⟨-, -, made⟩ := Fault.bind_eq_ok.mp made
  obtain ⟨maxCount, -, made⟩ := Fault.bind_eq_ok.mp made
  injection made with made
  subst made
  refine ⟨rfl, ?_, by rintro chunk ⟨⟩⟩
  show (Array.replicate (assignmentCount expanded unit) 0).size * unit ≤ expanded
  rw [Array.size_replicate]
  rcases Nat.eq_zero_or_pos unit with zero | positive
  · rw [zero, Nat.mul_zero]
    exact Nat.zero_le _
  · exact (assignmentCount_mul positive (divides positive.ne')).le

end AssignmentList

/-! ## Modules -/

/-- Two states of a module: what the work on an assignment depends on is the same. -/
structure Module.Alike (module former : Module) : Prop where
  unit_eq : module.assignmentSize = former.assignmentSize
  chunk_eq : module.chunkSize = former.chunkSize
  mode_eq : module.inputSize = former.inputSize
  outputs_eq : module.outputs = former.outputs

namespace Module

variable {module former between : Module} {expanded : Nat}

theorem Alike.refl (module : Module) : module.Alike module := ⟨rfl, rfl, rfl, rfl⟩

theorem Alike.trans (later : module.Alike between) (earlier : between.Alike former) :
    module.Alike former :=
  ⟨later.unit_eq.trans earlier.unit_eq, later.chunk_eq.trans earlier.chunk_eq,
    later.mode_eq.trans earlier.mode_eq, later.outputs_eq.trans earlier.outputs_eq⟩

/-- The work on an assignment is the same. -/
theorem Alike.tasks_eq (alike : module.Alike former) (chunk : Chunk) :
    module.tasks chunk = former.tasks chunk := by
  have call_eq : module.callSize = former.callSize := by
    rw [callSize, callSize, alike.mode_eq, alike.unit_eq, alike.chunk_eq]
  have reports_eq : module.reports = former.reports := by
    funext piece
    rw [reports, reports, alike.outputs_eq]
  rw [tasks, tasks, alike.mode_eq, alike.chunk_eq, call_eq, reports_eq]

/-- Accounting and queue do not matter. -/
theorem Alike.goOn (alike : module.Alike former) (assignments : AssignmentList)
    (queue : ChunkQueue) : Alike { module with assignments, queue } former :=
  ⟨alike.unit_eq, alike.chunk_eq, alike.mode_eq, alike.outputs_eq⟩

/-- The assignments of a module end inside the batch, and what waits for it are assignments. -/
structure Confined (module : Module) (expanded : Nat) : Prop where
  unit_eq : module.assignments.assignmentSize = module.assignmentSize
  accounted : module.assignments.Confined expanded
  waiting : ∀ chunk ∈ module.queue.chunks, chunk.OnGrid module.assignmentSize expanded

/-- The accounting goes on. -/
theorem Confined.account (confined : module.Confined expanded) {assignments : AssignmentList}
    (continues : module.assignments.Continues assignments expanded) :
    Confined { module with assignments } expanded :=
  ⟨continues.unit_eq.trans confined.unit_eq, continues.confined, confined.waiting⟩

/-- Other assignments wait, and the queue may be closed. -/
theorem Confined.withQueue (confined : module.Confined expanded) {queue : ChunkQueue}
    (waiting : ∀ chunk ∈ queue.chunks, chunk.OnGrid module.assignmentSize expanded) :
    Confined { module with queue } expanded :=
  ⟨confined.unit_eq, confined.accounted, waiting⟩

end Module

/-- A module that has just been set up, with assignments that divide the batch. -/
theorem Module.confined_of_create {module : Module} {expanded chunkSize inputs : Nat}
    {threshold : Binary32} (made : AssignmentList.create expanded module.assignmentSize chunkSize
      inputs threshold = .ok module.assignments)
    (divides : module.assignmentSize ≠ 0 → module.assignmentSize ∣ expanded)
    (fresh : module.queue.chunks = []) : module.Confined expanded := by
  obtain ⟨unit_eq, accounted⟩ := AssignmentList.confined_of_create made divides
  refine ⟨unit_eq, accounted, ?_⟩
  rw [fresh]
  exact List.forall_mem_nil _

/-! ## Work -/

/-- A task concerns slots of the batch. -/
def Task.Within (expanded : Nat) : Task → Prop
  | .call chunk => chunk.stop ≤ expanded
  | .checkpoint => True
  | .report _ piece => piece.stop ≤ expanded

/-- A worker has slots of the batch in hand. -/
def Activity.Within (expanded : Nat) : Activity → Prop
  | .working tasks => ∀ task ∈ tasks, task.Within expanded
  | .calling chunk tasks => chunk.stop ≤ expanded ∧ ∀ task ∈ tasks, task.Within expanded
  | _ => True

/-- What has been queued, called and returned are slots of the batch. -/
def Observation.Within (expanded : Nat) : Observation → Prop
  | .called _ chunk => chunk.stop ≤ expanded
  | .returned _ chunk _ => chunk.stop ≤ expanded
  | .reported .. => True
  | .queued _ chunk => chunk.stop ≤ expanded

/-- The work on an assignment concerns slots of the batch. -/
theorem Module.within_tasks {module : Module} {chunk : Chunk} {expanded : Nat}
    (assigned : chunk.OnGrid module.assignmentSize expanded) :
    ∀ task ∈ module.tasks chunk, task.Within expanded := by
  obtain ⟨-, -, -, inside⟩ := assigned
  intro task member
  cases task with
  | call part => exact (bounds_of_call member).2.trans inside
  | checkpoint => trivial
  | report target piece => exact (bounds_of_report member).2.2.2.trans inside

namespace Dispatch

variable {origin dispatch after : Dispatch} {expanded id : Nat} {module next : Module}

/-- **Every chunk in the hands of a graph lies in the batch.** -/
structure Confined (origin : Dispatch) (expanded : Nat) (dispatch : Dispatch) : Prop where
  modules : ∀ (id : Nat) module, dispatch.modules[id]? = some module → module.Confined expanded ∧
    ∃ former, origin.modules[id]? = some former ∧ module.Alike former
  workers : ∀ (position : Nat) worker, dispatch.workers[position]? = some worker →
    worker.activity.Within expanded
  journal : ∀ observation ∈ dispatch.journal, observation.Within expanded

namespace Confined

/-- Flags may change. -/
theorem of_same (confined : Confined origin expanded dispatch)
    (modules_eq : after.modules = dispatch.modules) (workers_eq : after.workers = dispatch.workers)
    (journal_eq : after.journal = dispatch.journal) : Confined origin expanded after := by
  refine ⟨?_, ?_, ?_⟩
  · rw [modules_eq]
    exact confined.modules
  · rw [workers_eq]
    exact confined.workers
  · rw [journal_eq]
    exact confined.journal

/-- A module goes on. -/
theorem setModule (confined : Confined origin expanded dispatch)
    (found : dispatch.modules[id]? = some module) (alike : next.Alike module)
    (kept : next.Confined expanded) : Confined origin expanded (dispatch.setModule id next) := by
  refine ⟨?_, confined.workers, confined.journal⟩
  intro other there there_found
  rcases of_getElem?_setIfInBounds found there_found with ⟨rfl, rfl⟩ | ⟨-, there_found⟩
  · obtain ⟨-, former, former_found, same⟩ := confined.modules other module found
    exact ⟨kept, former, former_found, alike.trans same⟩
  · exact confined.modules other there there_found

/-- A worker goes on. -/
theorem setActivity (confined : Confined origin expanded dispatch) {position : Nat}
    {worker : Worker} (here : dispatch.workers[position]? = some worker) {activity : Activity}
    (within : activity.Within expanded) :
    Confined origin expanded (dispatch.setActivity position activity) := by
  refine ⟨confined.modules, ?_, confined.journal⟩
  intro other there found
  rcases of_getElem?_setActivity here found with ⟨-, rfl⟩ | ⟨-, found⟩
  · exact within
  · exact confined.workers other there found

/-- Something is observed. -/
theorem observe (confined : Confined origin expanded dispatch) {observation : Observation}
    (within : observation.Within expanded) :
    Confined origin expanded (dispatch.observe observation) :=
  ⟨confined.modules, confined.workers, List.forall_mem_cons.mpr ⟨within, confined.journal⟩⟩

/-- Assignments are observed as they are queued. -/
theorem observeQueued (confined : Confined origin expanded dispatch) {unit : Nat}
    {released : List Chunk} (assigned : ∀ chunk ∈ released, chunk.OnGrid unit expanded)
    (target : Nat) : Confined origin expanded (dispatch.observeQueued target released) := by
  refine ⟨confined.modules, confined.workers, ?_⟩
  intro observation member
  rcases List.mem_append.mp member with fresh | seen
  · obtain ⟨chunk, chunk_mem, rfl⟩ := List.mem_map.mp fresh
    obtain ⟨-, -, -, inside⟩ := assigned chunk (List.mem_reverse.mp chunk_mem)
    exact inside
  · exact confined.journal observation seen

/-- Ending work closes queues. -/
theorem terminate (confined : Confined origin expanded dispatch) :
    Confined origin expanded dispatch.terminate.2 := by
  unfold Dispatch.terminate
  split
  case isTrue => exact confined
  case isFalse =>
    refine ⟨?_, confined.workers, confined.journal⟩
    intro id module found
    rw [Array.getElem?_map] at found
    obtain ⟨before, before_found, rfl⟩ := Option.map_eq_some_iff.mp found
    obtain ⟨kept, former, former_found, alike⟩ := confined.modules id before before_found
    exact ⟨kept.withQueue kept.waiting, former, former_found, alike.goOn _ _⟩

/-- Fewer assignments wait for a module. -/
theorem withWaiting (confined : Confined origin expanded dispatch)
    (found : dispatch.modules[id]? = some module) {rest : List Chunk}
    (fewer : ∀ chunk ∈ rest, chunk ∈ module.queue.chunks) :
    Confined origin expanded (dispatch.setModule id (module.withWaiting rest)) := by
  obtain ⟨kept, -⟩ := confined.modules id module found
  exact confined.setModule found ⟨rfl, rfl, rfl, rfl⟩
    (kept.withQueue fun chunk member => kept.waiting chunk (fewer chunk member))

/-- Released assignments are queued. -/
theorem enqueue (confined : Confined origin expanded dispatch)
    (found : dispatch.modules[id]? = some module) (alike : next.Alike module)
    (kept : next.Confined expanded) {released : List Chunk}
    (assigned : ∀ chunk ∈ released, chunk.OnGrid next.assignmentSize expanded) :
    Confined origin expanded (dispatch.enqueue id next released).2 := by
  have counted := kept.account (kept.accounted.complete released.length)
  have more : ∀ chunk ∈ next.queue.chunks ++ released,
      chunk.OnGrid next.assignmentSize expanded := by
    intro chunk member
    rcases List.mem_append.mp member with waiting | fresh
    · exact kept.waiting chunk waiting
    · exact assigned chunk fresh
  have seen := confined.observeQueued assigned id
  unfold Dispatch.enqueue
  split
  case isTrue =>
    dsimp only
    split <;> exact confined.setModule found alike kept
  case isFalse =>
    dsimp only
    split
    case h_1 =>
      have closed := seen.setModule found
        (alike.goOn (next.assignments.complete released.length).2
          { next.queue with chunks := next.queue.chunks ++ released, closed := true })
        (counted.withQueue more)
      exact closed.of_same rfl rfl rfl
    case h_2 => exact seen.setModule found (alike.goOn _ _) (counted.withQueue more)

/-- A report, from outside or from a worker. -/
theorem primed (confined : Confined origin expanded dispatch) {source : Option Nat} {target : Nat}
    {piece : Chunk} {outcome : Except Fault Bool}
    (done : dispatch.prime source target piece = (outcome, after)) :
    Confined origin expanded after := by
  obtain rfl : (dispatch.prime source target piece).2 = after := by rw [done]
  unfold prime
  split
  case h_1 => exact confined
  case h_2 module found =>
    obtain ⟨kept, -⟩ := confined.modules target module found
    have reported : (Observation.reported source target piece).Within expanded := trivial
    have seen := confined.observe reported
    obtain ⟨counted, assigned⟩ := kept.accounted.prime piece
    dsimp only
    split
    case h_1 fault assignments answered =>
      rw [answered] at counted
      exact seen.setModule found ((Module.Alike.refl module).goOn _ _) (kept.account counted)
    case h_2 released assignments answered =>
      rw [answered] at counted assigned
      refine seen.enqueue found ((Module.Alike.refl module).goOn _ _) (kept.account counted) ?_
      rw [kept.unit_eq] at assigned
      exact assigned released rfl

/-- **Every step keeps the chunks in the batch.** -/
theorem moves (confined : Confined origin expanded dispatch) {step : Step}
    (moved : dispatch.Moves step after) : Confined origin expanded after := by
  cases moved with
  | @took position worker module chunk rest here idle found waiting running =>
      obtain ⟨kept, -⟩ := confined.modules worker.module module found
      have assigned := kept.waiting chunk (waiting ▸ List.mem_cons_self)
      have taken := confined.withWaiting found
        fun other member => waiting ▸ List.mem_cons_of_mem chunk member
      exact taken.setActivity here (Module.within_tasks assigned)
  | @dropped position worker module chunk rest here idle found waiting ended =>
      exact confined.withWaiting found
        fun other member => waiting ▸ List.mem_cons_of_mem chunk member
  | @entered position worker chunk rest here next =>
      have within := confined.workers position worker here
      rw [next] at within
      obtain ⟨inside, later⟩ := List.forall_mem_cons.mp within
      have called : (Observation.called worker.module chunk).Within expanded := inside
      exact (confined.observe called).setActivity here ⟨inside, later⟩
  | @returned position worker chunk rest here calling =>
      have within := confined.workers position worker here
      rw [calling] at within
      have seen : (Observation.returned worker.module chunk (.ok ())).Within expanded := within.1
      exact (confined.observe seen).setActivity here within.2
  | @failed position worker chunk rest error here calling =>
      have within := confined.workers position worker here
      rw [calling] at within
      have seen : (Observation.returned worker.module chunk (.error error)).Within expanded :=
        within.1
      have idle : Activity.Within expanded .idle := trivial
      have stopped := (confined.observe seen).setActivity here idle
      refine Confined.terminate ?_
      exact stopped.of_same rfl rfl rfl
  | finished here => exact confined.setActivity here trivial
  | @passed position worker rest here next =>
      have within := confined.workers position worker here
      rw [next] at within
      exact confined.setActivity here (List.forall_mem_cons.mp within).2
  | stopped here => exact confined.setActivity here trivial
  | @reported position target worker piece rest last primed here next done =>
      have within := confined.workers position worker here
      rw [next] at within
      exact (confined.primed done).setActivity ((primes_of_prime done).workers_eq ▸ here)
        (List.forall_mem_cons.mp within).2
  | crashed here next refused =>
      exact (confined.primed refused).setActivity ((primes_of_prime refused).workers_eq ▸ here)
        trivial
  | departed here => exact confined.setActivity here trivial

/-- Workers that are hired have nothing in hand. -/
theorem start (confined : Confined origin expanded dispatch) :
    Confined origin expanded { dispatch with workers := dispatch.crew.toArray } := by
  refine ⟨confined.modules, ?_, confined.journal⟩
  intro position worker found
  have hired : worker ∈ dispatch.crew := by
    simpa using Array.mem_of_getElem? found
  rw [(Graph.mem_workersFrom hired).1]
  trivial

/-- What waits for a module are slots of the batch. -/
theorem stop_le (confined : Confined origin expanded dispatch)
    (found : dispatch.modules[id]? = some module) {chunk : Chunk}
    (waiting : chunk ∈ module.queue.chunks) : chunk.stop ≤ expanded := by
  obtain ⟨kept, -⟩ := confined.modules id module found
  obtain ⟨-, -, -, inside⟩ := kept.waiting chunk waiting
  exact inside

end Confined

end Dispatch

/-! ## Graphs -/

namespace Graph

variable {expanded : Nat} {graph after : Graph}

/-- A graph that has been built, and all of whose chunks lie in the batch. -/
structure Confined (origin : Dispatch) (expanded : Nat) (graph : Graph) : Prop where
  built : graph.state ≠ .unbuilt
  size_eq : graph.expandedSize = expanded
  running : ∃ dispatch, graph.dispatch = some dispatch ∧ Dispatch.Confined origin expanded dispatch

/-- A module that is built of resolved sizes has its assignments in the batch. -/
theorem confined_of_made {spec : ModuleSpec} {sizes : ResolvedModule} {module : Module}
    (built : buildModule expanded spec sizes = .ok module)
    (divides : sizes.assignmentSize ∣ expanded) : module.Confined expanded := by
  obtain ⟨assignments, made, built⟩ := Fault.bind_eq_ok.mp built
  injection built with built
  subst built
  exact Module.confined_of_create made (fun _ => divides) rfl

/-- So has the sink. -/
theorem confined_of_sink {settings : GraphSettings} {last : Nat} {sink : Module}
    (built : buildSink expanded settings last = .ok sink)
    (divides : max settings.minSlotSize 1 ∣ expanded) : sink.Confined expanded := by
  obtain ⟨assignments, made, built⟩ := Fault.bind_eq_ok.mp built
  injection built with built
  subst built
  refine Module.confined_of_create made (fun declared => ?_) rfl
  rwa [Nat.max_eq_left (Nat.pos_of_ne_zero declared)] at divides

/-- **Building makes such a graph, wired or not.** -/
theorem confined_of_build {built : Graph} {batch : Nat} (done : graph.build batch = .ok built) :
    ∃ origin, built.dispatch = some origin ∧ Confined origin built.expandedSize built := by
  obtain ⟨plan, first, last, modules, sink, compiled, rfl⟩ := build_compiled done
  refine ⟨_, rfl, by simp, rfl, _, rfl, ?_, ?_, ?_⟩
  · intro id module found
    refine ⟨?_, module, found, .refl module⟩
    rcases eq_or_sink_of_getElem? found with ⟨-, placed⟩ | ⟨-, rfl⟩
    · obtain ⟨spec, resolved, sizes, fitting, resolving, builds⟩ := compiled.made id module placed
      obtain ⟨unit_eq, -⟩ := resolving.same_sizes
      exact confined_of_made builds (unit_eq ▸ fitting.unit_dvd)
    · exact confined_of_sink compiled.sink_made compiled.grain_dvd
  · intro position worker found
    simp [Dispatch.create] at found
  · rintro observation ⟨⟩

/-! ## Whatever is called -/

section Events

variable {origin dispatch : Dispatch} {event : Event}

/-- What an event leaves of a built graph, whether it goes through or not. -/
inductive Aftermath (graph : Graph) (dispatch : Dispatch) : Graph → Prop
  /-- Nothing has happened. -/
  | kept : Aftermath graph dispatch graph
  /-- It is linked. -/
  | linked {stream : Stream} (stage : graph.state = .built) :
      Aftermath graph dispatch { graph with stream, state := .linked }
  /-- Its workers are started. -/
  | started (stage : graph.state = .linked) :
      Aftermath graph dispatch { graph with
        state := .running, dispatch := some { dispatch with workers := dispatch.crew.toArray } }
  /-- Input is reported to a module. -/
  | primed {first : Nat} {piece : Chunk} {outcome : Except Fault Bool} {next : Dispatch}
      (done : dispatch.prime none first piece = (outcome, next)) :
      Aftermath graph dispatch { graph with dispatch := some next }
  /-- A worker takes a step. -/
  | worked {step : Dispatch.Step} {next : Dispatch} (moved : dispatch.Moves step next) :
      Aftermath graph dispatch { graph with dispatch := some next }
  /-- A finished chunk is taken. -/
  | collected {sink : Module} {chunk : Chunk} {rest : List Chunk}
      (found : dispatch.modules[dispatch.sink]? = some sink)
      (waiting : sink.queue.chunks = chunk :: rest) :
      Aftermath graph dispatch { graph with
        dispatch := some (dispatch.setModule dispatch.sink (sink.withWaiting rest)) }
  /-- It is killed. -/
  | killed :
      Aftermath graph dispatch { graph with
        state := .terminated, dispatch := some { dispatch.terminate.2 with dismissed := true } }

/-- Input that is refused counts, too. -/
theorem aftermath_of_send (found : graph.dispatch = some dispatch) (chunk : Chunk) :
    graph.Aftermath dispatch (graph.send chunk).2 := by
  cases answered : graph.send chunk with
  | mk outcome after =>
      rcases send_cases found answered with rfl | ⟨-, next, done, rfl⟩
      · exact .kept
      · exact .primed done

/-- What an event that goes through makes of a built graph. -/
inductive Acts (graph : Graph) (dispatch : Dispatch) : Event → Graph → Prop
  /-- Nothing has happened. -/
  | kept {event : Event} : Acts graph dispatch event graph
  /-- It is linked. -/
  | linked {buffer : RoundBuffer} {stream : Stream} (stage : graph.state = .built) :
      Acts graph dispatch (.link buffer) { graph with stream, state := .linked }
  /-- Its workers are started. -/
  | started (stage : graph.state = .linked) :
      Acts graph dispatch .start { graph with
        state := .running, dispatch := some { dispatch with workers := dispatch.crew.toArray } }
  /-- Input is accepted. -/
  | sent {chunk : Chunk} {first : Nat} {last : Bool} {next : Dispatch}
      (done : dispatch.prime none first chunk = (.ok last, next)) :
      Acts graph dispatch (.send chunk) { graph with dispatch := some next }
  /-- A worker takes a step. -/
  | worked {step : Dispatch.Step} {next : Dispatch} (moved : dispatch.Moves step next) :
      Acts graph dispatch (.work step) { graph with dispatch := some next }
  /-- A finished chunk is taken. -/
  | collected {sink : Module} {chunk : Chunk} {rest : List Chunk}
      (found : dispatch.modules[dispatch.sink]? = some sink)
      (waiting : sink.queue.chunks = chunk :: rest) :
      Acts graph dispatch .collect { graph with
        dispatch := some (dispatch.setModule dispatch.sink (sink.withWaiting rest)) }
  /-- It is killed. -/
  | killed :
      Acts graph dispatch .kill { graph with
        state := .terminated, dispatch := some { dispatch.terminate.2 with dismissed := true } }

/-- **An event that goes through acts in one of these ways.** -/
theorem acts_of_act (found : graph.dispatch = some dispatch)
    (acted : graph.act event = some after) : graph.Acts dispatch event after := by
  cases event with
  | link buffer =>
      obtain ⟨stage, stream, rfl⟩ := link_ok (eq_ok_of_toOption acted)
      exact .linked stage
  | start =>
      rcases run_ok found (eq_ok_of_toOption acted) with ⟨-, rfl⟩ | ⟨stage, rfl⟩
      · exact .kept
      · exact .started stage
  | send chunk =>
      rw [act] at acted
      split at acted
      case h_1 answer there answered =>
        injection acted with same
        subst same
        rcases send_cases found answered with rfl | ⟨-, next, done, rfl⟩
        · exact .kept
        · exact .sent done
      case h_2 => cases acted
  | work step =>
      rw [act, found] at acted
      obtain ⟨next, stepped, rfl⟩ := Option.map_eq_some_iff.mp acted
      exact .worked (Dispatch.moves_of_step stepped)
  | collect =>
      obtain ⟨⟨taken, there⟩, taking, rfl⟩ := Fault.map_eq_ok.mp (eq_ok_of_toOption acted)
      rcases collect_cases found taking with
        ⟨-, rfl⟩ | ⟨sink, chunk, rest, sink_found, waiting, -, rfl⟩
      · exact .kept
      · exact .collected sink_found waiting
  | kill =>
      injection acted with same
      subst same
      unfold kill
      rw [found]
      dsimp only
      split
      case isTrue => exact .kept
      case isFalse => exact .killed

/-- An event that goes through leaves one of these. -/
theorem aftermath_of_act (found : graph.dispatch = some dispatch)
    (acted : graph.act event = some after) : graph.Aftermath dispatch after := by
  cases acts_of_act found acted with
  | kept => exact .kept
  | linked stage => exact .linked stage
  | started stage => exact .started stage
  | sent done => exact .primed done
  | worked moved => exact .worked moved
  | collected sink_found waiting => exact .collected sink_found waiting
  | killed => exact .killed

/-- **Whatever happens to a built graph leaves one of these.** -/
theorem aftermath_of_event (found : graph.dispatch = some dispatch) (event : Event) :
    graph.Aftermath dispatch (graph.attempt (.event event)).2 := by
  rw [attempt]
  cases acted : graph.act event with
  | some after => exact aftermath_of_act found acted
  | none =>
      cases event with
      | send chunk => exact aftermath_of_send found chunk
      | _ => exact .kept

namespace Confined

/-- What becomes of a graph keeps its chunks in the batch. -/
theorem aftermath (confined : Confined origin expanded graph)
    (found : graph.dispatch = some dispatch) (aftermath : graph.Aftermath dispatch after) :
    Confined origin expanded after := by
  obtain ⟨_, same, kept⟩ := confined.running
  obtain rfl := Option.some.inj (same.symm.trans found)
  cases aftermath with
  | kept => exact confined
  | linked => exact ⟨by simp, confined.size_eq, _, same, kept⟩
  | started => exact ⟨by simp, confined.size_eq, _, rfl, kept.start⟩
  | primed done => exact ⟨confined.built, confined.size_eq, _, rfl, kept.primed done⟩
  | worked moved => exact ⟨confined.built, confined.size_eq, _, rfl, kept.moves moved⟩
  | @collected sink chunk rest sink_found waiting =>
      refine ⟨confined.built, confined.size_eq, _, rfl, kept.withWaiting sink_found ?_⟩
      exact fun other member => waiting ▸ List.mem_cons_of_mem chunk member
  | killed =>
      exact ⟨by simp, confined.size_eq, _, rfl, kept.terminate.of_same rfl rfl rfl⟩

/-- **Whatever happens to a graph**, its chunks stay in the batch. -/
theorem play (confined : Confined origin expanded graph) {events : List Event}
    (played : graph.play events = some after) : Confined origin expanded after := by
  induction events generalizing graph with
  | nil =>
      injection played with same
      exact same ▸ confined
  | cons event rest ih =>
      obtain ⟨next, acted, played⟩ := Option.bind_eq_some_iff.mp played
      obtain ⟨dispatch, found, -⟩ := confined.running
      exact ih (confined.aftermath found (aftermath_of_act found acted)) played

/-- What is taken out of the graph lies in the batch. -/
theorem taken (confined : Confined origin expanded graph) {chunk : Chunk}
    (taking : graph.takeOutput = .ok (.chunk chunk, after)) : chunk.stop ≤ expanded := by
  obtain ⟨dispatch, found, kept⟩ := confined.running
  obtain ⟨sink, sink_found, taken_eq, -⟩ := takeOutput_ok found taking
  obtain ⟨rest, waiting, -⟩ := ChunkQueue.of_take_chunk (Prod.ext taken_eq.symm rfl)
  exact kept.stop_le sink_found (waiting ▸ List.mem_cons_self)

end Confined

end Events

end Graph

end Mixnet
