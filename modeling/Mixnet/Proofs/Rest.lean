import Mixnet.Proofs.Output

/-!
# Graphs at rest

A graph is at rest if no worker can take a step.  If nothing has ended the work, a graph at rest has
nothing left in hand or in a queue, so what was queued is done.  From there one goes along the
edges: where all inputs have done everything, a module has received everything, has queued
everything, and has done it as well.

## Main definitions

* `Dispatch.AtRest`: no worker can take a step
* `Dispatch.Exhausted`: what was queued is done
* `Dispatch.Stuck`: a worker that cannot take a step
* `Module.Fulfilled`: a module that has queued all its assignments

## Main statements

* `Dispatch.AtRest.exhausted`: what was queued is done, if nothing has ended the work
* `Dispatch.Exhausted.fulfilled`: if the first module was fed all slots, every module is fulfilled
* `Dispatch.AtRest.exited`: if all queues are closed as well, every worker has gone
-/

namespace Mixnet

open Journal

/-! ## Fulfilled modules -/

/-- A module that has found every assignment full, and has queued each of them. -/
structure Module.Fulfilled (module : Module) (queued : List Chunk) : Prop where
  full : ∀ index < module.assignments.size,
    module.assignments.countAt index = module.assignments.maxCount
  primed_eq : module.assignments.primed = module.assignments.size
  completed_eq : module.assignments.completed = module.assignments.size
  unparked : module.assignments.waiting = []
  queued_all : queued.Perm module.assignments.all

/-- **A module that has received every slot from every input is fulfilled.** -/
theorem Module.Kept.fulfilled {module : Module} {received queued : List Chunk} {expanded : Nat}
    (kept : module.Kept false received queued) (fits : module.Fits expanded)
    (covered : ∀ slot < expanded, Chunk.coverage received slot = max module.inputs.length 1) :
    module.Fulfilled queued := by
  have full : ∀ index < module.assignments.size,
      module.assignments.countAt index = module.assignments.maxCount := by
    intro index inside
    apply kept.accounts.full_of_coverage fits.sized inside
    intro slot covers
    apply covered slot
    have below := (Chunk.covers_iff.mp covers).2
    rw [(fits.sized.assignment_bounds inside).2] at below
    exact below.trans_le (fits.sized.stop_le inside)
  obtain ⟨primed_eq, released_eq, completed_eq⟩ := kept.complete_of_full fits full
  refine ⟨full, primed_eq, completed_eq, kept.accounts.opened ?_, ?_⟩
  · rw [primed_eq]
    exact fits.sized.threshold_le
  · rw [← released_eq]
    exact kept.queued_all rfl

/-- A fulfilled module has queued every slot of the batch once. -/
theorem Module.Fulfilled.coverage_eq {module : Module} {queued : List Chunk} {expanded : Nat}
    (fulfilled : module.Fulfilled queued) (fits : module.Fits expanded) (slot : Nat) :
    Chunk.coverage queued slot = if slot < expanded then 1 else 0 := by
  rw [Chunk.coverage_perm fulfilled.queued_all, fits.sized.coverage_all]

namespace Dispatch

variable {origin dispatch : Dispatch} {first expanded : Nat} {rank : Nat → Nat}

/-! ## No steps left -/

/-- No worker can take a step. -/
def AtRest (dispatch : Dispatch) : Prop := ∀ step, dispatch.step step = none

/-- What was queued is done: every queue of a module with workers is empty, and these modules have
performed all that was asked of them. -/
structure Exhausted (dispatch : Dispatch) : Prop where
  drained : ∀ id < dispatch.sink, dispatch.waiting id = []
  performed_eq : ∀ (id : Nat) module, dispatch.modules[id]? = some module → id < dispatch.sink →
    (performed dispatch.journal id : Multiset Task) =
      duties ((queuedOn dispatch.journal id).flatMap module.tasks)

/-- A worker that can neither enter the kernel nor leave it nor proceed has nothing in hand. -/
theorem Staffed.idle_or_exited (staffed : dispatch.Staffed) {position : Nat} {worker : Worker}
    (here : dispatch.workers[position]? = some worker)
    (enters : dispatch.step (.enter position) = none)
    (leaves : dispatch.step (.leave position (.ok ())) = none)
    (proceeds : dispatch.step (.proceed position) = none) :
    worker.activity = .idle ∨ worker.activity = .exited := by
  simp only [step, enterStep, here, Option.bind_eq_bind, Option.bind_some] at enters
  simp only [step, leaveStep, here, Option.bind_eq_bind, Option.bind_some] at leaves
  simp only [step, proceedStep, here, Option.bind_eq_bind, Option.bind_some] at proceeds
  cases activity : worker.activity with
  | idle => exact Or.inl rfl
  | exited => exact Or.inr rfl
  | calling chunk rest => simp [activity] at leaves
  | crashed fault =>
      have sound := (staffed position worker here).2
      simp [Worker.Sound, activity] at sound
  | working tasks =>
      cases tasks with
      | nil => simp [activity] at proceeds
      | cons task rest =>
          cases task with
          | call chunk => simp [activity] at enters
          | checkpoint => simp [activity] at proceeds
          | report target piece =>
              simp only [activity] at proceeds
              split at proceeds <;> cases proceeds

namespace AtRest

variable {position : Nat} {worker : Worker}

/-- A worker with a task could do it. -/
theorem idle_or_exited (atRest : dispatch.AtRest) (staffed : dispatch.Staffed)
    (here : dispatch.workers[position]? = some worker) :
    worker.activity = .idle ∨ worker.activity = .exited :=
  staffed.idle_or_exited here (atRest _) (atRest _) (atRest _)

/-- An idle worker could take what waits at its module. -/
theorem waiting_of_idle (atRest : dispatch.AtRest)
    (here : dispatch.workers[position]? = some worker) (idle : worker.activity = .idle) :
    dispatch.waiting worker.module = [] := by
  have takes := atRest (.take position)
  cases found : dispatch.modules[worker.module]? with
  | none => rw [waiting, found, Option.map_none, Option.getD_none]
  | some module =>
      rw [waiting_eq found]
      cases chunks_eq : module.queue.chunks with
      | nil => rfl
      | cons chunk rest =>
          simp [step, takeStep, here, found, idle, ChunkQueue.take, chunks_eq] at takes

/-- Nobody has anything in hand. -/
theorem inHand_eq_zero (atRest : dispatch.AtRest) (staffed : dispatch.Staffed) (id : Nat) :
    dispatch.inHand id = 0 := by
  apply List.sum_eq_zero
  intro held member
  obtain ⟨worker, worker_mem, rfl⟩ := List.mem_map.mp member
  obtain ⟨position, here⟩ := Array.mem_iff_getElem?.mp (Array.mem_toList_iff.mp worker_mem)
  rcases atRest.idle_or_exited staffed here with idle | exited
  · simp only [idle, Activity.pending, ite_self]
  · simp only [exited, Activity.pending, ite_self]

/-- **What was queued is done**, if nothing has ended the work and every module has a worker. -/
theorem exhausted (atRest : dispatch.AtRest) (sound : Sound origin first dispatch)
    (manned : ∀ id < dispatch.sink, ∃ (position : Nat) (worker : Worker),
      dispatch.workers[position]? = some worker ∧ worker.module = id)
    (running : dispatch.terminated = false) (unfailed : dispatch.failure = none)
    (staying : dispatch.dismissed = false) : dispatch.Exhausted := by
  have drained : ∀ id < dispatch.sink, dispatch.waiting id = [] := by
    intro id wired
    obtain ⟨position, worker, here, rfl⟩ := manned id wired
    rcases atRest.idle_or_exited sound.staffed here with idle | exited
    · exact atRest.waiting_of_idle here idle
    · rcases sound.excused position worker here exited with told | ⟨module, found, empty⟩
      · rw [staying] at told
        cases told
      · rw [waiting_eq found]
        exact List.isEmpty_iff.mp (Bool.and_eq_true _ _ ▸ empty).2
  refine ⟨drained, ?_⟩
  intro id module found wired
  -- Nothing is in hand, waits or is lost, so the balance leaves what was performed.
  obtain ⟨lost, balance, none_lost⟩ := sound.conserved id module found wired
  rw [← waiting_eq found, drained id wired, atRest.inHand_eq_zero sound.staffed,
    none_lost running unfailed, List.flatMap_nil, duties_nil, add_zero, add_zero,
    add_zero] at balance
  exact balance

/-- Where all queues are closed as well, every worker has gone. -/
theorem exited (atRest : dispatch.AtRest) (sound : Sound origin first dispatch)
    (laid : origin.Laid first expanded rank)
    (closed : ∀ (id : Nat) module, dispatch.modules[id]? = some module → id < dispatch.sink →
      module.queue.isDrained = true)
    (here : dispatch.workers[position]? = some worker) : worker.activity = .exited := by
  rcases atRest.idle_or_exited sound.staffed here with idle | exited
  · obtain ⟨wired, -⟩ := sound.staffed position worker here
    obtain ⟨module, found⟩ := sound.exists_module laid wired.le
    have departs := atRest (.depart position)
    simp [step, departStep, here, found, idle, closed worker.module module found wired] at departs
  · exact exited

end AtRest

theorem exited_of_deserted (deserted : dispatch.isDeserted = true) {position : Nat}
    {worker : Worker} (here : dispatch.workers[position]? = some worker) :
    worker.activity = .exited := by
  have absent := Array.all_eq_true_iff_forall_mem.mp deserted worker (Array.mem_of_getElem? here)
  simpa [Worker.isAlive] using absent

/-- A worker that cannot take a step: it has gone, or waits at an open queue without work. -/
def Stuck (dispatch : Dispatch) (worker : Worker) : Prop :=
  match worker.activity with
  | .idle => dispatch.dismissed = false ∧ ∀ module,
      dispatch.modules[worker.module]? = some module →
        module.queue.chunks = [] ∧ module.queue.closed = false
  | .working _ | .calling _ _ => False
  | .exited | .crashed _ => True

/-- Where every worker is stuck, none takes a step. -/
theorem not_moves_of_stuck (stuck : ∀ worker ∈ dispatch.workers, dispatch.Stuck worker)
    {step : Step} {after : Dispatch} : ¬ dispatch.Moves step after := by
  have here_stuck {position : Nat} {worker : Worker}
      (here : dispatch.workers[position]? = some worker) : dispatch.Stuck worker :=
    stuck worker (Array.mem_of_getElem? here)
  have not_busy {position : Nat} {worker : Worker} {tasks : List Task}
      (here : dispatch.workers[position]? = some worker) :
      worker.activity ≠ .working tasks ∧ ∀ chunk, worker.activity ≠ .calling chunk tasks := by
    have stuck := here_stuck here
    constructor
    · intro busy
      simp only [Stuck, busy] at stuck
    · intro chunk busy
      simp only [Stuck, busy] at stuck
  -- Each way a step can go needs a worker that does something else, or a queue that is not so.
  intro moved
  cases moved with
  | took here idle found waiting | dropped here idle found waiting =>
      have stuck := here_stuck here
      simp only [Stuck, idle] at stuck
      rw [(stuck.2 _ found).1] at waiting
      cases waiting
  | entered here next => exact (not_busy here).1 next
  | returned here inside => exact (not_busy here).2 _ inside
  | failed here inside => exact (not_busy here).2 _ inside
  | finished here done => exact (not_busy here).1 done
  | passed here next => exact (not_busy here).1 next
  | stopped here next => exact (not_busy here).1 next
  | reported here next => exact (not_busy here).1 next
  | crashed here next => exact (not_busy here).1 next
  | departed here idle found free =>
      have stuck := here_stuck here
      simp only [Stuck, idle] at stuck
      simp [stuck.1, ChunkQueue.isDrained, (stuck.2 _ found).2] at free

theorem atRest_of_stuck (stuck : ∀ worker ∈ dispatch.workers, dispatch.Stuck worker) :
    dispatch.AtRest := by
  intro step
  by_contra steps
  obtain ⟨after, stepped⟩ := Option.ne_none_iff_exists'.mp steps
  exact not_moves_of_stuck stuck (moves_of_step stepped)

/-- Where every worker has gone, each is stuck. -/
theorem stuck_of_deserted (deserted : dispatch.isDeserted = true) :
    ∀ worker ∈ dispatch.workers, dispatch.Stuck worker := by
  intro worker member
  obtain ⟨position, here⟩ := Array.mem_iff_getElem?.mp member
  simp only [Stuck, exited_of_deserted deserted here]

theorem not_moves_of_deserted (deserted : dispatch.isDeserted = true) {step : Step}
    {after : Dispatch} : ¬ dispatch.Moves step after :=
  not_moves_of_stuck (stuck_of_deserted deserted)

theorem atRest_of_deserted (deserted : dispatch.isDeserted = true) : dispatch.AtRest :=
  atRest_of_stuck (stuck_of_deserted deserted)

/-! ## Along the edges -/

namespace Exhausted

/-- A fulfilled module has called its kernel on every slot once. -/
theorem coverage_called (exhausted : dispatch.Exhausted) {id : Nat} {module : Module}
    (found : dispatch.modules[id]? = some module) (wired : id < dispatch.sink)
    (fits : module.Fits expanded) (fulfilled : module.Fulfilled (queuedOn dispatch.journal id))
    (slot : Nat) :
    Chunk.coverage (calledOn dispatch.journal id) slot = if slot < expanded then 1 else 0 := by
  have counted := congrArg (Multiset.countP fun task => Task.callsSlot slot task = true)
    (exhausted.performed_eq id module found wired)
  rw [Conserved.countP_due_calls] at counted
  simp only [Multiset.coe_countP, Bool.decide_eq_true, countP_performed_calls] at counted
  rw [counted, fulfilled.coverage_eq fits]

/-- A fulfilled module has reported every slot once to each output. -/
theorem coverage_reported (exhausted : dispatch.Exhausted) {id target : Nat} {module : Module}
    (found : dispatch.modules[id]? = some module) (wired : id < dispatch.sink)
    (fits : module.Fits expanded) (fulfilled : module.Fulfilled (queuedOn dispatch.journal id))
    (output : target ∈ module.outputs) (slot : Nat) :
    Chunk.coverage (reportsFrom dispatch.journal (some id) target) slot =
      if slot < expanded then 1 else 0 := by
  have counted := congrArg (Multiset.countP fun task => Task.reportsSlot target slot task = true)
    (exhausted.performed_eq id module found wired)
  rw [Conserved.countP_due_reports fits.distinct output] at counted
  simp only [Multiset.coe_countP, Bool.decide_eq_true, countP_performed_reports] at counted
  rw [counted, fulfilled.coverage_eq fits]

/-- **If the first module was fed all slots, every module is fulfilled.** -/
theorem fulfilled (exhausted : dispatch.Exhausted) (sound : Sound origin first dispatch)
    (laid : origin.Laid first expanded rank) (running : dispatch.terminated = false)
    (fed : ∀ slot < expanded, Chunk.coverage (reportsTo dispatch.journal first) slot = 1)
    {id : Nat} {module : Module} (found : dispatch.modules[id]? = some module) :
    module.Fulfilled (queuedOn dispatch.journal id) := by
  -- By induction on the rank, which rises along the edges: a module that is not the first has
  -- received every slot from each of its inputs, since they are fulfilled.
  induction level : rank id using Nat.strong_induction_on generalizing id module with
  | _ level ih =>
      subst level
      have laid_out := sound.accounted.laid_out found
      have fits := sound.accounted.fits laid found
      have kept := sound.accounted.kept id module found
      rw [running] at kept
      apply kept.fulfilled fits
      intro slot inside
      by_cases entrance : id = first
      · have inputs_eq : module.inputs = [] := (laid.entrance id module.fresh laid_out).mpr entrance
        rw [entrance, fed slot inside, inputs_eq]
        rfl
      · have inputs_ne : module.inputs ≠ [] := by
          intro none
          exact entrance ((laid.entrance id module.fresh laid_out).mp none)
        have once : ∀ input ∈ module.inputs,
            Chunk.coverage (reportsFrom dispatch.journal (some input) id) slot = 1 := by
          intro input input_mem
          obtain ⟨lower, wired, before, before_found, output⟩ :=
            laid.backward id module.fresh laid_out input input_mem
          obtain ⟨source, source_found, rfl⟩ := sound.accounted.exists_of_origin before_found
          have source_fulfilled := ih (rank input) lower source_found rfl
          rw [exhausted.coverage_reported source_found (sound.accounted.sink_eq ▸ wired)
            (sound.accounted.fits laid source_found) source_fulfilled output, if_pos inside]
        rw [coverage_reportsTo (laid.distinct id module.fresh laid_out)
          fun source piece member => sound.causal.sourced laid_out entrance member]
        show (module.inputs.map _).sum = _
        rw [List.map_congr_left once, List.map_const', List.sum_replicate, smul_eq_mul, Nat.mul_one,
          Nat.max_eq_left (List.length_pos_iff.mpr inputs_ne)]

end Exhausted

end Dispatch

end Mixnet
