import Mixnet.Proofs.Confinement
import Mixnet.Proofs.Effort
import Mixnet.Proofs.ExactlyOnce
import Mixnet.Proofs.Pieces
import Mixnet.Proofs.Rest
import Mixnet.Proofs.Termination

/-!
# Working on an assignment

A worker that has taken an assignment does its tasks one by one, and between two of them anything
else may happen to the graph.  What is observed of the worker alone is fixed all the same by its
module and the assignment: the kernel is called on one range of the call size after the other, and
each piece of the chunk size is reported to every output when the kernel has returned on all of it.

## Main definitions

* `Task.deeds`, `Module.deeds`: what is observed of tasks that are done
* `Module.CarriesOut`: what work on an assignment has to be
* `Graph.deedsOf`: what is observed of one worker while other things happen
* `Activity.ahead`: what will be observed of a worker that goes on
* `Graph.Operates`: a graph that works, however many inputs its modules have
* `Graph.AtWork`: a worker on an assignment that it has taken
* `Graph.Finishes`: a worker that can come to have nothing in hand

## Main statements

* `Module.carriesOut_deeds`: the tasks on an assignment carry it out, in every mode
* `Graph.Operates.carries_on`: what has been observed of a worker, and what lies ahead of it, are
  together the same at all times
* `Graph.Reached.finishes`: a worker that goes on comes to an end
* `Graph.worked_in_pieces`: chunks are cut without a gap, and worked on in pieces that fit

## Design notes

The journal does not say which worker of a module has done what.  The deeds of one worker are
therefore read off what each of its own steps adds to the journal.

That a worker does the right things in the right order asks nothing of the accounts: a report that
is refused is the last thing that its worker does.  Only that it comes to an end needs accounts that
count every input.
-/

namespace Mixnet

open Journal

/-! ## What is observed of tasks -/

namespace Task

/-- What is observed of a task that is done, oldest first. -/
def deeds (id : Nat) : Task → List Observation
  | .call chunk => [.called id chunk, .returned id chunk (.ok ())]
  | .checkpoint => []
  | .report target piece => [.reported (some id) target piece]

/-- The chunk that a task calls the kernel on. -/
def callOf : Task → Option Chunk
  | .call chunk => some chunk
  | _ => none

/-- The piece that a task reports to a module. -/
def reportTo (target : Nat) : Task → Option Chunk
  | .report module piece => if module = target then some piece else none
  | _ => none

end Task

section Tasks

variable {tasks : List Task} {id target : Nat} {piece : Chunk}

/-- The kernel is called by the calls among the tasks. -/
theorem calledOn_deeds (id : Nat) (tasks : List Task) :
    calledOn (tasks.flatMap (Task.deeds id)) id = tasks.filterMap Task.callOf := by
  induction tasks with
  | nil => rfl
  | cons task tasks ih =>
      rw [List.flatMap_cons]
      cases task <;> simp [List.filterMap_cons, Task.deeds, Task.callOf, ih]

/-- A module receives the reports to it among the tasks. -/
theorem reportsFrom_deeds (id target : Nat) (tasks : List Task) :
    reportsFrom (tasks.flatMap (Task.deeds id)) (some id) target =
      tasks.filterMap (Task.reportTo target) := by
  induction tasks with
  | nil => rfl
  | cons task tasks ih =>
      rw [List.flatMap_cons]
      cases task with
      | report module piece =>
          by_cases same : module = target <;> simp [Task.deeds, Task.reportTo, same, ih]
      | _ => simp [List.filterMap_cons, Task.deeds, Task.reportTo, ih]

/-- **Of grounded tasks, a report is observed behind the returns on its slots.** -/
theorem returned_of_grounded {done : Nat → Prop} (grounded : Grounded done tasks)
    {before past rest : List Observation} (known : ∀ slot, done slot → Returned before id slot)
    (split : tasks.flatMap (Task.deeds id) = past ++ .reported (some id) target piece :: rest)
    {slot : Nat} (covered : piece.covers slot = true) : Returned (before ++ past) id slot := by
  induction tasks generalizing done before past with
  | nil => simp at split
  | cons task tasks ih =>
      rw [List.flatMap_cons] at split
      cases task with
      | call chunk =>
          -- The report is neither the call nor its return, so that both lie behind it.
          match past, split with
          | [], split => cases split
          | [_], split => cases split
          | _ :: _ :: past, split =>
              injection split with called split
              injection split with returned split
              subst called returned
              rw [List.append_cons, List.append_cons]
              refine ih grounded ?_ split
              rintro slot (earlier | here)
              · exact (known slot earlier).mono (fun _ member => by simp [member])
              · exact ⟨chunk, by simp, here⟩
      | checkpoint => exact ih grounded known split
      | report module reported =>
          obtain ⟨behind, grounded⟩ := grounded
          cases past with
          | nil =>
              injection split with same split
              injection same with _ _ same
              subst same
              rw [List.append_nil]
              exact known slot (behind slot covered)
          | cons first past =>
              injection split with same split
              rw [List.append_cons]
              refine ih grounded (fun slot earlier => ?_) split
              exact (known slot earlier).mono (List.subset_append_left _ _)

end Tasks

/-! ## Assignments carried out -/

namespace Module

variable {module : Module} {chunk piece : Chunk} {target : Nat}

/-- What is observed of the work on an assignment, oldest first. -/
def deeds (module : Module) (id : Nat) (chunk : Chunk) : List Observation :=
  (module.tasks chunk).flatMap (Task.deeds id)

theorem callOf_reports (module : Module) (piece : Chunk) :
    (module.reports piece).filterMap Task.callOf = [] := by
  simp [reports, Task.callOf]

/-- A piece is reported once to each output. -/
theorem reportTo_reports (distinct : module.outputs.Nodup) (output : target ∈ module.outputs)
    (piece : Chunk) : (module.reports piece).filterMap (Task.reportTo target) = [piece] := by
  have as_count (outputs : List Nat) :
      (outputs.map (Task.report · piece)).filterMap (Task.reportTo target) =
        List.replicate (outputs.count target) piece := by
    induction outputs with
    | nil => rfl
    | cons head outputs ih =>
        by_cases same : head = target
        · simp [Task.reportTo, same, ih, List.replicate_succ]
        · simp [Task.reportTo, same, ih]
  rw [reports, as_count, List.count_eq_one_of_mem distinct output]
  rfl

/-- **The calls on an assignment are its pieces of the call size**, in every mode. -/
theorem callOf_tasks (cuts : module.Cuts) (whole : chunk.length = module.assignmentSize) :
    (module.tasks chunk).filterMap Task.callOf = chunk.pieces module.callSize := by
  have by_pieces (call_dvd : module.callSize ∣ module.chunkSize) :
      ((chunk.pieces module.chunkSize).flatMap fun piece => (piece.pieces module.callSize).map
        Task.call ++ .checkpoint :: module.reports piece).filterMap Task.callOf =
          chunk.pieces module.callSize := by
    rw [List.filterMap_flatMap, ← Chunk.flatMap_pieces_pieces chunk cuts.call_pos cuts.chunk_pos
      call_dvd]
    refine List.flatMap_congr ?_
    rintro piece -
    rw [List.filterMap_append, List.filterMap_map, List.filterMap_cons_none rfl, callOf_reports,
      List.append_nil]
    exact List.filterMap_some
  have call_dvd := cuts.call_dvd
  unfold tasks
  cases mode : module.inputSize with
  | assignment =>
      have whole_call : module.callSize = chunk.length := by
        rw [callSize, mode]
        exact whole.symm
      have nonempty : chunk.start < chunk.stop := by
        have call_pos := cuts.call_pos
        rw [whole_call] at call_pos
        exact Nat.lt_of_sub_pos call_pos
      rw [whole_call, Chunk.pieces_length nonempty]
      simp [Task.callOf, List.filterMap_flatMap, callOf_reports]
  | chunk => exact by_pieces (call_dvd (by simp [mode]))
  | custom slots => exact by_pieces (call_dvd (by simp [mode]))

/-- **The reports to an output are the pieces of the chunk size**, in every mode. -/
theorem reportTo_tasks (distinct : module.outputs.Nodup) (output : target ∈ module.outputs)
    (chunk : Chunk) :
    (module.tasks chunk).filterMap (Task.reportTo target) = chunk.pieces module.chunkSize := by
  have by_pieces (calls : Chunk → List Chunk) :
      ((chunk.pieces module.chunkSize).flatMap fun piece => (calls piece).map Task.call ++
        .checkpoint :: module.reports piece).filterMap (Task.reportTo target) =
          chunk.pieces module.chunkSize := by
    have none_called (piece : Chunk) :
        ((calls piece).map Task.call).filterMap (Task.reportTo target) = [] := by
      simp [Task.reportTo]
    simp only [List.filterMap_flatMap, List.filterMap_append, none_called, List.nil_append,
      List.filterMap_cons_none (show Task.reportTo target .checkpoint = none from rfl),
      reportTo_reports distinct output, List.flatMap_singleton']
  unfold tasks
  cases module.inputSize with
  | assignment =>
      rw [List.filterMap_cons_none rfl, List.filterMap_flatMap]
      simp [reportTo_reports distinct output]
  | chunk => exact by_pieces _
  | custom slots => exact by_pieces _

/-- What work on an assignment has to be: the kernel of the module is called on even ranges of the
call size that make up the assignment, each of its outputs and nobody else is reported the even
pieces of the chunk size that make up the assignment, and each report comes behind the returns on
its slots. -/
structure CarriesOut (module : Module) (id : Nat) (chunk : Chunk) (deeds : List Observation) :
    Prop where
  calls_cut : chunk.IsEvenCut module.callSize (calledOn deeds id)
  reports_cut : ∀ output ∈ module.outputs,
    chunk.IsEvenCut module.chunkSize (reportsFrom deeds (some id) output)
  calls_own : ∀ caller part, .called caller part ∈ deeds → caller = id
  reports_own : ∀ source output piece, .reported source output piece ∈ deeds →
    source = some id ∧ output ∈ module.outputs
  behind : ∀ past rest output piece, deeds = past ++ .reported (some id) output piece :: rest →
    ∀ slot, piece.covers slot = true → Returned past id slot

/-- The call size divides the size of an assignment. -/
theorem Cuts.call_dvd_unit (cuts : module.Cuts) : module.callSize ∣ module.assignmentSize := by
  by_cases mode : module.inputSize = .assignment
  · rw [callSize, mode]
  · exact (cuts.call_dvd mode).trans cuts.chunk_dvd

/-- **The tasks on an assignment carry it out.** -/
theorem carriesOut_deeds (cuts : module.Cuts) (whole : chunk.length = module.assignmentSize)
    (id : Nat) : module.CarriesOut id chunk (module.deeds id chunk) where
  calls_cut := by
    rw [deeds, calledOn_deeds, callOf_tasks cuts whole]
    exact Chunk.isEvenCut_pieces cuts.call_pos (whole ▸ cuts.call_dvd_unit)
  reports_cut := by
    intro output member
    rw [deeds, reportsFrom_deeds, reportTo_tasks cuts.distinct member]
    exact Chunk.isEvenCut_pieces cuts.chunk_pos (whole ▸ cuts.chunk_dvd)
  calls_own := by
    intro caller part member
    obtain ⟨task, -, done⟩ := List.mem_flatMap.mp member
    cases task <;> simp_all [Task.deeds]
  reports_own := by
    intro source output piece member
    obtain ⟨task, asked, done⟩ := List.mem_flatMap.mp member
    cases task with
    | call chunk => simp [Task.deeds] at done
    | checkpoint => cases done
    | report target reported =>
        obtain ⟨rfl, rfl, rfl⟩ : source = some id ∧ output = target ∧ piece = reported := by
          simpa [Task.deeds] using done
        exact ⟨rfl, (bounds_of_report asked).1⟩
  behind := by
    intro past rest output piece split slot covered
    have known : ∀ slot, False → Returned [] id slot := fun _ impossible => impossible.elim
    exact returned_of_grounded (module.grounded_tasks chunk _) known split covered

end Module

/-! ## One worker among others -/

/-- Whether an observation is of something that a worker has done itself. -/
def Observation.isDeed : Observation → Bool
  | .queued .. => false
  | _ => true

/-- What will be observed of a worker of a module that goes on with what it is doing. -/
def Activity.ahead (id : Nat) : Activity → List Observation
  | .working tasks => tasks.flatMap (Task.deeds id)
  | .calling chunk tasks => .returned id chunk (.ok ()) :: tasks.flatMap (Task.deeds id)
  | _ => []

/-- What has not been observed yet of a worker is what lies ahead of it, unless it has met a fault
and will never do it. -/
def Activity.Leaves (id : Nat) (activity : Activity) (rest : List Observation) : Prop :=
  rest = activity.ahead id ∨ ∃ fault, activity = .crashed fault

namespace Dispatch

/-- The worker that takes a step. -/
def Step.position : Step → Nat
  | .take position => position
  | .enter position => position
  | .leave position _ => position
  | .proceed position => position
  | .depart position => position

/-- By a step a worker goes on with what it has: it takes nothing new, and its kernel succeeds. -/
def Step.GoesOn : Step → Prop
  | .take _ => False
  | .leave _ result => result = .ok ()
  | _ => True

variable {origin dispatch next : Dispatch} {first expanded position : Nat} {rank : Nat → Nat}
  {step : Step} {worker : Worker}

/-- What workers have done from one state to a later one, oldest first. -/
def deedsUntil (dispatch next : Dispatch) : List Observation :=
  ((next.journal.take (next.journal.length - dispatch.journal.length)).filter
    Observation.isDeed).reverse

theorem deedsUntil_eq {newer : List Observation}
    (grown : next.journal = newer ++ dispatch.journal) :
    dispatch.deedsUntil next = (newer.filter Observation.isDeed).reverse := by
  rw [deedsUntil, grown, List.take_left']
  rw [List.length_append, Nat.add_sub_cancel]

theorem deedsUntil_of_same (same : next.journal = dispatch.journal) :
    dispatch.deedsUntil next = [] :=
  deedsUntil_eq (same.trans (List.nil_append _).symm)

/-- A report that goes through is observed, with the assignments that it releases; one that does not
is observed as well, unless nobody receives it. -/
theorem journal_of_prime {source : Option Nat} {target : Nat} {piece : Chunk}
    {outcome : Except Fault Bool} (done : dispatch.prime source target piece = (outcome, next)) :
    (∃ released, next.journal = deliver dispatch.journal source target piece released) ∨
      (∃ fault, outcome = .error fault) ∧ next.journal = dispatch.journal := by
  unfold prime at done
  split at done
  case h_1 =>
    injection done with outcome_eq same
    exact Or.inr ⟨⟨_, outcome_eq.symm⟩, same ▸ rfl⟩
  case h_2 module found =>
    refine Or.inl ?_
    dsimp only at done
    split at done
    case h_1 fault assignments answered =>
      injection done with _ same
      exact ⟨[], same ▸ rfl⟩
    case h_2 released assignments answered =>
      obtain rfl : (enqueue _ _ _ _).2 = next := congrArg Prod.snd done
      unfold enqueue
      split
      case isTrue =>
        dsimp only
        split <;> exact ⟨[], rfl⟩
      case isFalse =>
        dsimp only
        split <;> exact ⟨released, rfl⟩

/-- A step leaves the other workers alone. -/
theorem Moves.others (moved : dispatch.Moves step next) (other : position ≠ step.position) :
    next.workers[position]? = dispatch.workers[position]? := by
  have apart {before : Dispatch} {worker : Worker}
      (here : before.workers[step.position]? = some worker) (activity : Activity) :
      (before.setActivity step.position activity).workers[position]? =
        before.workers[position]? := by
    rw [getElem?_setActivity here, if_neg other]
  cases moved with
  | took here => exact apart here _
  | dropped => rfl
  | entered here => exact apart here _
  | returned here => exact apart here _
  | @failed position worker chunk rest error here =>
      obtain ⟨workers_eq, -⟩ := fail_eq ((dispatch.observe (.returned worker.module chunk
        (.error error))).setActivity position .idle) worker.module error
      rw [workers_eq]
      exact apart here _
  | finished here => exact apart here _
  | passed here => exact apart here _
  | stopped here => exact apart here _
  | reported here next done =>
      have workers_eq := (primes_of_prime done).workers_eq
      exact (apart (workers_eq ▸ here) _).trans (congrArg (·[_]?) workers_eq)
  | crashed here next refused =>
      have workers_eq := (primes_of_prime refused).workers_eq
      exact (apart (workers_eq ▸ here) _).trans (congrArg (·[_]?) workers_eq)
  | departed here => exact apart here _

/-- A worker with what it has done so far, and with less before it. -/
structure Advances (dispatch next : Dispatch) (position : Nat) (worker there : Worker) : Prop where
  found : next.workers[position]? = some there
  module_eq : there.module = worker.module
  whole : ∃ rest, dispatch.deedsUntil next ++ rest = worker.activity.ahead worker.module ∧
    there.activity.Leaves worker.module rest
  fewer : there.activity.stepsLeft < worker.activity.stepsLeft

/-- A worker that changes its activity advances, if what is observed was the first thing before
it. -/
theorem advances (here : dispatch.workers[position]? = some worker) {activity : Activity}
    (newer : List Observation)
    (workers_eq : next.workers = (dispatch.setActivity position activity).workers)
    (grown : next.journal = newer ++ dispatch.journal)
    (whole : ∃ rest, (newer.filter Observation.isDeed).reverse ++ rest =
      worker.activity.ahead worker.module ∧ activity.Leaves worker.module rest)
    (fewer : activity.stepsLeft < worker.activity.stepsLeft) :
    ∃ there, Advances dispatch next position worker there := by
  refine ⟨{ worker with activity }, ?_, rfl, ?_, fewer⟩
  · rw [workers_eq, getElem?_setActivity here, if_pos rfl]
  · rw [deedsUntil_eq grown]
    exact whole

/-- A worker that reports advances, whether the report goes through or not. -/
theorem advances_of_prime (here : dispatch.workers[position]? = some worker) {target : Nat}
    {piece : Chunk} {rest : List Task} {outcome : Except Fault Bool} {primed : Dispatch}
    {activity : Activity} (asked : worker.activity = .working (.report target piece :: rest))
    (done : dispatch.prime (some worker.module) target piece = (outcome, primed))
    (leaves : activity.Leaves worker.module (rest.flatMap (Task.deeds worker.module)))
    (crashes : (∃ fault, outcome = .error fault) → ∃ fault, activity = .crashed fault)
    (fewer : activity.stepsLeft < worker.activity.stepsLeft) :
    ∃ there, Advances dispatch (primed.setActivity position activity) position worker there := by
  have workers_eq : (primed.setActivity position activity).workers =
      (dispatch.setActivity position activity).workers := by
    rw [setActivity, setActivity, (primes_of_prime done).workers_eq]
  have ahead_eq : worker.activity.ahead worker.module =
      .reported (some worker.module) target piece ::
        rest.flatMap (Task.deeds worker.module) := by
    rw [asked]
    rfl
  rcases journal_of_prime done with ⟨released, grown⟩ | ⟨refused, same⟩
  · -- What the report releases is observed with it, and is nothing that the worker does.
    refine advances here (released.reverse.map (.queued target) ++
      [.reported (some worker.module) target piece]) workers_eq ?_ ?_ fewer
    · exact grown.trans (List.append_cons _ _ _)
    · refine ⟨_, ?_, leaves⟩
      rw [ahead_eq, List.filter_append, List.filter_eq_nil_iff.mpr (by simp [Observation.isDeed])]
      rfl
  · exact advances here [] workers_eq same ⟨_, rfl, Or.inr (crashes refused)⟩ fewer

/-- **A worker that goes on does the first of what lies ahead of it**, as long as work goes on. -/
theorem Moves.advances (moved : dispatch.Moves step next) (goes_on : step.GoesOn)
    (running : next.terminated = false)
    (here : dispatch.workers[step.position]? = some worker) :
    ∃ there, Advances dispatch next step.position worker there := by
  cases moved with
  | took => exact goes_on.elim
  | dropped => exact goes_on.elim
  | @entered position same chunk rest found asked =>
      obtain rfl := Option.some.inj (found.symm.trans here)
      refine Dispatch.advances here [.called same.module chunk] rfl rfl ⟨_, ?_, Or.inl rfl⟩ ?_
      · rw [asked]
        rfl
      · simp [asked, Activity.stepsLeft, stepsIn]
        omega
  | @returned position same chunk rest found inside =>
      obtain rfl := Option.some.inj (found.symm.trans here)
      refine Dispatch.advances here [.returned same.module chunk (.ok ())] rfl rfl
        ⟨_, ?_, Or.inl rfl⟩ ?_
      · rw [inside]
        rfl
      · simp [inside, Activity.stepsLeft, stepsIn]
  | failed => cases goes_on
  | @finished position same found done =>
      obtain rfl := Option.some.inj (found.symm.trans here)
      refine Dispatch.advances here [] rfl rfl ⟨_, ?_, Or.inl rfl⟩ ?_
      · rw [done]
        rfl
      · simp [done, Activity.stepsLeft, stepsIn]
  | @passed position same rest found asked =>
      obtain rfl := Option.some.inj (found.symm.trans here)
      refine Dispatch.advances here [] rfl rfl ⟨_, ?_, Or.inl rfl⟩ ?_
      · rw [asked]
        rfl
      · simp [asked, Activity.stepsLeft, stepsIn]
  | stopped found asked ended => cases ended.symm.trans running
  | @reported position target same piece rest last primed found asked done =>
      obtain rfl := Option.some.inj (found.symm.trans here)
      refine advances_of_prime here asked done (Or.inl rfl) ?_ ?_
      · rintro ⟨fault, impossible⟩
        cases impossible
      · simp [asked, Activity.stepsLeft, stepsIn]
  | @crashed position target same piece rest fault primed found asked refused =>
      obtain rfl := Option.some.inj (found.symm.trans here)
      refine advances_of_prime here asked refused (Or.inr ⟨fault, rfl⟩) (fun _ => ⟨fault, rfl⟩) ?_
      simp [asked, Activity.stepsLeft, stepsIn]
  | @departed position same module found idle =>
      obtain rfl := Option.some.inj (found.symm.trans here)
      refine Dispatch.advances here [] rfl rfl ⟨_, ?_, Or.inl rfl⟩ ?_
      · rw [idle]
        rfl
      · simp [idle, Activity.stepsLeft, stepsIn]

/-- A worker that has met a fault takes no step. -/
theorem Moves.not_crashed (moved : dispatch.Moves step next)
    (here : dispatch.workers[step.position]? = some worker) {fault : Fault} :
    worker.activity ≠ .crashed fault := by
  intro struck
  have found_struck {same : Worker} (found : dispatch.workers[step.position]? = some same) :
      same.activity = .crashed fault :=
    Option.some.inj (found.symm.trans here) ▸ struck
  cases moved with
  | took found idle => cases idle.symm.trans (found_struck found)
  | dropped found idle => cases idle.symm.trans (found_struck found)
  | entered found asked => cases asked.symm.trans (found_struck found)
  | returned found inside => cases inside.symm.trans (found_struck found)
  | failed found inside => cases inside.symm.trans (found_struck found)
  | finished found done => cases done.symm.trans (found_struck found)
  | passed found asked => cases asked.symm.trans (found_struck found)
  | stopped found asked => cases asked.symm.trans (found_struck found)
  | reported found asked => cases asked.symm.trans (found_struck found)
  | crashed found asked => cases asked.symm.trans (found_struck found)
  | departed found idle => cases idle.symm.trans (found_struck found)

/-- A worker that has something in hand can go on. -/
theorem Staffed.exists_step (staffed : dispatch.Staffed)
    (here : dispatch.workers[position]? = some worker)
    (busy : ¬ (worker.activity = .idle ∨ worker.activity = .exited)) :
    ∃ step next, step.position = position ∧ step.GoesOn ∧ dispatch.step step = some next := by
  by_contra stuck
  have impossible (step : Step) (own : step.position = position) (goes_on : step.GoesOn) :
      dispatch.step step = none := by
    by_contra possible
    obtain ⟨next, stepped⟩ := Option.ne_none_iff_exists'.mp possible
    exact stuck ⟨step, next, own, goes_on, stepped⟩
  exact busy (staffed.idle_or_exited here (impossible _ rfl trivial) (impossible _ rfl rfl)
    (impossible _ rfl trivial))

end Dispatch

namespace Graph

/-! ## Runs -/

/-- Whether an event is a step of a worker. -/
def Event.isStepOf (position : Nat) : Event → Bool
  | .work step => step.position = position
  | _ => false

/-- What workers have done from one state of a graph to a later one, oldest first. -/
def deedsUntil (graph next : Graph) : List Observation :=
  match graph.dispatch, next.dispatch with
  | some before, some after => before.deedsUntil after
  | _, _ => []

/-- What is observed of one worker while events happen to a graph, oldest first. -/
def deedsOf (position : Nat) (graph : Graph) : List Event → List Observation
  | [] => []
  | event :: rest =>
      match graph.act event with
      | none => []
      | some next =>
          (if event.isStepOf position then graph.deedsUntil next else []) ++
            next.deedsOf position rest

/-- A worker of a graph has nothing in hand: it waits for work, or has gone. -/
def Unoccupied (graph : Graph) (position : Nat) : Prop :=
  ∃ dispatch worker, graph.dispatch = some dispatch ∧ dispatch.workers[position]? = some worker ∧
    (worker.activity = .idle ∨ worker.activity = .exited)

/-- A worker of a graph can come to have nothing in hand by its own steps. -/
def Finishes (graph : Graph) (position : Nat) : Prop :=
  ∃ steps : List Dispatch.Step, (∀ step ∈ steps, step.position = position ∧ step.GoesOn) ∧
    ∃ after, graph.play (steps.map .work) = some after ∧ after.isTerminated = false ∧
      after.Unoccupied position

variable {graph built after : Graph} {origin dispatch next : Dispatch}
  {first last position : Nat} {rank : Nat → Nat} {events later : List Event}
  {event : Event} {stage ended : GraphState} {worker : Worker}

theorem deedsOf_cons (dispatch_eq : graph.dispatch = some dispatch)
    (acted : graph.act event = some after) (next_eq : after.dispatch = some next) :
    graph.deedsOf position (event :: later) =
      (if event.isStepOf position then dispatch.deedsUntil next else []) ++
        after.deedsOf position later := by
  rw [deedsOf, acted]
  simp only [deedsUntil, dispatch_eq, next_eq]

/-- A step of a worker is one of its moves. -/
theorem moves_of_act (dispatch_eq : graph.dispatch = some dispatch)
    (acted : graph.act event = some after) (own : event.isStepOf position = true) :
    ∃ step next, event = .work step ∧ step.position = position ∧ after.dispatch = some next ∧
      dispatch.Moves step next := by
  cases event with
  | work step =>
      rw [act, dispatch_eq] at acted
      obtain ⟨next, stepped, rfl⟩ := Option.map_eq_some_iff.mp acted
      exact ⟨step, next, rfl, of_decide_eq_true own, rfl, Dispatch.moves_of_step stepped⟩
  | _ => cases own

/-- A graph that works, with its first module. -/
structure Operates (graph : Graph) (first : Nat) (dispatch : Dispatch) : Prop where
  dispatch_eq : graph.dispatch = some dispatch
  entrance : graph.wiring.first = some first
  working : Working first graph.state dispatch

namespace Operates

/-- An event that goes through keeps a graph working.  It does not take back termination, and no
worker is lost. -/
theorem act (operates : graph.Operates first dispatch) (acted : graph.act event = some after) :
    ∃ next, after.Operates first next ∧ (dispatch.terminated = true → next.terminated = true) ∧
      dispatch.workers.size ≤ next.workers.size := by
  have changes := Changes.of_event operates.dispatch_eq operates.entrance event
  rw [attempt, acted] at changes
  obtain ⟨next, next_eq, entrance, change⟩ := changes
  refine ⟨next, ⟨next_eq, entrance, change.working operates.working⟩, ?_⟩
  rcases change.evolves with evolves | ⟨linked, rfl⟩
  · have same := congrArg List.length evolves.roster_eq
    simp only [Dispatch.roster, List.length_map, Array.length_toList] at same
    exact ⟨evolves.ends, same.ge⟩
  · rw [(operates.working.early (Or.inr linked)).1]
    exact ⟨id, Nat.zero_le _⟩

/-- So does a play. -/
theorem play (operates : graph.Operates first dispatch)
    (played : graph.play later = some after) :
    ∃ next, after.Operates first next ∧ (dispatch.terminated = true → next.terminated = true) ∧
      dispatch.workers.size ≤ next.workers.size := by
  induction later generalizing graph dispatch with
  | nil =>
      injection played with same
      exact ⟨dispatch, same ▸ operates, id, Nat.le_refl _⟩
  | cons event later ih =>
      obtain ⟨middle, acted, played⟩ := Option.bind_eq_some_iff.mp played
      obtain ⟨between, operating, ends, keeps⟩ := operates.act acted
      obtain ⟨next, lasting, still_ends, still_keeps⟩ := ih operating played
      exact ⟨next, lasting, still_ends ∘ ends, keeps.trans still_keeps⟩

/-- What goes on at the end of a play has gone on before. -/
theorem running (operates : graph.Operates first dispatch)
    (played : graph.play later = some after) (going : after.isTerminated = false) :
    dispatch.terminated = false := by
  obtain ⟨next, lasting, ends, -⟩ := operates.play played
  rw [isTerminated_eq lasting.dispatch_eq] at going
  by_contra ended
  rw [ends (by simpa using ended)] at going
  cases going

/-- An event that is no step of a worker leaves it alone. -/
theorem others (operates : graph.Operates first dispatch) (acted : graph.act event = some after)
    (here : dispatch.workers[position]? = some worker) (other : event.isStepOf position = false)
    (next_eq : after.dispatch = some next) : next.workers[position]? = some worker := by
  obtain ⟨dispatch_eq, -, working⟩ := operates
  cases acts_of_act dispatch_eq acted with
  | kept | linked =>
      obtain rfl := Option.some.inj (dispatch_eq.symm.trans next_eq)
      exact here
  | started linked =>
      -- A graph that is only linked has no workers.
      rw [(working.early (Or.inr linked)).1] at here
      cases here
  | sent done =>
      injection next_eq with same
      rw [← same, (Dispatch.primes_of_prime done).workers_eq, here]
  | worked moved =>
      injection next_eq with same
      rw [← same, moved.others (fun own => ?_), here]
      simp [Event.isStepOf, own] at other
  | collected =>
      injection next_eq with same
      rw [← same]
      exact here
  | killed =>
      injection next_eq with same
      obtain ⟨workers_eq, -⟩ := dispatch.terminate_eq
      rw [← same]
      exact (congrArg (·[position]?) workers_eq).trans here

/-- A worker that has met a fault stays where it is. -/
theorem stays_crashed (operates : graph.Operates first dispatch)
    (here : dispatch.workers[position]? = some worker) {fault : Fault}
    (struck : worker.activity = .crashed fault) (played : graph.play later = some after) :
    ∃ next, after.Operates first next ∧ next.workers[position]? = some worker ∧
      graph.deedsOf position later = [] := by
  induction later generalizing graph dispatch with
  | nil =>
      injection played with same
      subst same
      exact ⟨dispatch, operates, here, rfl⟩
  | cons event later ih =>
      obtain ⟨middle, acted, continued⟩ := Option.bind_eq_some_iff.mp played
      obtain ⟨between, operating, -⟩ := operates.act acted
      rw [deedsOf_cons operates.dispatch_eq acted operating.dispatch_eq]
      cases own : event.isStepOf position with
      | false => exact ih operating (operates.others acted here own operating.dispatch_eq) continued
      | true =>
          obtain ⟨step, next, -, rfl, -, moved⟩ := moves_of_act operates.dispatch_eq acted own
          exact absurd struck (moved.not_crashed here)

/-- **What has been observed of a worker, and what lies ahead of it, are together the same at all
times**, whatever else happens, as long as it goes on and nothing ends the work. -/
theorem carries_on (operates : graph.Operates first dispatch)
    (here : dispatch.workers[position]? = some worker) (played : graph.play later = some after)
    (goes_on : ∀ step, .work step ∈ later → step.position = position → step.GoesOn)
    (going : after.isTerminated = false) :
    ∃ next there rest, after.Operates first next ∧ next.workers[position]? = some there ∧
      graph.deedsOf position later ++ rest = worker.activity.ahead worker.module ∧
      there.activity.Leaves worker.module rest := by
  induction later generalizing graph dispatch worker with
  | nil =>
      injection played with same
      subst same
      exact ⟨dispatch, worker, _, operates, here, rfl, Or.inl rfl⟩
  | cons event later ih =>
      obtain ⟨middle, acted, continued⟩ := Option.bind_eq_some_iff.mp played
      obtain ⟨between, operating, -⟩ := operates.act acted
      have still : ∀ step, .work step ∈ later → step.position = position → step.GoesOn :=
        fun step member => goes_on step (List.mem_cons_of_mem event member)
      rw [deedsOf_cons operates.dispatch_eq acted operating.dispatch_eq]
      cases own : event.isStepOf position with
      | false =>
          exact ih operating (operates.others acted here own operating.dispatch_eq) continued still
      | true =>
          obtain ⟨step, next, rfl, rfl, next_eq, moved⟩ :=
            moves_of_act operates.dispatch_eq acted own
          obtain rfl := Option.some.inj (operating.dispatch_eq.symm.trans next_eq)
          obtain ⟨there, advanced⟩ := moved.advances (goes_on step List.mem_cons_self rfl)
            (operating.running continued going) here
          obtain ⟨ahead, whole, leaves⟩ := advanced.whole
          simp only [if_true]
          rcases leaves with rfl | ⟨fault, struck⟩
          · obtain ⟨next, last, rest, lasting, found, more, leaves⟩ :=
              ih operating advanced.found continued still
            rw [advanced.module_eq] at more leaves
            exact ⟨next, last, rest, lasting, found, by rw [List.append_assoc, more, whole], leaves⟩
          · -- A worker that has met a fault does nothing more.
            obtain ⟨next, lasting, found, nothing⟩ :=
              operating.stays_crashed advanced.found struck continued
            exact ⟨next, there, ahead, lasting, found,
              by rw [nothing, List.append_nil, whole], Or.inr ⟨fault, struck⟩⟩

end Operates

/-- **A worker that goes on comes to an end**, if nothing ends the work before. -/
theorem Reached.finishes (building : Built built origin first last rank)
    (reached : Reached built origin first events graph dispatch)
    (here : dispatch.workers[position]? = some worker) (running : dispatch.terminated = false) :
    graph.Finishes position := by
  -- By induction on the steps that the worker has left, of which each one spends some.
  induction left : worker.activity.stepsLeft using Nat.strong_induction_on
    generalizing events graph dispatch worker with
  | _ left ih =>
      subst left
      by_cases unoccupied : worker.activity = .idle ∨ worker.activity = .exited
      · refine ⟨[], by simp, graph, rfl, ?_, dispatch, worker, reached.dispatch_eq, here,
          unoccupied⟩
        rw [isTerminated, reached.dispatch_eq]
        exact running
      · obtain ⟨step, next, rfl, goes_on, stepped⟩ :=
          reached.sound.staffed.exists_step here unoccupied
        have moved := Dispatch.moves_of_step stepped
        have calm : (Event.work step).Calm := by
          cases step with
          | leave position result => exact goes_on
          | _ => trivial
        have still : next.terminated = false :=
          (moved.calm reached.sound building.laid calm).1.trans running
        obtain ⟨there, advanced⟩ := moved.advances goes_on still here
        have acted : graph.act (.work step) = some { graph with dispatch := some next } := by
          rw [act, reached.dispatch_eq, Option.bind_some, stepped]
          rfl
        have arrived : Reached built origin first (events ++ [.work step])
            { graph with dispatch := some next } next :=
          reached.go building.laid rfl rfl (.worked moved)
        obtain ⟨steps, own, after, played, going, done⟩ :=
          ih _ advanced.fewer arrived advanced.found still rfl
        refine ⟨step :: steps, List.forall_mem_cons.mpr ⟨⟨rfl, goes_on⟩, own⟩, after, ?_, going,
          done⟩
        rw [List.map_cons, play, acted]
        exact played

/-! ## The law -/

/-- A worker of a built graph has taken an assignment by the first of some events, and works on it
since.  What has been observed of it up to now is the first part of what carries the assignment out,
and all of it when the worker has nothing more in hand. -/
structure AtWork (built before after : Graph) (later : List Event) (position id : Nat)
    (module : Module) (chunk : Chunk) : Prop where
  planned : ∃ origin, built.dispatch = some origin ∧ origin.modules[id]? = some module
  taken : ∃ dispatch worker now, before.dispatch = some dispatch ∧
    dispatch.workers[position]? = some worker ∧ worker.module = id ∧
    dispatch.modules[id]? = some now ∧ now.queue.chunks.head? = some chunk
  assigned : chunk.OnGrid module.assignmentSize built.expandedSize
  carried_out : module.CarriesOut id chunk (module.deeds id chunk)
  so_far : before.deedsOf position later <+: module.deeds id chunk
  whole : after.Unoccupied position → before.deedsOf position later = module.deeds id chunk

/-- Taking an assignment is no deed, and what comes later happens to the worker that has it. -/
theorem Operates.atWork {before : Graph} (operates : before.Operates first dispatch)
    (played : before.play (.work (.take position) :: later) = some after)
    (goes_on : ∀ step, .work step ∈ later → step.position = position → step.GoesOn)
    (going : after.isTerminated = false) (built_eq : built.dispatch = some origin)
    (cuts : ∀ (id : Nat) module, origin.modules[id]? = some module → module.Cuts)
    (confined : Confined origin built.expandedSize before) :
    ∃ id module chunk,
      AtWork built before after (.work (.take position) :: later) position id module chunk := by
  have running := operates.running played going
  obtain ⟨taken, acted, continued⟩ := Option.bind_eq_some_iff.mp played
  obtain ⟨between, operating, -⟩ := operates.act acted
  have own : (Event.work (.take position)).isStepOf position = true := decide_eq_true rfl
  obtain ⟨step, next, same, -, next_eq, moved⟩ := moves_of_act operates.dispatch_eq acted own
  obtain rfl : .take position = step := Event.work.inj same
  obtain rfl := Option.some.inj (operating.dispatch_eq.symm.trans next_eq)
  cases moved with
  | dropped _ _ _ _ ended => cases ended.symm.trans running
  | @took _ worker now chunk rest here idle found waiting =>
      obtain ⟨current, current_eq, kept⟩ := confined.running
      obtain rfl : dispatch = current :=
        Option.some.inj (operates.dispatch_eq.symm.trans current_eq)
      obtain ⟨in_batch, module, planned, alike⟩ := kept.modules worker.module now found
      have assigned := in_batch.waiting chunk (waiting ▸ List.mem_cons_self)
      rw [alike.unit_eq] at assigned
      -- The worker that has taken the assignment has all of it ahead.
      have working := Dispatch.getElem?_setActivity here (.working (now.tasks chunk)) position
      rw [if_pos rfl] at working
      obtain ⟨last, there, left, lasting, there_found, whole, leaves⟩ :=
        operating.carries_on working continued goes_on going
      replace whole : taken.deedsOf position later ++ left = module.deeds worker.module chunk :=
        whole.trans (by rw [Module.deeds, ← alike.tasks_eq]; rfl)
      have deeds_eq : before.deedsOf position (.work (.take position) :: later) =
          taken.deedsOf position later := by
        rw [deedsOf_cons operates.dispatch_eq acted operating.dispatch_eq, if_pos own,
          Dispatch.deedsUntil_of_same, List.nil_append]
        rfl
      have carried_out := module.carriesOut_deeds (cuts worker.module module planned)
        assigned.length_eq worker.module
      have first_waiting : now.queue.chunks.head? = some chunk := by rw [waiting, List.head?_cons]
      refine ⟨worker.module, module, chunk, ⟨origin, built_eq, planned⟩,
        ⟨dispatch, worker, now, operates.dispatch_eq, here, rfl, found, first_waiting⟩,
        assigned, carried_out, ?_, ?_⟩
      · exact ⟨_, by rw [deeds_eq, whole]⟩
      · rintro ⟨_, _, last_eq, same_found, unoccupied⟩
        obtain rfl := Option.some.inj (lasting.dispatch_eq.symm.trans last_eq)
        obtain rfl := Option.some.inj (there_found.symm.trans same_found)
        -- Who has nothing in hand has nothing ahead.
        have nothing : left = [] := by
          rcases unoccupied with idle | exited
          · simpa [idle, Activity.Leaves, Activity.ahead] using leaves
          · simpa [exited, Activity.Leaves, Activity.ahead] using leaves
        rw [deeds_eq, ← whole, nothing, List.append_nil]

/-- **Chunks are cut without a gap, and worked on in pieces that fit.**  The iterator over any chunk
yields, for any size, consecutive pieces that make up the chunk, of that size but for the last.  A
worker that has taken an assignment, in any play of a wired graph, and whose kernel succeeds calls
it on even ranges of the call size and reports even pieces of the chunk size to each output, in
ascending order and each piece behind the returns on its slots, whatever else happens to the graph
short of ending its work.  And it can always finish, if a word can count the inputs of every
module. -/
theorem worked_in_pieces (chunk : Chunk) (size : Nat) :
    ((chunk.splits size).drain = .ok (chunk.pieces size) ∧
      chunk.IsCut (max size 1) (chunk.pieces size)) ∧
    ∀ {graph built before after : Graph} {batch position : Nat} {earlier later : List Event},
      graph.Wired → graph.build batch = .ok built → built.play earlier = some before →
      before.play (.work (.take position) :: later) = some after →
      (∀ step, .work step ∈ later → step.position = position → step.GoesOn) →
      after.isTerminated = false →
      (∃ id module chunk,
        AtWork built before after (.work (.take position) :: later) position id module chunk) ∧
      ((∀ module, (graph.wiring.inputsOf module).length < Word.limit 32) →
        after.Finishes position) := by
  constructor
  · refine ⟨chunk.drain_splits size, ?_⟩
    rw [← chunk.pieces_max]
    exact chunk.isCut_pieces (Nat.le_max_right size 1)
  · intro graph built before after batch position earlier later wired done reaching played goes_on
      going
    obtain ⟨first, start, start_eq, entrance, working⟩ := build_working wired.valid.1 done
    obtain ⟨origin, origin_eq, confined⟩ := confined_of_build done
    have operates : built.Operates first start := ⟨start_eq, entrance, working⟩
    obtain ⟨dispatch, operating, -⟩ := operates.play reaching
    have atWork := operating.atWork played goes_on going origin_eq
      (fun id module found => cuts_of_build wired done origin_eq found) (confined.play reaching)
    refine ⟨atWork, fun few => ?_⟩
    -- The worker that has taken the assignment is still there.
    obtain ⟨id, module, chunk, pieces⟩ := atWork
    obtain ⟨same, worker, now, same_eq, here, -⟩ := pieces.taken
    obtain rfl := Option.some.inj (operating.dispatch_eq.symm.trans same_eq)
    obtain ⟨next, lasting, -, keeps⟩ := operating.play played
    obtain ⟨inside, -⟩ := Array.getElem?_eq_some_iff.mp here
    have there := Array.getElem?_eq_getElem (Nat.lt_of_lt_of_le inside keeps)
    obtain ⟨-, origin, first, last, rank, building⟩ := build_built wired few done
    have through : built.play (earlier ++ .work (.take position) :: later) = some after := by
      rw [play_append, reaching]
      exact played
    obtain ⟨ended, reached⟩ := reached_of_play building through
    obtain rfl := Option.some.inj (lasting.dispatch_eq.symm.trans reached.dispatch_eq)
    rw [isTerminated_eq lasting.dispatch_eq] at going
    exact reached.finishes building there going

theorem worked_in_pieces_sample : front.IsCut 2 (front.pieces 2) ∧ ∃ before after,
    sampleBuilt.play [.link (.create ⟨7, 2⟩ 4 4), .start, .send front] = some before ∧
    before.play ((sampleWork 0).map .work) = some after ∧ after.isTerminated = false ∧
    (∃ id module chunk,
      AtWork sampleBuilt before after ((sampleWork 0).map .work) 0 id module chunk) ∧
    after.Finishes 0 := by
  have plays : ((sampleBuilt.play [.link (.create ⟨7, 2⟩ 4 4), .start, .send front]).bind
      (·.play ((sampleWork 0).map .work))).any (!·.isTerminated) = true := by
    decide +kernel
  obtain ⟨after, played, going⟩ := (Option.any_eq_true _ _).mp plays
  obtain ⟨before, reaching, played⟩ := Option.bind_eq_some_iff.mp played
  rw [Bool.not_eq_true'] at going
  have goes_on : ∀ step, Event.work step ∈ (sampleWork 0).tail.map .work → step.position = 0 →
      step.GoesOn := by
    have each : ∀ step ∈ (sampleWork 0).tail, step.GoesOn := by
      simp [sampleWork, Dispatch.Step.GoesOn]
    rintro step member -
    obtain ⟨asked, asked_mem, same⟩ := List.mem_map.mp member
    exact Event.work.inj same ▸ each asked asked_mem
  obtain ⟨⟨-, cut⟩, worked⟩ := worked_in_pieces front 2
  obtain ⟨atWork, finishes⟩ := worked sample_wired sample_build reaching played goes_on going
  exact ⟨cut, before, after, reaching, played, going, atWork, finishes sample_few⟩

end Graph

end Mixnet
