import Mixnet.Proofs.Output

/-!
# What no step undoes, and what comes to an end

Steps of workers never reopen a queue, and take back neither completion nor termination.  Once work
has been ended nothing comes in any more: queues only get shorter, and every worker is left with
what it had in hand.  None of this depends on the accounting, so it holds of reports that fault,
too.

## Main definitions

* `Dispatch.Primes`: the ways a report can go, whatever the accounting says
* `Dispatch.Evolves`: what no step undoes
* `Dispatch.Ended`: work has been ended
* `Dispatch.Dwindles`: nothing comes in

## Main statements

* `Dispatch.primes_of_prime`: a report goes one of these ways
* `Dispatch.Moves.evolves`: no step undoes any of this
* `Dispatch.Moves.dwindles`: after termination nothing comes in
-/

namespace Mixnet

open Journal

/-! ## Reports -/

namespace Dispatch

variable {dispatch before between after : Dispatch} {source : Option Nat} {target : Nat}
  {piece : Chunk} {outcome : Except Fault Bool}

/-- The ways a report can go, whatever the accounting says. -/
inductive Primes (dispatch : Dispatch) (source : Option Nat) (target : Nat) (piece : Chunk) :
    Dispatch → Prop
  /-- Nobody receives it. -/
  | missed : Primes dispatch source target piece dispatch
  /-- It is counted, and nothing is queued. -/
  | counted {module : Module} {assignments : AssignmentList}
      (found : dispatch.modules[target]? = some module) :
      Primes dispatch source target piece
        ((dispatch.observe (.reported source target piece)).setModule target
          { module with assignments })
  /-- Assignments are put into a queue that is open.  The last ones close it, and those of the sink
  complete the graph. -/
  | queued {module : Module} {assignments : AssignmentList} {released : List Chunk}
      {closed complete : Bool} (found : dispatch.modules[target]? = some module)
      (opened : module.queue.closed = false)
      (completes : complete = true → dispatch.complete ∨ target = dispatch.sink)
      (stays : dispatch.complete = true → complete = true) :
      Primes dispatch source target piece
        { (dispatch.observe (.reported source target piece)).observeQueued target released with
          modules := dispatch.modules.setIfInBounds target { module with
            assignments, queue := { module.queue with
              chunks := module.queue.chunks ++ released, closed } }
          complete }

/-- **A report goes one of these ways**, whether it faults or not. -/
theorem primes_of_prime (done : dispatch.prime source target piece = (outcome, after)) :
    dispatch.Primes source target piece after := by
  obtain rfl : (dispatch.prime source target piece).2 = after := by rw [done]
  clear done
  unfold prime
  cases found : dispatch.modules[target]? with
  | none => exact .missed
  | some module =>
      dsimp only
      cases accounted : module.assignments.prime piece with
      | mk answer assignments =>
          cases answer with
          | error fault => exact .counted found
          | ok released =>
              dsimp only
              unfold enqueue
              split
              case isTrue =>
                -- A closed queue takes nothing.
                dsimp only
                split <;> exact .counted found
              case isFalse takes =>
                cases released with
                | nil =>
                    -- Nothing is released, so that nothing is counted as queued.
                    have same : ({ module.queue with chunks := module.queue.chunks ++ [] } :
                        ChunkQueue) = module.queue := by rw [List.append_nil]
                    simp only [List.length_nil, AssignmentList.complete, if_true, same]
                    exact .counted found
                | cons first rest =>
                    have opened : module.queue.closed = false := by simpa using takes
                    dsimp only
                    split
                    · refine .queued found opened (fun done => ?_) (fun done => ?_)
                      · rw [Bool.or_eq_true, decide_eq_true_eq] at done
                        exact done
                      · rw [Bool.or_eq_true]
                        exact Or.inl done
                    · exact .queued found opened Or.inl id

/-! ## What no step undoes -/

/-- Work has been ended: it will not be completed, and every queue is closed. -/
structure Ended (dispatch : Dispatch) : Prop where
  terminated : dispatch.terminated = true
  incomplete : dispatch.complete = false
  closed : ∀ (id : Nat) module, dispatch.modules[id]? = some module → module.queue.closed = true

/-- Termination has closed every queue of a graph that was not complete. -/
def Settled (dispatch : Dispatch) : Prop := dispatch.terminated = true → dispatch.Ended

/-- A later state of the same modules and workers: no queue has been opened again, and neither
completion nor termination has been taken back. -/
structure Evolves (before after : Dispatch) : Prop where
  sink_eq : after.sink = before.sink
  roster_eq : after.roster = before.roster
  size_eq : after.modules.size = before.modules.size
  modules : ∀ (id : Nat) module, after.modules[id]? = some module →
    ∃ former, before.modules[id]? = some former ∧ module.threads = former.threads
  completes : before.complete = true → after.complete = true
  ends : before.terminated = true → after.terminated = true
  settles : before.Settled → after.Settled

namespace Evolves

theorem refl (dispatch : Dispatch) : Evolves dispatch dispatch :=
  ⟨rfl, rfl, rfl, fun _ module found => ⟨module, found, rfl⟩, id, id, id⟩

theorem trans (first : before.Evolves between) (second : between.Evolves after) :
    before.Evolves after := by
  refine ⟨second.sink_eq.trans first.sink_eq, second.roster_eq.trans first.roster_eq,
    second.size_eq.trans first.size_eq, ?_, second.completes ∘ first.completes,
    second.ends ∘ first.ends, second.settles ∘ first.settles⟩
  intro id module found
  obtain ⟨middle, middle_found, threads_eq⟩ := second.modules id module found
  obtain ⟨former, former_found, former_threads⟩ := first.modules id middle middle_found
  exact ⟨former, former_found, threads_eq.trans former_threads⟩

/-- A state that differs in its journal, and in what its workers do. -/
theorem of_same (sink_eq : after.sink = before.sink) (roster_eq : after.roster = before.roster)
    (modules_eq : after.modules = before.modules) (complete_eq : after.complete = before.complete)
    (terminated_eq : after.terminated = before.terminated) : before.Evolves after := by
  refine ⟨sink_eq, roster_eq, by rw [modules_eq], ?_, complete_eq ▸ id, terminated_eq ▸ id, ?_⟩
  · intro id module found
    exact ⟨module, modules_eq ▸ found, rfl⟩
  · intro settled ended
    obtain ⟨terminated, incomplete, closed⟩ := settled (terminated_eq ▸ ended)
    exact ⟨ended, complete_eq ▸ incomplete, modules_eq ▸ closed⟩

/-- A module that keeps its places is put for another, and its queue is open only if that one
was. -/
theorem setModule {id : Nat} {module next : Module}
    (found : before.modules[id]? = some module) (threads_eq : next.threads = module.threads)
    (closed : module.queue.closed = true → next.queue.closed = true) :
    before.Evolves (before.setModule id next) := by
  refine ⟨rfl, rfl, Array.size_setIfInBounds, ?_, fun complete => complete, fun ended => ended, ?_⟩
  · intro other there there_found
    rcases of_getElem?_setIfInBounds found there_found with ⟨rfl, rfl⟩ | ⟨-, there_found⟩
    · exact ⟨module, found, threads_eq⟩
    · exact ⟨there, there_found, rfl⟩
  · intro settled ended
    refine ⟨ended, (settled ended).incomplete, ?_⟩
    intro other there there_found
    rcases of_getElem?_setIfInBounds found there_found with ⟨rfl, rfl⟩ | ⟨-, there_found⟩
    · exact closed ((settled ended).closed other module found)
    · exact (settled ended).closed other there there_found

theorem setActivity (position : Nat) (activity : Activity) :
    before.Evolves (before.setActivity position activity) :=
  of_same rfl (roster_setActivity position activity) rfl rfl rfl

theorem terminate (dispatch : Dispatch) : dispatch.Evolves dispatch.terminate.2 := by
  unfold Dispatch.terminate
  split
  case isTrue => exact refl dispatch
  case isFalse going =>
    rw [Bool.or_eq_true, not_or, Bool.not_eq_true] at going
    refine ⟨rfl, rfl, Array.size_map, ?_, fun complete => complete, fun _ => rfl, ?_⟩
    · intro id module found
      rw [Array.getElem?_map] at found
      obtain ⟨former, former_found, rfl⟩ := Option.map_eq_some_iff.mp found
      exact ⟨former, former_found, rfl⟩
    · intro _ _
      refine ⟨rfl, going.1, ?_⟩
      intro id module found
      rw [Array.getElem?_map] at found
      obtain ⟨former, -, rfl⟩ := Option.map_eq_some_iff.mp found
      rfl

end Evolves

/-- Work that is not complete can be ended. -/
theorem terminated_of_terminate (incomplete : dispatch.complete = false) :
    dispatch.terminate.2.terminated = true := by
  unfold terminate
  split
  case isTrue is_over => rwa [incomplete, Bool.false_or] at is_over
  case isFalse => rfl

theorem Primes.evolves (primes : dispatch.Primes source target piece after) :
    dispatch.Evolves after := by
  cases primes with
  | missed => exact .refl dispatch
  | counted found =>
      have seen : dispatch.Evolves (dispatch.observe (.reported source target piece)) :=
        .of_same rfl rfl rfl rfl rfl
      exact seen.trans (.setModule found rfl id)
  | @queued module _ _ _ complete found opened completes stays =>
      refine ⟨rfl, rfl, Array.size_setIfInBounds, ?_, stays, fun ended => ended, ?_⟩
      · intro other there there_found
        rcases of_getElem?_setIfInBounds found there_found with ⟨rfl, rfl⟩ | ⟨-, there_found⟩
        · exact ⟨module, found, rfl⟩
        · exact ⟨there, there_found, rfl⟩
      · -- An open queue shows that nothing has been ended.
        intro settled ended
        have closed := (settled ended).closed target module found
        rw [opened] at closed
        cases closed

theorem fail_evolves (dispatch : Dispatch) (module : Nat) (error : KernelError) :
    dispatch.Evolves (dispatch.fail module error) := by
  have recorded : dispatch.Evolves { dispatch with
      failure := dispatch.failure.or (some { module := dispatch.moduleName module, error }) } :=
    .of_same rfl rfl rfl rfl rfl
  exact recorded.trans (.terminate _)

/-- **No step opens a queue again**, or takes back completion or termination. -/
theorem Moves.evolves {step : Step} (moved : dispatch.Moves step after) :
    dispatch.Evolves after := by
  cases moved with
  | @took position worker module chunk rest here idle found waiting running =>
      have emptied : dispatch.Evolves
          (dispatch.setModule worker.module (module.withWaiting rest)) := .setModule found rfl id
      exact emptied.trans (.setActivity _ _)
  | dropped here idle found waiting ended => exact .setModule found rfl id
  | entered =>
      exact .of_same rfl (roster_setActivity _ _) rfl rfl rfl
  | returned =>
      exact .of_same rfl (roster_setActivity _ _) rfl rfl rfl
  | failed here inside =>
      refine Evolves.trans ?_ (fail_evolves _ _ _)
      exact .of_same rfl (roster_setActivity _ _) rfl rfl rfl
  | finished | passed | stopped | departed => exact .setActivity _ _
  | reported here next done =>
      exact (primes_of_prime done).evolves.trans (.setActivity _ _)
  | crashed here next refused =>
      exact (primes_of_prime refused).evolves.trans (.setActivity _ _)

end Dispatch

/-! ## What comes to an end -/

/-- The tasks that a worker has still to do. -/
def Activity.left : Activity → List Task
  | .working tasks => tasks
  | .calling _ tasks => tasks
  | _ => []

/-- Neither a call begins nor does work come in. -/
def Observation.Quiet : Observation → Prop
  | .called _ _ => False
  | .queued _ _ => False
  | _ => True

namespace Dispatch

variable {dispatch before between after : Dispatch} {source : Option Nat} {target : Nat}
  {piece : Chunk}

/-- Nothing comes in: no queue gains a chunk, and workers do what they had in hand. -/
structure Dwindles (before after : Dispatch) : Prop where
  waiting : ∀ id, after.waiting id <:+ before.waiting id
  queued : ∀ id, queuedOn after.journal id = queuedOn before.journal id
  hands : ∀ (position : Nat) worker, after.workers[position]? = some worker →
    ∃ former, before.workers[position]? = some former ∧ worker.module = former.module ∧
      worker.activity.left <:+ former.activity.left
  calls : ∃ entered, after.calls = before.calls ++ entered ∧ ∀ call ∈ entered,
    ∃ worker ∈ before.workers, worker.module = call.1 ∧ .call call.2 ∈ worker.activity.left

namespace Dwindles

theorem refl (dispatch : Dispatch) : Dwindles dispatch dispatch := by
  refine ⟨fun _ => List.suffix_rfl, fun _ => rfl, ?_, [], (List.append_nil _).symm, ?_⟩
  · intro position worker found
    exact ⟨worker, found, rfl, List.suffix_rfl⟩
  · intro call none
    cases none

theorem trans (first : before.Dwindles between) (second : between.Dwindles after) :
    before.Dwindles after := by
  obtain ⟨entered, calls_eq, held⟩ := first.calls
  obtain ⟨later, later_eq, later_held⟩ := second.calls
  refine ⟨fun id => (second.waiting id).trans (first.waiting id),
    fun id => (second.queued id).trans (first.queued id), ?_, entered ++ later, ?_, ?_⟩
  · intro position worker found
    obtain ⟨middle, middle_found, module_eq, less⟩ := second.hands position worker found
    obtain ⟨former, former_found, former_eq, more⟩ := first.hands position middle middle_found
    exact ⟨former, former_found, module_eq.trans former_eq, less.trans more⟩
  · rw [later_eq, calls_eq, List.append_assoc]
  · intro call member
    rcases List.mem_append.mp member with early | late
    · exact held call early
    · -- What is in hand later was in hand before.
      obtain ⟨worker, worker_mem, module_eq, inside⟩ := later_held call late
      obtain ⟨position, found⟩ := Array.mem_iff_getElem?.mp worker_mem
      obtain ⟨former, former_found, former_eq, less⟩ := first.hands position worker found
      exact ⟨former, Array.mem_of_getElem? former_found, former_eq ▸ module_eq,
        less.subset inside⟩

/-- A state that differs in nothing that counts here. -/
theorem of_same (waiting_eq : after.waiting = before.waiting)
    (queued_eq : ∀ id, queuedOn after.journal id = queuedOn before.journal id)
    (workers_eq : after.workers = before.workers) (calls_eq : after.calls = before.calls) :
    before.Dwindles after := by
  refine ⟨fun id => ?_, queued_eq, ?_, [], ?_, ?_⟩
  · rw [waiting_eq]
  · intro position worker found
    exact ⟨worker, workers_eq ▸ found, rfl, List.suffix_rfl⟩
  · rw [calls_eq, List.append_nil]
  · intro call none
    cases none

theorem setModule {id : Nat} {module next : Module} (found : before.modules[id]? = some module)
    (fewer : next.queue.chunks <:+ module.queue.chunks) :
    before.Dwindles (before.setModule id next) := by
  refine ⟨?_, fun _ => rfl, fun _ worker there => ⟨worker, there, rfl, List.suffix_rfl⟩, [],
    (List.append_nil _).symm, ?_⟩
  · intro other
    rw [waiting_setModule found]
    split
    case isTrue same => rwa [same, waiting_eq found]
    case isFalse => exact List.suffix_rfl
  · intro call none
    cases none

theorem setActivity {position : Nat} {worker : Worker} {activity : Activity}
    (here : before.workers[position]? = some worker)
    (less : activity.left <:+ worker.activity.left) :
    before.Dwindles (before.setActivity position activity) := by
  refine ⟨fun _ => List.suffix_rfl, fun _ => rfl, ?_, [], (List.append_nil _).symm, ?_⟩
  · intro other there found
    rcases of_getElem?_setActivity here found with ⟨rfl, rfl⟩ | ⟨-, found⟩
    · exact ⟨worker, here, rfl, less⟩
    · exact ⟨there, found, rfl, List.suffix_rfl⟩
  · intro call none
    cases none

theorem observe (observation : Observation) (quiet : observation.Quiet) :
    before.Dwindles (before.observe observation) := by
  refine .of_same rfl ?_ rfl ?_
  · intro id
    show queuedOn (observation :: before.journal) id = _
    rw [queuedOn_cons]
    cases observation with
    | called | queued => cases quiet
    | returned | reported => rfl
  · unfold Dispatch.calls Dispatch.observe
    rw [List.reverse_cons, List.filterMap_append]
    cases observation with
    | called | queued => cases quiet
    | returned | reported => exact List.append_nil _

/-- A call that begins was in hand. -/
theorem called {position : Nat} {worker : Worker} {chunk : Chunk} {rest : List Task}
    (here : before.workers[position]? = some worker)
    (next : worker.activity = .working (.call chunk :: rest)) :
    before.Dwindles (before.observe (.called worker.module chunk)) := by
  refine ⟨fun _ => List.suffix_rfl, ?_, fun _ worker found => ⟨worker, found, rfl, List.suffix_rfl⟩,
    [(worker.module, chunk)], ?_, ?_⟩
  · intro id
    show queuedOn (.called worker.module chunk :: before.journal) id = _
    simp
  · simp [Dispatch.calls, Dispatch.observe]
  · intro call member
    obtain rfl := List.mem_singleton.mp member
    refine ⟨worker, Array.mem_of_getElem? here, rfl, ?_⟩
    rw [next]
    exact List.mem_cons_self

end Dwindles

/-- Reports change nothing about workers. -/
theorem Primes.workers_eq (primes : dispatch.Primes source target piece after) :
    after.workers = dispatch.workers := by
  cases primes <;> rfl

/-- Only a report to the sink completes a graph, and no report ends its work. -/
theorem Primes.flags_eq (primes : dispatch.Primes source target piece after)
    (inner : target ≠ dispatch.sink) :
    after.complete = dispatch.complete ∧ after.terminated = dispatch.terminated := by
  cases primes with
  | missed => exact ⟨rfl, rfl⟩
  | counted => exact ⟨rfl, rfl⟩
  | queued found opened completes stays =>
      refine ⟨Bool.eq_iff_iff.mpr ⟨fun done => ?_, stays⟩, rfl⟩
      exact (completes done).resolve_right inner

/-- After termination a report is counted, and nothing is queued. -/
theorem Primes.dwindles (primes : dispatch.Primes source target piece after)
    (ended : dispatch.Ended) : dispatch.Dwindles after := by
  cases primes with
  | missed => exact .refl dispatch
  | counted found =>
      exact (Dwindles.observe (.reported source target piece) trivial).trans
        (.setModule found List.suffix_rfl)
  | queued found opened =>
      have closed := ended.closed target _ found
      rw [opened] at closed
      cases closed

/-- **After termination nothing comes in**: workers drop what they take, and do what they had in
hand. -/
theorem Moves.dwindles {step : Step} (moved : dispatch.Moves step after)
    (ended : dispatch.Ended) : dispatch.Dwindles after := by
  cases moved with
  | took _ _ _ _ running | passed _ _ running =>
      rw [ended.terminated] at running
      cases running
  | dropped here idle found waiting =>
      refine .setModule found ?_
      rw [waiting]
      exact List.suffix_cons _ _
  | entered here next =>
      refine (Dwindles.called here next).trans (.setActivity here ?_)
      rw [next]
      exact List.suffix_cons _ _
  | returned here inside =>
      refine (Dwindles.observe (.returned _ _ _) trivial).trans (.setActivity here ?_)
      rw [inside]
      exact List.suffix_rfl
  | @failed position worker chunk rest error here inside =>
      have seen : dispatch.Dwindles ((dispatch.observe
          (.returned worker.module chunk (.error error))).setActivity position .idle) :=
        (Dwindles.observe (.returned _ _ _) trivial).trans (.setActivity here List.nil_suffix)
      obtain ⟨workers_eq, journal_eq, -⟩ := fail_eq
        ((dispatch.observe (.returned worker.module chunk (.error error))).setActivity position
          .idle) worker.module error
      refine seen.trans (.of_same (waiting_terminate _) (fun id => ?_) workers_eq ?_)
      · rw [journal_eq]
      · rw [calls, journal_eq]
        rfl
  | finished here done => exact .setActivity here List.nil_suffix
  | stopped here next => exact .setActivity here List.nil_suffix
  | departed here => exact .setActivity here List.nil_suffix
  | reported here next done =>
      have primes := primes_of_prime done
      refine (primes.dwindles ended).trans (.setActivity (primes.workers_eq ▸ here) ?_)
      rw [next]
      exact List.suffix_cons _ _
  | crashed here next refused =>
      have primes := primes_of_prime refused
      exact (primes.dwindles ended).trans
        (.setActivity (primes.workers_eq ▸ here) List.nil_suffix)

/-- After termination a report leaves what waits where it is. -/
theorem Primes.waiting_eq (primes : dispatch.Primes source target piece after)
    (ended : dispatch.Ended) : after.waiting = dispatch.waiting := by
  cases primes with
  | missed => rfl
  | counted found =>
      funext id
      refine (waiting_setModule found _ id).trans ?_
      split
      case isTrue same =>
        rw [same]
        exact (waiting_eq found).symm
      case isFalse => rfl
  | queued found opened =>
      have closed := ended.closed target _ found
      rw [opened] at closed
      cases closed

/-- After termination a module without workers keeps what waits there. -/
theorem Moves.waiting_eq {step : Step} {id : Nat} (moved : dispatch.Moves step after)
    (ended : dispatch.Ended)
    (nobody : ∀ (position : Nat) worker, dispatch.workers[position]? = some worker →
      worker.module ≠ id) : after.waiting id = dispatch.waiting id := by
  cases moved with
  | took _ _ _ _ running =>
      rw [ended.terminated] at running
      cases running
  | dropped here idle found =>
      exact (waiting_setModule found _ id).trans (if_neg (nobody _ _ here).symm)
  | failed => exact congrFun (waiting_terminate _) id
  | reported here next done => exact congrFun ((primes_of_prime done).waiting_eq ended) id
  | crashed here next refused => exact congrFun ((primes_of_prime refused).waiting_eq ended) id
  | _ => rfl

/-- A step is taken by a worker. -/
theorem Moves.exists_worker {step : Step} (moved : dispatch.Moves step after) :
    ∃ (position : Nat) (worker : Worker), dispatch.workers[position]? = some worker := by
  cases moved <;> exact ⟨_, _, by assumption⟩

end Dispatch

end Mixnet
