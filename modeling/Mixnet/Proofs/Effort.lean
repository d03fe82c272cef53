import Mixnet.Graph.Settle
import Mixnet.Proofs.Output

/-!
# Every schedule ends

A step of a worker is paid for.  Queueing an assignment grants the steps that the work on it takes,
hiring a worker grants the step by which it goes, and every step spends one.  Since no assignment is
queued twice, there is a number of steps that no play of a graph exceeds.

## Main definitions

* `Dispatch.effort`: the steps that workers have left
* `Dispatch.cost`: the steps that the work on assignments takes, over all modules
* `Dispatch.remaining`: the steps left, in what workers do and on what waits
* `Dispatch.granted`: the steps that queueing assignments has granted
* `Dispatch.workload`: the steps that a graph can take at most

## Main statements

* `Dispatch.Moves.spends`: every step of a worker spends one of the steps granted
* `Graph.steps_le_workload`: no play takes more steps than the workload
-/

namespace Mixnet

open Journal

/-! ## What steps cost -/

/-- The steps that a worker has left in its activity, and the one by which it goes. -/
def Activity.stepsLeft : Activity → Nat
  | .exited => 0
  | .crashed _ => 0
  | activity => Dispatch.stepsIn activity + 1

namespace Dispatch

variable {origin dispatch after : Dispatch} {first expanded : Nat} {rank : Nat → Nat}

/-- The steps that workers have left in what they are doing. -/
def effort (dispatch : Dispatch) : Nat := dispatch.total fun worker => worker.activity.stepsLeft

/-- The steps that the work of a module on an assignment takes. -/
def stepsFor (dispatch : Dispatch) (id : Nat) (chunk : Chunk) : Nat :=
  (dispatch.modules[id]?.map (stepsOn · chunk)).getD 0

/-- The steps that the work on assignments takes, over all modules with workers. -/
def cost (dispatch : Dispatch) (chunks : Nat → List Chunk) : Nat :=
  ∑ id ∈ Finset.range dispatch.sink, ((chunks id).map (dispatch.stepsFor id)).sum

/-- The steps that are left: those of workers in what they are doing, and those on what waits. -/
def remaining (origin dispatch : Dispatch) : Nat :=
  dispatch.effort + origin.cost dispatch.waiting

/-- The steps that queueing assignments has granted. -/
def granted (origin dispatch : Dispatch) : Nat := origin.cost (queuedOn dispatch.journal)

/-- The steps that a graph can take at most: those on every assignment of every module, and one for
each worker. -/
def workload (dispatch : Dispatch) : Nat :=
  dispatch.cost (fun id => (dispatch.modules[id]?.map (·.assignments.all)).getD []) +
    dispatch.crew.length

/-- No assignments cost more than those they are among. -/
theorem cost_le_of_subperm {part whole : Nat → List Chunk}
    (within : ∀ id < dispatch.sink, (part id).Subperm (whole id)) :
    dispatch.cost part ≤ dispatch.cost whole := by
  apply Finset.sum_le_sum
  intro id member
  obtain ⟨middle, same, inner⟩ := within id (Finset.mem_range.mp member)
  rw [← (same.map (dispatch.stepsFor id)).sum_eq]
  exact (inner.map _).sum_le_sum fun _ _ => Nat.zero_le _

/-- More assignments for one module cost what the work on them takes, if it has workers. -/
theorem cost_of_more {less more : Nat → List Chunk} {id : Nat} {added : List Chunk}
    (there : (more id).Perm (added ++ less id))
    (elsewhere : ∀ other, other ≠ id → more other = less other) :
    dispatch.cost more = dispatch.cost less +
      if id < dispatch.sink then (added.map (dispatch.stepsFor id)).sum else 0 := by
  have others (part : Finset Nat) (without : id ∉ part) :
      ∑ other ∈ part, ((more other).map (dispatch.stepsFor other)).sum =
        ∑ other ∈ part, ((less other).map (dispatch.stepsFor other)).sum := by
    refine Finset.sum_congr rfl ?_
    intro other member
    rw [elsewhere other fun same => without (same ▸ member)]
  by_cases inside : id < dispatch.sink
  · have member := Finset.mem_range.mpr inside
    rw [if_pos inside, cost, cost, ← Finset.add_sum_erase _ _ member,
      ← Finset.add_sum_erase (Finset.range dispatch.sink) _ member,
      others _ (Finset.notMem_erase _ _), (there.map _).sum_eq, List.map_append, List.sum_append]
    omega
  · rw [if_neg inside, Nat.add_zero]
    exact others _ fun member => inside (Finset.mem_range.mp member)

/-! ## Steps spend -/

/-- A worker that goes on spends what it has left less than before. -/
theorem effort_setActivity {position : Nat} {worker : Worker}
    (here : dispatch.workers[position]? = some worker) (activity : Activity) :
    (dispatch.setActivity position activity).effort + worker.activity.stepsLeft =
      dispatch.effort + activity.stepsLeft :=
  total_setActivity here activity fun worker => worker.activity.stepsLeft

/-- Delivering a report grants the steps on what it queues. -/
theorem Delivers.grants {source : Option Nat} {target : Nat} {piece : Chunk}
    {module next : Module} {released : List Chunk} {last : Bool}
    (delivers : dispatch.Delivers expanded source target piece module next released last)
    (found : dispatch.modules[target]? = some module) (origin : Dispatch) :
    origin.remaining (dispatch.delivered source target piece next released last) +
        origin.granted dispatch =
      origin.remaining dispatch +
        origin.granted (dispatch.delivered source target piece next released last) := by
  have queued (id : Nat) :
      queuedOn (dispatch.delivered source target piece next released last).journal id =
        if id = target then released.reverse ++ queuedOn dispatch.journal id
        else queuedOn dispatch.journal id :=
    queuedOn_deliver id
  have more_waiting :
      origin.cost (dispatch.delivered source target piece next released last).waiting =
        origin.cost dispatch.waiting +
          if target < origin.sink then (released.map (origin.stepsFor target)).sum else 0 := by
    refine cost_of_more ?_ fun other different => by
      rw [delivers.waiting_eq found, if_neg different]
    rw [delivers.waiting_eq found, if_pos rfl]
    exact List.perm_append_comm
  have more_queued :
      origin.cost (queuedOn (dispatch.delivered source target piece next released last).journal) =
        origin.cost (queuedOn dispatch.journal) +
          if target < origin.sink then (released.map (origin.stepsFor target)).sum else 0 := by
    refine cost_of_more ?_ fun other different => by rw [queued, if_neg different]
    rw [queued, if_pos rfl]
    exact (List.reverse_perm released).append_right _
  have effort_eq : (dispatch.delivered source target piece next released last).effort =
      dispatch.effort := rfl
  rw [remaining, remaining, granted, granted, more_waiting, more_queued, effort_eq]
  omega

/-- Taking an assignment from a queue frees the steps on it. -/
theorem Sound.cost_pop (sound : Sound origin first dispatch) {id : Nat} {module : Module}
    {chunk : Chunk} {rest : List Chunk} (found : dispatch.modules[id]? = some module)
    (waiting : module.queue.chunks = chunk :: rest) :
    origin.cost dispatch.waiting =
      origin.cost (dispatch.setModule id (module.withWaiting rest)).waiting +
        if id < origin.sink then stepsOn module chunk else 0 := by
  have single : ([chunk].map (origin.stepsFor id)).sum = stepsOn module chunk := by
    rw [List.map_singleton, List.sum_singleton, stepsFor, sound.accounted.laid_out found]
    rfl
  rw [← single]
  refine cost_of_more ?_ fun other different => by
    rw [waiting_setModule found, if_neg different]
  rw [waiting_setModule found, if_pos rfl, waiting_eq found, waiting]
  exact List.Perm.refl _

/-- A worker that goes on to something that leaves it fewer steps spends the difference. -/
theorem effort_lt {position : Nat} {worker : Worker} {activity : Activity}
    (here : dispatch.workers[position]? = some worker)
    (fewer : activity.stepsLeft < worker.activity.stepsLeft) :
    (dispatch.setActivity position activity).effort < dispatch.effort := by
  have change := effort_setActivity here activity
  omega

/-- A step that takes and queues nothing spends what some worker spends. -/
theorem spends_of_effort_lt (less : after.effort < dispatch.effort)
    (waiting_eq : after.waiting = dispatch.waiting)
    (queued_eq : queuedOn after.journal = queuedOn dispatch.journal) :
    origin.remaining after + origin.granted dispatch <
      origin.remaining dispatch + origin.granted after := by
  rw [remaining, remaining, granted, granted, waiting_eq, queued_eq]
  omega

/-- **Every step of a worker spends one of the steps granted.** -/
theorem Moves.spends {step : Step} (sound : Sound origin first dispatch)
    (laid : origin.Laid first expanded rank) (moved : dispatch.Moves step after) :
    origin.remaining after + origin.granted dispatch <
      origin.remaining dispatch + origin.granted after := by
  cases moved with
  | @took position worker module chunk rest here idle found waiting running =>
      have change := effort_setActivity here (.working (module.tasks chunk))
      have freed := sound.cost_pop found waiting
      rw [if_pos (sound.accounted.sink_eq ▸ (sound.staffed position worker here).1)] at freed
      simp only [idle, Activity.stepsLeft, stepsIn] at change
      simp only [stepsOn] at freed
      show (dispatch.setActivity position (.working (module.tasks chunk))).effort +
        origin.cost (dispatch.setModule worker.module (module.withWaiting rest)).waiting +
          origin.granted dispatch <
        dispatch.effort + origin.cost dispatch.waiting + origin.granted dispatch
      omega
  | @dropped position worker module chunk rest here idle found waiting ended =>
      have freed := sound.cost_pop found waiting
      rw [if_pos (sound.accounted.sink_eq ▸ (sound.staffed position worker here).1)] at freed
      simp only [stepsOn] at freed
      show dispatch.effort +
        origin.cost (dispatch.setModule worker.module (module.withWaiting rest)).waiting +
          origin.granted dispatch <
        dispatch.effort + origin.cost dispatch.waiting + origin.granted dispatch
      omega
  | entered here next =>
      refine spends_of_effort_lt (effort_lt here ?_) rfl ?_
      · simp only [next, Activity.stepsLeft, stepsIn, List.length_cons]
        omega
      · funext id
        exact queuedOn_cons _ id
  | returned here inside =>
      refine spends_of_effort_lt (effort_lt here ?_) rfl ?_
      · simp [inside, Activity.stepsLeft, stepsIn]
      · funext id
        exact queuedOn_cons _ id
  | @failed position worker chunk rest error here inside =>
      obtain ⟨workers_eq, journal_eq, -⟩ := fail_eq
        ((dispatch.observe (.returned worker.module chunk (.error error))).setActivity position
          .idle) worker.module error
      refine spends_of_effort_lt ?_ (waiting_terminate _) ?_
      · rw [effort, total, workers_eq]
        refine effort_lt here ?_
        rw [inside]
        exact Nat.succ_lt_succ (Nat.succ_pos _)
      · funext id
        rw [journal_eq]
        exact queuedOn_cons _ id
  | finished here done =>
      refine spends_of_effort_lt (effort_lt here ?_) rfl rfl
      simp [done, Activity.stepsLeft, stepsIn]
  | passed here next =>
      refine spends_of_effort_lt (effort_lt here ?_) rfl rfl
      simp [next, Activity.stepsLeft, stepsIn]
  | stopped here next =>
      refine spends_of_effort_lt (effort_lt here ?_) rfl rfl
      simp [next, Activity.stepsLeft, stepsIn]
  | departed here idle =>
      refine spends_of_effort_lt (effort_lt here ?_) rfl rfl
      simp [idle, Activity.stepsLeft, stepsIn]
  | @reported position target worker piece rest last primed here next done =>
      obtain ⟨module, after, released, found, delivers, rfl⟩ := sound.reports laid here next done
      -- What the report queues is granted where it waits and where it was queued alike.
      have granted_eq := delivers.grants found origin
      have less : (dispatch.setActivity position (.working rest)).effort < dispatch.effort :=
        effort_lt here (by simp [next, Activity.stepsLeft, stepsIn])
      obtain ⟨primed, primed_eq⟩ : ∃ primed, primed =
        dispatch.delivered (some worker.module) target piece after released last := ⟨_, rfl⟩
      have effort_eq : primed.effort = dispatch.effort := by
        rw [primed_eq]
        rfl
      have spent_eq : (primed.setActivity position (.working rest)).effort =
          (dispatch.setActivity position (.working rest)).effort := by
        rw [primed_eq]
        rfl
      rw [← primed_eq, remaining, remaining, effort_eq] at granted_eq
      rw [← primed_eq]
      show (primed.setActivity position (.working rest)).effort + origin.cost primed.waiting +
        origin.granted dispatch <
          dispatch.effort + origin.cost dispatch.waiting + origin.granted primed
      omega
  | crashed here next refused => exact (sound.not_refused laid here next refused).elim

end Dispatch

/-! ## Every play ends -/

/-- The workers of a new crew have one step left each: the one by which they go. -/
theorem Dispatch.Laid.effort_crew {origin : Dispatch} {first expanded : Nat} {rank : Nat → Nat}
    (laid : origin.Laid first expanded rank) (dispatch : Dispatch) :
    Dispatch.effort { dispatch with workers := origin.crew.toArray } = origin.crew.length := by
  show (origin.crew.map fun worker => worker.activity.stepsLeft).sum = _
  have one : ∀ worker ∈ origin.crew, worker.activity.stepsLeft = 1 := by
    intro worker member
    rw [(laid.crew_wired member).1]
    rfl
  rw [List.map_congr_left one, List.map_const', List.sum_replicate, smul_eq_mul, Nat.mul_one]

namespace Graph

variable {built graph : Graph} {origin dispatch next : Dispatch} {first last expanded : Nat}
  {rank : Nat → Nat} {events : List Event} {event : Event} {stage later : GraphState}

@[simp] theorem steps_append (earlier later : List Event) :
    steps (earlier ++ later) = steps earlier + steps later :=
  List.countP_append

/-- **Every turn grants the steps it takes.**  Hiring the crew and queueing assignments grant steps,
and only a step of a worker spends one. -/
theorem Turn.spends (turn : Turn origin first expanded stage dispatch event later next)
    (laid : origin.Laid first expanded rank) (sound : Dispatch.Sound origin first dispatch)
    (manned : Manned origin stage dispatch.roster) :
    steps [event] + origin.remaining next + origin.granted dispatch + dispatch.roster.length ≤
      origin.remaining dispatch + origin.granted next + next.roster.length := by
  have of_same {other : Dispatch}
      (remaining_eq : origin.remaining other = origin.remaining dispatch)
      (journal_eq : other.journal = dispatch.journal) (roster_eq : other.roster = dispatch.roster) :
      0 + origin.remaining other + origin.granted dispatch + dispatch.roster.length ≤
        origin.remaining dispatch + origin.granted other + other.roster.length := by
    rw [Dispatch.granted, Dispatch.granted, remaining_eq, journal_eq, roster_eq]
    omega
  cases turn with
  | started linked =>
      subst linked
      have unmanned : dispatch.roster.length = 0 := by rw [manned, List.length_nil]
      have hired : (Dispatch.roster { dispatch with workers := origin.crew.toArray }).length =
          origin.crew.length := List.length_map _
      rw [Dispatch.remaining, laid.effort_crew dispatch, hired, unmanned]
      show 0 + (origin.crew.length + origin.cost dispatch.waiting) + origin.granted dispatch + 0 ≤
        dispatch.effort + origin.cost dispatch.waiting + origin.granted dispatch +
          origin.crew.length
      omega
  | @fed chunk module next_module released last running found delivers =>
      have granted_eq := delivers.grants found origin
      obtain ⟨fed, fed_eq⟩ : ∃ fed, fed =
        dispatch.delivered none first chunk next_module released last := ⟨_, rfl⟩
      have roster_eq : fed.roster = dispatch.roster := by
        rw [fed_eq]
        rfl
      rw [← fed_eq] at granted_eq ⊢
      rw [roster_eq]
      show 0 + origin.remaining fed + origin.granted dispatch + _ ≤ _
      omega
  | worked moved =>
      obtain ⟨roster_eq, -⟩ := moved.steady sound laid
      have spent := moved.spends sound laid
      rw [roster_eq]
      show 1 + origin.remaining next + _ + _ ≤ _
      omega
  | @collected module found =>
      refine of_same (congrArg (dispatch.effort + ·) ?_) rfl rfl
      refine Finset.sum_congr rfl ?_
      intro id member
      have elsewhere : id ≠ dispatch.sink := by
        rw [sound.accounted.sink_eq]
        exact (Finset.mem_range.mp member).ne
      rw [Dispatch.waiting_setModule found, if_neg elsewhere]
  | killed =>
      obtain ⟨workers_eq, journal_eq, -⟩ := dispatch.terminate_eq
      have effort_eq : dispatch.terminate.2.effort = dispatch.effort := by
        rw [Dispatch.effort, Dispatch.total, workers_eq]
        rfl
      refine of_same ?_ journal_eq ?_
      · show dispatch.terminate.2.effort + origin.cost dispatch.terminate.2.waiting = _
        rw [effort_eq, dispatch.waiting_terminate, Dispatch.remaining]
      · exact congrArg (fun workers : Array Worker =>
          workers.toList.map fun worker => (worker.module, worker.thread)) workers_eq
  | _ => exact of_same rfl rfl rfl

/-- No steps are left at the beginning: there are no workers, and nothing waits. -/
theorem Built.nothing_remaining (building : Built built origin first last rank) :
    origin.remaining origin = 0 := by
  have nobody : origin.effort = 0 := by
    rw [building.laid.untouched]
    rfl
  have nothing : origin.cost origin.waiting = 0 := by
    apply Finset.sum_eq_zero
    intro id _
    rw [building.laid.waiting_eq_nil]
    rfl
  rw [Dispatch.remaining, nobody, nothing]

/-- The steps granted in a reached graph are among its workload. -/
theorem Reached.granted_le (building : Built built origin first last rank)
    (reached : Reached built origin first events graph dispatch) :
    origin.granted dispatch + dispatch.roster.length ≤ origin.workload := by
  refine Nat.add_le_add (Dispatch.cost_le_of_subperm ?_) ?_
  · intro id wired
    obtain ⟨module, found⟩ := reached.sound.exists_module building.laid
      (reached.sound.accounted.sink_eq ▸ wired.le)
    rw [reached.sound.accounted.laid_out found]
    show (queuedOn dispatch.journal id).Subperm module.assignments.fresh.all
    rw [Module.all_fresh]
    exact (reached.sound.accounted.kept id module found).queued_sub.trans
      module.assignments.released_sublist_all.subperm
  · rcases reached.manned.none_or_all with none | all
    · rw [none]
      exact Nat.zero_le _
    · rw [all, List.length_map]

/-- **No play takes more steps than the workload.** -/
theorem steps_le_workload (building : Built built origin first last rank)
    (played : built.play events = some graph) : steps events ≤ origin.workload := by
  have initial : steps [] + origin.remaining origin ≤
      origin.granted origin + origin.roster.length := by
    rw [building.nothing_remaining]
    exact Nat.zero_le _
  obtain ⟨dispatch, reached, spent⟩ := play_induction building
    (motive := fun events _ dispatch =>
      steps events + origin.remaining dispatch ≤
        origin.granted dispatch + dispatch.roster.length)
    initial (fun earlier event _ _ dispatch next _ reached spent turn => by
      have more := turn.spends building.laid reached.sound reached.manned
      rw [steps_append]
      omega) played
  have granted := reached.granted_le building
  omega

end Graph

end Mixnet
