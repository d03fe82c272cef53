import Mathlib.Algebra.Order.Group.Multiset
import Mathlib.Tactic.Abel
import Mixnet.Proofs.Ledger

/-!
# No work appears, and none is lost

The work of a module is what its queued assignments ask for.  Part of it has been performed, part is
in the hands of workers, and part waits in the queue; once work has been ended or a kernel has
failed, the rest is lost.  This balance holds after every step.  It is why every slot is computed
and reported at most once, and, as long as nothing fails, that it will be.

## Main definitions

* `Activity.pending`, `Activity.inside`: what a worker has still to do, and the call it is in
* `Dispatch.Conserved`: the balance of work
* `Dispatch.Returning`: the balance of calls

## Main statements

* `Dispatch.Conserved.of_hands`, `Dispatch.Conserved.take`, `Dispatch.Conserved.delivered`: what
  workers do, taking work and delivering reports keep the balance
* `Dispatch.Conserved.reports_once`, `Dispatch.Conserved.calls_once`: a module reports no slot twice
  to the same output, and calls its kernel on none twice
-/

namespace Mixnet

open Journal

/-! ## What workers hold -/

/-- The calls and reports that a worker has still to do. -/
def Activity.pending : Activity → Multiset Task
  | .working tasks => duties tasks
  | .calling _ tasks => duties tasks
  | _ => 0

/-- The call that a worker is in. -/
def Activity.inside : Activity → Multiset Chunk
  | .calling chunk _ => {chunk}
  | _ => 0

theorem duties_perm {left right : List Task} (same : left.Perm right) :
    duties left = duties right :=
  Multiset.coe_eq_coe.mpr (same.filter _)

namespace Dispatch

variable {dispatch after origin : Dispatch}

/-- The calls and reports that the workers of a module have still to do. -/
def inHand (dispatch : Dispatch) (id : Nat) : Multiset Task :=
  dispatch.total fun worker => if worker.module = id then worker.activity.pending else 0

/-- The calls that the workers of a module are in. -/
def inKernel (dispatch : Dispatch) (id : Nat) : Multiset Chunk :=
  dispatch.total fun worker => if worker.module = id then worker.activity.inside else 0

section SetActivity

variable {position : Nat} {worker : Worker} {α : Type}

/-- A worker that goes from one activity to another hands over the difference to its module. -/
theorem share_setActivity (here : dispatch.workers[position]? = some worker) (activity : Activity)
    (value : Activity → Multiset α) :
    ((dispatch.setActivity position activity).total fun other =>
        if other.module = worker.module then value other.activity else 0) +
        value worker.activity =
      (dispatch.total fun other =>
        if other.module = worker.module then value other.activity else 0) + value activity := by
  simpa using total_setActivity here activity
    fun other => if other.module = worker.module then value other.activity else 0

/-- It does not concern the other modules. -/
theorem share_setActivity_of_ne (here : dispatch.workers[position]? = some worker)
    (activity : Activity) (value : Activity → Multiset α) {id : Nat} (other : id ≠ worker.module) :
    ((dispatch.setActivity position activity).total fun other =>
        if other.module = id then value other.activity else 0) =
      dispatch.total fun other => if other.module = id then value other.activity else 0 := by
  simpa [Ne.symm other] using total_setActivity here activity
    fun other => if other.module = id then value other.activity else 0

/-- What one worker holds is part of what the workers of its module hold. -/
theorem le_share (here : dispatch.workers[position]? = some worker)
    {value : Activity → Multiset α} (nothing : value .idle = 0) :
    value worker.activity ≤
      dispatch.total fun other =>
        if other.module = worker.module then value other.activity else 0 := by
  have change := share_setActivity here .idle value
  rw [nothing, add_zero] at change
  rw [← change]
  exact Multiset.le_add_left _ _

theorem inHand_setActivity (here : dispatch.workers[position]? = some worker)
    (activity : Activity) :
    (dispatch.setActivity position activity).inHand worker.module + worker.activity.pending =
      dispatch.inHand worker.module + activity.pending :=
  share_setActivity here activity Activity.pending

theorem inHand_setActivity_of_ne (here : dispatch.workers[position]? = some worker)
    (activity : Activity) {id : Nat} (other : id ≠ worker.module) :
    (dispatch.setActivity position activity).inHand id = dispatch.inHand id :=
  share_setActivity_of_ne here activity Activity.pending other

theorem inKernel_setActivity (here : dispatch.workers[position]? = some worker)
    (activity : Activity) :
    (dispatch.setActivity position activity).inKernel worker.module + worker.activity.inside =
      dispatch.inKernel worker.module + activity.inside :=
  share_setActivity here activity Activity.inside

theorem inKernel_setActivity_of_ne (here : dispatch.workers[position]? = some worker)
    (activity : Activity) {id : Nat} (other : id ≠ worker.module) :
    (dispatch.setActivity position activity).inKernel id = dispatch.inKernel id :=
  share_setActivity_of_ne here activity Activity.inside other

theorem pending_le_inHand (here : dispatch.workers[position]? = some worker) :
    worker.activity.pending ≤ dispatch.inHand worker.module :=
  le_share here rfl

theorem inside_le_inKernel (here : dispatch.workers[position]? = some worker) :
    worker.activity.inside ≤ dispatch.inKernel worker.module :=
  le_share here rfl

end SetActivity

/-! ## The balance of work -/

/-- What the queued assignments of a module ask for has been performed, is in hand, or waits; or it
is lost, if work has been ended or a kernel has failed. -/
def Conserved (dispatch : Dispatch) : Prop :=
  ∀ (id : Nat) module, dispatch.modules[id]? = some module → id < dispatch.sink →
    ∃ lost : Multiset Task,
      (performed dispatch.journal id : Multiset Task) + dispatch.inHand id +
          duties (module.queue.chunks.flatMap module.tasks) + lost =
        duties ((queuedOn dispatch.journal id).flatMap module.tasks) ∧
      (dispatch.terminated = false → dispatch.failure = none → lost = 0)

namespace Conserved

/-- What was performed and what is in hand was asked for. -/
theorem within (conserved : dispatch.Conserved) {id : Nat} {module : Module}
    (found : dispatch.modules[id]? = some module) (wired : id < dispatch.sink) :
    (performed dispatch.journal id : Multiset Task) + dispatch.inHand id ≤
      duties ((queuedOn dispatch.journal id).flatMap module.tasks) := by
  obtain ⟨lost, balance, -⟩ := conserved id module found wired
  rw [← balance, add_assoc]
  exact Multiset.le_add_right _ _

/-- Queues untouched, what leaves the hands of workers is performed or gone. -/
theorem of_hands (conserved : dispatch.Conserved) (sink_eq : after.sink = dispatch.sink)
    (modules_eq : ∀ (id : Nat) next, after.modules[id]? = some next →
      ∃ module, dispatch.modules[id]? = some module ∧
        next.queue.chunks = module.queue.chunks ∧ next.tasks = module.tasks)
    (queued_eq : queuedOn after.journal = queuedOn dispatch.journal)
    (running : after.terminated = false → dispatch.terminated = false)
    (unfailed : after.failure = none → dispatch.failure = none)
    (hands : ∀ id, ∃ gone : Multiset Task,
      (performed after.journal id : Multiset Task) + after.inHand id + gone =
        performed dispatch.journal id + dispatch.inHand id ∧
      (after.terminated = false → after.failure = none → gone = 0)) : after.Conserved := by
  intro id next found wired
  obtain ⟨module, module_found, chunks_eq, tasks_eq⟩ := modules_eq id next found
  obtain ⟨lost, balance, none_lost⟩ := conserved id module module_found (sink_eq ▸ wired)
  obtain ⟨gone, handed, kept_gone⟩ := hands id
  refine ⟨gone + lost, ?_, ?_⟩
  · rw [chunks_eq, tasks_eq, queued_eq, ← balance, ← handed]
    abel
  · intro going well
    rw [kept_gone going well, none_lost (running going) (unfailed well), add_zero]

/-- Taking an assignment from a queue: it goes into the hands of a worker, or is lost. -/
theorem take (conserved : dispatch.Conserved) {id : Nat} {module : Module} {chunk : Chunk}
    {rest : List Chunk} (found : dispatch.modules[id]? = some module)
    (waiting : module.queue.chunks = chunk :: rest) {workers : Array Worker}
    (others : ∀ other ≠ id, inHand { dispatch with workers } other = dispatch.inHand other)
    {gone : Multiset Task}
    (hands : id < dispatch.sink → inHand { dispatch with workers } id + gone =
      dispatch.inHand id + duties (module.tasks chunk))
    (kept_gone : dispatch.terminated = false → gone = 0) :
    Conserved { dispatch.setModule id (module.withWaiting rest) with workers } := by
  intro other there there_found wired
  show ∃ lost : Multiset Task, (performed dispatch.journal other : Multiset Task) +
      inHand { dispatch with workers } other + duties (there.queue.chunks.flatMap there.tasks) +
        lost = duties ((queuedOn dispatch.journal other).flatMap there.tasks) ∧
      (dispatch.terminated = false → dispatch.failure = none → lost = 0)
  rcases of_getElem?_setIfInBounds found there_found with ⟨rfl, rfl⟩ | ⟨elsewhere, there_found⟩
  · obtain ⟨lost, balance, none_lost⟩ := conserved other module found wired
    rw [waiting, List.flatMap_cons, duties_append] at balance
    refine ⟨gone + lost, ?_, ?_⟩
    · show (performed dispatch.journal other : Multiset Task) +
          inHand { dispatch with workers } other + duties (rest.flatMap module.tasks) +
            (gone + lost) = duties ((queuedOn dispatch.journal other).flatMap module.tasks)
      calc (performed dispatch.journal other : Multiset Task) +
              inHand { dispatch with workers } other + duties (rest.flatMap module.tasks) +
                (gone + lost)
          = performed dispatch.journal other + (inHand { dispatch with workers } other + gone) +
              duties (rest.flatMap module.tasks) + lost := by abel
        _ = performed dispatch.journal other + dispatch.inHand other +
              (duties (module.tasks chunk) + duties (rest.flatMap module.tasks)) + lost := by
            rw [hands wired]
            abel
        _ = duties ((queuedOn dispatch.journal other).flatMap module.tasks) := balance
    · intro going well
      rw [kept_gone going, none_lost going well, add_zero]
  · rw [others other elsewhere]
    exact conserved other there there_found wired

/-- Delivering a report: what is queued is asked for and waits. -/
theorem delivered {expanded : Nat} {source : Option Nat} {target : Nat} {piece : Chunk}
    {module next : Module} {released : List Chunk} {last : Bool} (conserved : dispatch.Conserved)
    (found : dispatch.modules[target]? = some module)
    (delivers : dispatch.Delivers expanded source target piece module next released last)
    {workers : Array Worker}
    (hands : ∀ id, (performed (deliver dispatch.journal source target piece released) id :
        Multiset Task) + inHand { dispatch with workers } id =
      performed dispatch.journal id + dispatch.inHand id) :
    Conserved { dispatch.delivered source target piece next released last with workers } := by
  intro other there there_found wired
  show ∃ lost : Multiset Task,
      (performed (deliver dispatch.journal source target piece released) other : Multiset Task) +
        inHand { dispatch with workers } other + duties (there.queue.chunks.flatMap there.tasks) +
          lost =
        duties ((queuedOn (deliver dispatch.journal source target piece released) other).flatMap
          there.tasks) ∧
      (dispatch.terminated = false → dispatch.failure = none → lost = 0)
  rw [hands other, queuedOn_deliver]
  rcases of_getElem?_setIfInBounds found there_found with ⟨rfl, rfl⟩ | ⟨elsewhere, there_found⟩
  · obtain ⟨lost, balance, none_lost⟩ := conserved other module found wired
    have turned : duties (released.reverse.flatMap module.tasks) =
        duties (released.flatMap module.tasks) :=
      duties_perm ((List.reverse_perm released).flatMap_right _)
    refine ⟨lost, ?_, none_lost⟩
    rw [if_pos rfl, Module.tasks_eq_of_fresh_eq delivers.fresh_eq, delivers.chunks_eq,
      List.flatMap_append, List.flatMap_append, duties_append, duties_append, turned, ← balance]
    abel
  · rw [if_neg elsewhere]
    exact conserved other there there_found wired

/-- **At the beginning** nothing is asked for. -/
theorem initial {first expanded : Nat} {rank : Nat → Nat}
    (laid : origin.Laid first expanded rank) : origin.Conserved := by
  intro id module found _
  have untouched := laid.untouched
  have journal_eq : origin.journal = [] := by rw [untouched]; rfl
  have workers_eq : origin.workers = #[] := by rw [untouched]; rfl
  have chunks_eq : module.queue.chunks = [] := by rw [← (laid.unworked id module found).1]; rfl
  refine ⟨0, ?_, fun _ _ => rfl⟩
  simp [journal_eq, chunks_eq, inHand, total, workers_eq, performed, queuedOn, view]

/-! ### What the balance means for slots -/

variable {first expanded : Nat} {rank : Nat → Nat} {id : Nat} {module : Module}

theorem countP_due_calls (module : Module) (chunks : List Chunk) (slot : Nat) :
    (duties (chunks.flatMap module.tasks)).countP (fun task => task.callsSlot slot = true) =
      Chunk.coverage chunks slot := by
  rw [countP_duties rfl,
    countP_flatMap_eq_coverage slot fun chunk _ => module.countP_calls chunk slot]

theorem countP_due_reports (distinct : module.outputs.Nodup) {target : Nat}
    (output : target ∈ module.outputs) (chunks : List Chunk) (slot : Nat) :
    (duties (chunks.flatMap module.tasks)).countP
      (fun task => task.reportsSlot target slot = true) = Chunk.coverage chunks slot := by
  rw [countP_duties rfl,
    countP_flatMap_eq_coverage slot fun chunk _ => module.countP_reports distinct chunk output slot]

/-- What a worker has still to do belongs to an assignment that was queued. -/
theorem asked_for (conserved : dispatch.Conserved)
    (found : dispatch.modules[id]? = some module) (wired : id < dispatch.sink)
    {held : Multiset Task} (holds : held ≤ dispatch.inHand id) {task : Task}
    (member : task ∈ held) :
    ∃ assignment ∈ queuedOn dispatch.journal id, task ∈ module.tasks assignment := by
  have asked := Multiset.mem_of_le
    ((holds.trans (Multiset.le_add_left _ _)).trans (conserved.within found wired)) member
  rw [duties, Multiset.mem_coe, List.mem_filter, List.mem_flatMap] at asked
  exact asked.1

/-- What a kernel was called on belongs to an assignment that was queued. -/
theorem of_called (conserved : dispatch.Conserved)
    (found : dispatch.modules[id]? = some module) (wired : id < dispatch.sink) {chunk : Chunk}
    (member : .called id chunk ∈ dispatch.journal) :
    ∃ assignment ∈ queuedOn dispatch.journal id, .call chunk ∈ module.tasks assignment := by
  have performs : Task.call chunk ∈ (performed dispatch.journal id : Multiset Task) := by
    rw [Multiset.mem_coe, performed, view, List.mem_filterMap]
    exact ⟨_, member, by simp⟩
  have asked := Multiset.mem_of_le
    ((Multiset.le_add_right _ _).trans (conserved.within found wired)) performs
  rw [duties, Multiset.mem_coe, List.mem_filter, List.mem_flatMap] at asked
  exact asked.1

/-- **A module reports no slot twice to an output**, even with what its workers hold. -/
theorem reports_once (conserved : dispatch.Conserved) (accounted : Accounted origin dispatch)
    (laid : origin.Laid first expanded rank) (found : dispatch.modules[id]? = some module)
    (wired : id < dispatch.sink) {held : Multiset Task} (holds : held ≤ dispatch.inHand id)
    {target : Nat} (output : target ∈ module.outputs) (slot : Nat) :
    held.countP (fun task => task.reportsSlot target slot = true) +
      Chunk.coverage (reportsFrom dispatch.journal (some id) target) slot ≤ 1 := by
  have fits := accounted.fits laid found
  -- What is held and what was performed are disjoint parts of what the queued assignments ask for.
  have both : held + performed dispatch.journal id ≤
      duties ((queuedOn dispatch.journal id).flatMap module.tasks) := by
    rw [add_comm]
    exact (add_le_add_right holds _).trans (conserved.within found wired)
  have counted := Multiset.countP_le_of_le
    (fun task => Task.reportsSlot target slot task = true) both
  simp only [Multiset.countP_add, Multiset.coe_countP, Bool.decide_eq_true,
    countP_performed_reports, countP_due_reports fits.distinct output] at counted
  exact counted.trans ((accounted.kept id module found).coverage_le fits slot)

/-- **A module calls its kernel on no slot twice.** -/
theorem calls_once (conserved : dispatch.Conserved) (accounted : Accounted origin dispatch)
    (laid : origin.Laid first expanded rank) (found : dispatch.modules[id]? = some module)
    (wired : id < dispatch.sink) (slot : Nat) :
    Chunk.coverage (calledOn dispatch.journal id) slot ≤ 1 := by
  have fits := accounted.fits laid found
  have counted := Multiset.countP_le_of_le (fun task => Task.callsSlot slot task = true)
    ((Multiset.le_add_right _ _).trans (conserved.within found wired))
  simp only [Multiset.coe_countP, Bool.decide_eq_true, countP_performed_calls,
    countP_due_calls] at counted
  exact counted.trans ((accounted.kept id module found).coverage_le fits slot)

end Conserved

/-! ## The balance of calls -/

/-- A call has returned, or a worker is in it. -/
def Returning (dispatch : Dispatch) : Prop :=
  ∀ id, (returnedOn dispatch.journal id : Multiset Chunk) + dispatch.inKernel id =
    calledOn dispatch.journal id

namespace Returning

theorem of_same (returning : dispatch.Returning)
    (returned_eq : returnedOn after.journal = returnedOn dispatch.journal)
    (called_eq : calledOn after.journal = calledOn dispatch.journal)
    (kernels : ∀ id, after.inKernel id = dispatch.inKernel id) : after.Returning := by
  intro id
  rw [returned_eq, called_eq, kernels]
  exact returning id

/-- A kernel that returned was called. -/
theorem called (returning : dispatch.Returning) {id : Nat} {chunk : Chunk}
    (member : chunk ∈ dispatch.inKernel id) : .called id chunk ∈ dispatch.journal := by
  rw [← mem_calledOn, ← Multiset.mem_coe, ← returning id]
  exact Multiset.mem_add.mpr (Or.inr member)

theorem coverage_le (returning : dispatch.Returning) (id slot : Nat) :
    Chunk.coverage (returnedOn dispatch.journal id) slot ≤
      Chunk.coverage (calledOn dispatch.journal id) slot := by
  have within : (returnedOn dispatch.journal id : Multiset Chunk) ≤
      calledOn dispatch.journal id := by
    rw [← returning id]
    exact Multiset.le_add_right _ _
  exact (Multiset.coe_le.mp within).countP_le _

end Returning

end Dispatch

end Mixnet
