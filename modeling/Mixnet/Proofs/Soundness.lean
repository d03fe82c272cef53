import Mixnet.Proofs.History

/-!
# Every reachable state is sound

The invariants of a running graph hold together or not at all: a report fits because work is
conserved, it is justified because its worker is sound, and it keeps the accounting because it fits.
This file puts them together, and shows that every step of a worker keeps them.

## Main definitions

* `Dispatch.Excused`: a worker that has gone had a reason that still holds
* `Dispatch.Sound`: all invariants of a running graph

## Main statements

* `Dispatch.Sound.accepts`: the reports of workers are never refused
* `Dispatch.Sound.moves`: every step of a worker keeps a state sound
-/

namespace Mixnet

open Journal

namespace Dispatch

variable {origin dispatch after : Dispatch} {first expanded : Nat} {rank : Nat → Nat}

/-- A worker that has gone was told to, or its queue is drained. -/
def Excused (dispatch : Dispatch) : Prop :=
  ∀ (position : Nat) worker, dispatch.workers[position]? = some worker →
    worker.activity = .exited → dispatch.dismissed = true ∨
      ∃ module, dispatch.modules[worker.module]? = some module ∧ module.queue.isDrained = true

/-- Drained queues stay drained, so excuses stay good. -/
theorem Excused.of_drained (excused : dispatch.Excused)
    (dismissed : dispatch.dismissed = true → after.dismissed = true)
    (drained : ∀ (id : Nat) module, dispatch.modules[id]? = some module →
      module.queue.isDrained = true →
        ∃ next, after.modules[id]? = some next ∧ next.queue.isDrained = true)
    (gone : ∀ (position : Nat) worker, after.workers[position]? = some worker →
      worker.activity = .exited → dispatch.workers[position]? = some worker) : after.Excused := by
  intro position worker found exited
  rcases excused position worker (gone position worker found exited) exited with told |
    ⟨module, module_found, module_drained⟩
  · exact Or.inl (dismissed told)
  · exact Or.inr (drained worker.module module module_found module_drained)

/-- All invariants of a running graph. -/
structure Sound (origin : Dispatch) (first : Nat) (dispatch : Dispatch) : Prop where
  accounted : Accounted origin dispatch
  conserved : dispatch.Conserved
  returning : dispatch.Returning
  causal : Causal origin first dispatch.journal
  staffed : dispatch.Staffed
  excused : dispatch.Excused

namespace Sound

/-- **A graph begins in a sound state.** -/
theorem initial (laid : origin.Laid first expanded rank) : Sound origin first origin := by
  have untouched := laid.untouched
  have journal_eq : origin.journal = [] := by rw [untouched]; rfl
  have workers_eq : origin.workers = #[] := by rw [untouched]; rfl
  refine ⟨.initial laid, .initial laid, ?_, ?_, ?_, ?_⟩
  · intro id
    simp [journal_eq, inKernel, total, workers_eq, returnedOn, calledOn, view]
  · rw [journal_eq]
    exact .nil
  · intro position worker found
    simp [workers_eq] at found
  · intro position worker found
    simp [workers_eq] at found

theorem exists_module (sound : Sound origin first dispatch)
    (laid : origin.Laid first expanded rank) {id : Nat} (inside : id ≤ dispatch.sink) :
    ∃ module, dispatch.modules[id]? = some module := by
  have size_eq : dispatch.modules.size = dispatch.sink + 1 := by
    rw [sound.accounted.sink_eq, ← laid.size_eq, ← sound.accounted.frame, Array.size_map]
  exact ⟨_, Array.getElem?_eq_getElem (by omega)⟩

/-! ## Reports -/

/-- What a worker holds while it works was asked for by an assignment that was queued. -/
theorem asked_of_working (sound : Sound origin first dispatch)
    (laid : origin.Laid first expanded rank) {position : Nat} {worker : Worker} {task : Task}
    {rest : List Task} (duty : task.isDuty = true)
    (here : dispatch.workers[position]? = some worker)
    (next : worker.activity = .working (task :: rest)) :
    ∃ module, dispatch.modules[worker.module]? = some module ∧
      ∃ assignment ∈ queuedOn dispatch.journal worker.module, task ∈ module.tasks assignment := by
  obtain ⟨wired, -⟩ := sound.staffed position worker here
  obtain ⟨module, found⟩ := sound.exists_module laid wired.le
  have pending : task ∈ worker.activity.pending := by
    rw [next, Activity.pending, duties_cons_of_duty duty]
    exact Multiset.mem_add.mpr (Or.inl (Multiset.mem_singleton_self _))
  exact ⟨module, found, sound.conserved.asked_for found wired (pending_le_inHand here) pending⟩

/-- What a worker is about to report is a piece of the batch, for a module that knows it as an
input. -/
theorem next_report (sound : Sound origin first dispatch)
    (laid : origin.Laid first expanded rank) {position target : Nat} {worker : Worker}
    {piece : Chunk} {rest : List Task} (here : dispatch.workers[position]? = some worker)
    (next : worker.activity = .working (.report target piece :: rest)) :
    (∃ module, dispatch.modules[target]? = some module ∧ worker.module ∈ module.inputs) ∧
      piece.stop ≤ expanded ∧
      Justified origin first dispatch.journal (.reported (some worker.module) target piece) := by
  have worker_sound := (sound.staffed position worker here).2
  obtain ⟨module, found, assignment, queued, asked⟩ := sound.asked_of_working laid rfl here next
  have fits := sound.accounted.fits laid found
  obtain ⟨output, -, -, stop_le⟩ := Module.bounds_of_report asked
  obtain ⟨index, inside, rfl⟩ := AssignmentList.mem_all.mp
    ((sound.accounted.kept _ module found).assigned queued)
  rw [(fits.sized.assignment_bounds inside).2] at stop_le
  obtain ⟨before, before_found, input⟩ :=
    laid.forward worker.module module.fresh (sound.accounted.laid_out found) target output
  obtain ⟨receiver, receiver_found, rfl⟩ := sound.accounted.exists_of_origin before_found
  refine ⟨⟨receiver, receiver_found, input⟩, stop_le.trans (fits.sized.stop_le inside),
    ⟨receiver.fresh, before_found, input⟩, ?_⟩
  simp only [Worker.Sound, next] at worker_sound
  exact worker_sound.1

/-- **The reports of workers are never refused.** -/
theorem accepts (sound : Sound origin first dispatch) (laid : origin.Laid first expanded rank)
    {position target : Nat} {worker : Worker} {piece : Chunk} {rest : List Task}
    (here : dispatch.workers[position]? = some worker)
    (next : worker.activity = .working (.report target piece :: rest)) :
    ∃ module after released last, dispatch.modules[target]? = some module ∧
      dispatch.Delivers expanded (some worker.module) target piece module after released last := by
  obtain ⟨⟨module, found, input⟩, inside, report⟩ := sound.next_report laid here next
  have laid_out := sound.accounted.laid_out found
  have fits := sound.accounted.fits laid found
  have kept := sound.accounted.kept target module found
  have inputs_ne : module.inputs ≠ [] := List.ne_nil_of_mem input
  have inner : target ≠ first := fun same =>
    inputs_ne ((laid.entrance target module.fresh laid_out).mpr same)
  have bounded := (sound.causal.cons report).coverage_le laid laid_out inner
    (sound.conserved.sparing_report sound.accounted laid laid_out here next)
  have several : max module.inputs.length 1 = module.inputs.length :=
    Nat.max_eq_left (List.length_pos_iff.mpr inputs_ne)
  have room : ∀ slot, Chunk.coverage (piece :: reportsTo dispatch.journal target) slot ≤
      max module.inputs.length 1 := by
    intro slot
    have bound := bounded slot
    rw [reportsTo_cons, Observation.reportTo, if_pos rfl] at bound
    rw [several]
    exact bound
  obtain ⟨out, list, accepted⟩ := AssignmentList.prime_accepts fits.sized kept.accounts
    (Or.inr inside) fun index _ => fits.sized.load_le room index
  obtain ⟨next, released, last, delivers⟩ :=
    prime_delivers found fits.sized kept accepted (some worker.module)
  exact ⟨module, next, released, last, found, delivers⟩

/-- A report that a worker has made was delivered. -/
theorem reports (sound : Sound origin first dispatch) (laid : origin.Laid first expanded rank)
    {position target : Nat} {worker : Worker} {piece : Chunk} {rest : List Task} {last : Bool}
    {primed : Dispatch} (here : dispatch.workers[position]? = some worker)
    (next : worker.activity = .working (.report target piece :: rest))
    (done : dispatch.prime (some worker.module) target piece = (.ok last, primed)) :
    ∃ module after released, dispatch.modules[target]? = some module ∧
      dispatch.Delivers expanded (some worker.module) target piece module after released last ∧
      primed = dispatch.delivered (some worker.module) target piece after released last := by
  obtain ⟨module, after, released, flag, found, delivers⟩ := sound.accepts laid here next
  have both := delivers.prime_eq.symm.trans done
  injection both with flag_eq primed_eq
  injection flag_eq with flag_eq
  subst flag_eq
  exact ⟨module, after, released, found, delivers, primed_eq.symm⟩

/-- No report of a worker was refused. -/
theorem not_refused (sound : Sound origin first dispatch) (laid : origin.Laid first expanded rank)
    {position target : Nat} {worker : Worker} {piece : Chunk} {rest : List Task} {fault : Fault}
    {primed : Dispatch} (here : dispatch.workers[position]? = some worker)
    (next : worker.activity = .working (.report target piece :: rest))
    (refused : dispatch.prime (some worker.module) target piece = (.error fault, primed)) :
    False := by
  obtain ⟨module, after, released, last, -, delivers⟩ := sound.accepts laid here next
  rw [delivers.prime_eq] at refused
  cases refused

/-- Delivering a justified report keeps a state sound, whatever its reporter does next. -/
theorem delivered {source : Option Nat} {target : Nat} {piece : Chunk} {module next : Module}
    {released : List Chunk} {last : Bool} {workers : Array Worker}
    (sound : Sound origin first dispatch) (laid : origin.Laid first expanded rank)
    (found : dispatch.modules[target]? = some module)
    (delivers : dispatch.Delivers expanded source target piece module next released last)
    (report : Justified origin first dispatch.journal (.reported source target piece))
    (sparing : target ≠ first →
      Sparing (.reported source target piece :: dispatch.journal) module.fresh target)
    (hands : ∀ id, (performed (deliver dispatch.journal source target piece released) id :
        Multiset Task) + inHand { dispatch with workers } id =
      performed dispatch.journal id + dispatch.inHand id)
    (kernels : ∀ id, inKernel { dispatch with workers } id = dispatch.inKernel id)
    (staffed : Staffed
      { dispatch.delivered source target piece next released last with workers })
    (gone : ∀ (position : Nat) worker, workers[position]? = some worker →
      worker.activity = .exited → dispatch.workers[position]? = some worker) :
    Sound origin first
      { dispatch.delivered source target piece next released last with workers } := by
  have fits := sound.accounted.fits laid found
  have list_fresh := congrArg Module.assignments delivers.fresh_eq
  refine ⟨sound.accounted.delivered found delivers workers,
    sound.conserved.delivered found delivers hands, ?_, ?_, staffed, ?_⟩
  · refine sound.returning.of_same ?_ ?_ kernels
    · funext id
      exact returnedOn_deliver id
    · funext id
      exact calledOn_deliver id
  · have all_eq : next.assignments.all = module.fresh.assignments.all := by
      rw [← Module.all_fresh next.assignments]
      exact congrArg AssignmentList.all list_fresh
    refine sound.causal.deliver laid (sound.accounted.laid_out found) report sparing
      (fits.sized.of_fresh_eq list_fresh) all_eq delivers.kept.accounts ?_
    -- What a report puts into a queue was let through, so it is full.
    intro chunk member
    have let_through := delivers.kept.queued_sub.subset
      (List.mem_append_left _ (List.mem_reverse.mpr member))
    unfold AssignmentList.released at let_through
    split at let_through
    · cases let_through
    · exact let_through
  · refine sound.excused.of_drained id ?_ gone
    -- Nothing is put into a queue that was closed, so a drained one stays as it is.
    intro id other other_found drained
    have looked := getElem?_setIfInBounds found next id
    split at looked
    case isFalse elsewhere => exact ⟨other, looked.trans other_found, drained⟩
    case isTrue here =>
      subst here
      obtain rfl : module = other := Option.some.inj (found.symm.trans other_found)
      have closed : module.queue.closed = true := (Bool.and_eq_true _ _ ▸ drained).1
      exact ⟨next, looked, (delivers.closed_of_closed closed) ▸ drained⟩

/-! ## Steps that leave the modules alone -/

/-- What a worker had in hand is performed, still in hand, or gone. -/
theorem hands_of_went {position : Nat} {worker : Worker} {activity : Activity}
    {journal : List Observation} (here : dispatch.workers[position]? = some worker)
    (others_eq : ∀ id ≠ worker.module, performed journal id = performed dispatch.journal id)
    {gone : Multiset Task}
    (work : (performed journal worker.module : Multiset Task) + activity.pending + gone =
      performed dispatch.journal worker.module + worker.activity.pending) (id : Nat) :
    (performed journal id : Multiset Task) + (dispatch.setActivity position activity).inHand id +
        (if id = worker.module then gone else 0) =
      performed dispatch.journal id + dispatch.inHand id := by
  by_cases own : id = worker.module
  · subst own
    have handed := inHand_setActivity here activity
    rw [if_pos rfl]
    refine add_right_cancel (b := worker.activity.pending) ?_
    calc (performed journal worker.module : Multiset Task) +
            (dispatch.setActivity position activity).inHand worker.module + gone +
            worker.activity.pending
        = performed journal worker.module +
            ((dispatch.setActivity position activity).inHand worker.module +
              worker.activity.pending) + gone := by abel
      _ = performed journal worker.module + activity.pending + gone +
            dispatch.inHand worker.module := by
          rw [handed]
          abel
      _ = performed dispatch.journal worker.module + dispatch.inHand worker.module +
            worker.activity.pending := by
          rw [work]
          abel
  · rw [if_neg own, inHand_setActivity_of_ne here activity own, others_eq id own, add_zero]

/-- A worker that enters the kernel or leaves it keeps the balance of calls. -/
theorem returning_of_went {position : Nat} {worker : Worker} {activity : Activity}
    {journal : List Observation} (returning : dispatch.Returning)
    (here : dispatch.workers[position]? = some worker)
    (others_eq : ∀ id ≠ worker.module, returnedOn journal id = returnedOn dispatch.journal id ∧
      calledOn journal id = calledOn dispatch.journal id)
    (calls : (returnedOn journal worker.module : Multiset Chunk) + activity.inside +
        calledOn dispatch.journal worker.module =
      returnedOn dispatch.journal worker.module + worker.activity.inside +
        calledOn journal worker.module) (id : Nat) :
    (returnedOn journal id : Multiset Chunk) +
      (dispatch.setActivity position activity).inKernel id = calledOn journal id := by
  have balance := returning id
  by_cases own : id = worker.module
  · subst own
    have entered := inKernel_setActivity here activity
    refine add_right_cancel
      (b := worker.activity.inside + calledOn dispatch.journal worker.module) ?_
    calc (returnedOn journal worker.module : Multiset Chunk) +
            (dispatch.setActivity position activity).inKernel worker.module +
            (worker.activity.inside + calledOn dispatch.journal worker.module)
        = returnedOn journal worker.module +
            ((dispatch.setActivity position activity).inKernel worker.module +
              worker.activity.inside) + calledOn dispatch.journal worker.module := by abel
      _ = returnedOn journal worker.module + activity.inside +
            calledOn dispatch.journal worker.module + dispatch.inKernel worker.module := by
          rw [entered]
          abel
      _ = returnedOn dispatch.journal worker.module + dispatch.inKernel worker.module +
            worker.activity.inside + calledOn journal worker.module := by
          rw [calls]
          abel
      _ = calledOn journal worker.module +
            (worker.activity.inside + calledOn dispatch.journal worker.module) := by
          rw [balance]
          abel
  · rw [inKernel_setActivity_of_ne here activity own, (others_eq id own).1, (others_eq id own).2]
    exact balance

/-- A worker goes on with its work, and what it observes concerns calls only.  What it had in hand
is performed, still in hand, or gone for a reason. -/
theorem went {position : Nat} {worker : Worker} {activity : Activity}
    {journal : List Observation} {failure : Option ModuleFailure}
    (sound : Sound origin first dispatch) (here : dispatch.workers[position]? = some worker)
    (grown : dispatch.journal ⊆ journal) (causal : Causal origin first journal)
    (reports_eq : reportsTo journal = reportsTo dispatch.journal)
    (queued_eq : queuedOn journal = queuedOn dispatch.journal)
    (others_eq : ∀ id ≠ worker.module, performed journal id = performed dispatch.journal id ∧
      returnedOn journal id = returnedOn dispatch.journal id ∧
      calledOn journal id = calledOn dispatch.journal id)
    (unfailed : failure = none → dispatch.failure = none) (gone : Multiset Task)
    (work : (performed journal worker.module : Multiset Task) + activity.pending + gone =
      performed dispatch.journal worker.module + worker.activity.pending)
    (kept_gone : dispatch.terminated = false → failure = none → gone = 0)
    (calls : (returnedOn journal worker.module : Multiset Chunk) + activity.inside +
        calledOn dispatch.journal worker.module =
      returnedOn dispatch.journal worker.module + worker.activity.inside +
        calledOn journal worker.module)
    (worker_sound : Worker.Sound journal { worker with activity })
    (excuse : activity = .exited → dispatch.dismissed = true ∨
      ∃ module, dispatch.modules[worker.module]? = some module ∧ module.queue.isDrained = true) :
    Sound origin first { dispatch.setActivity position activity with journal, failure } := by
  refine ⟨sound.accounted.of_same rfl rfl rfl rfl reports_eq queued_eq, ?_, ?_, causal,
    sound.staffed.setActivity here rfl rfl grown worker_sound, ?_⟩
  · refine sound.conserved.of_hands rfl (fun id next found => ⟨next, found, rfl, rfl⟩) queued_eq
      (fun running => running) unfailed ?_
    intro id
    refine ⟨if id = worker.module then gone else 0,
      hands_of_went here (fun other different => (others_eq other different).1) work id, ?_⟩
    intro running well
    rw [kept_gone running well, ite_self]
  · exact returning_of_went sound.returning here
      (fun other different => (others_eq other different).2) calls
  · intro other there found exited
    rcases of_getElem?_setActivity here found with ⟨-, rfl⟩ | ⟨-, found⟩
    · exact excuse exited
    · exact sound.excused other there found exited

/-- A worker goes on without anything to observe. -/
theorem went_on {position : Nat} {worker : Worker} {activity : Activity}
    (sound : Sound origin first dispatch) (here : dispatch.workers[position]? = some worker)
    (gone : Multiset Task) (work : activity.pending + gone = worker.activity.pending)
    (kept_gone : dispatch.terminated = false → gone = 0)
    (calls : activity.inside = worker.activity.inside)
    (worker_sound : Worker.Sound dispatch.journal { worker with activity })
    (excuse : activity = .exited → dispatch.dismissed = true ∨
      ∃ module, dispatch.modules[worker.module]? = some module ∧ module.queue.isDrained = true) :
    Sound origin first (dispatch.setActivity position activity) := by
  show Sound origin first { dispatch.setActivity position activity with
    journal := dispatch.journal, failure := dispatch.failure }
  refine sound.went here (List.Subset.refl _) sound.causal rfl rfl (fun _ _ => ⟨rfl, rfl, rfl⟩)
    (fun unfailed => unfailed) gone ?_ (fun running _ => kept_gone running) (by rw [calls])
    worker_sound excuse
  rw [add_assoc, work]

/-! ## Ending early -/

/-- Other flags are no concern of the invariants, as long as no reason is taken back. -/
theorem of_flags (sound : Sound origin first dispatch) {failure : Option ModuleFailure}
    {dismissed : Bool} (unfailed : failure = none → dispatch.failure = none)
    (told : dispatch.dismissed = true → dismissed = true) :
    Sound origin first { dispatch with failure, dismissed } where
  accounted := sound.accounted.of_same rfl rfl rfl rfl rfl rfl
  conserved := sound.conserved.of_hands rfl (fun _ next found => ⟨next, found, rfl, rfl⟩) rfl
    (fun running => running) unfailed fun _ => ⟨0, add_zero _, fun _ _ => rfl⟩
  returning := sound.returning
  causal := sound.causal
  staffed := sound.staffed
  excused := sound.excused.of_drained told (fun _ module found drained => ⟨module, found, drained⟩)
    fun _ _ found _ => found

/-- **Ending all work keeps a state sound.** -/
theorem terminate (sound : Sound origin first dispatch) :
    Sound origin first dispatch.terminate.2 := by
  have accounted := sound.accounted.terminate
  unfold Dispatch.terminate at accounted ⊢
  split
  case isTrue => exact sound
  case isFalse ending =>
    rw [if_neg ending] at accounted
    refine ⟨accounted, ?_, sound.returning, sound.causal, sound.staffed, ?_⟩
    · refine sound.conserved.of_hands rfl ?_ rfl (fun impossible => by cases impossible)
        (fun unfailed => unfailed) fun _ => ⟨0, add_zero _, fun _ _ => rfl⟩
      intro id next found
      obtain ⟨before, before_found, rfl⟩ :=
        Option.map_eq_some_iff.mp (Array.getElem?_map.symm.trans found)
      exact ⟨before, before_found, rfl, rfl⟩
    · refine sound.excused.of_drained (fun told => told) ?_ fun _ _ found _ => found
      intro id module found drained
      refine ⟨{ module with queue := module.queue.close.2 }, ?_, ?_⟩
      · exact Array.getElem?_map.trans (by rw [found]; rfl)
      · exact Bool.and_eq_true _ _ ▸ ⟨rfl, (Bool.and_eq_true _ _ ▸ drained).2⟩

/-! ## Taking work -/

/-- Taking the oldest assignment of a queue, by a worker or by nobody. -/
theorem pop (sound : Sound origin first dispatch) {id : Nat} {module : Module} {chunk : Chunk}
    {rest : List Chunk} (found : dispatch.modules[id]? = some module)
    (waiting : module.queue.chunks = chunk :: rest) {workers : Array Worker}
    (others : ∀ other ≠ id, inHand { dispatch with workers } other = dispatch.inHand other)
    (gone : Multiset Task)
    (hands : id < dispatch.sink → inHand { dispatch with workers } id + gone =
      dispatch.inHand id + duties (module.tasks chunk))
    (kept_gone : dispatch.terminated = false → gone = 0)
    (kernels : ∀ id, inKernel { dispatch with workers } id = dispatch.inKernel id)
    (staffed : Staffed { dispatch with workers })
    (stay : ∀ (position : Nat) worker, workers[position]? = some worker →
      worker.activity = .exited → dispatch.workers[position]? = some worker) :
    Sound origin first { dispatch.setModule id (module.withWaiting rest) with workers } where
  accounted := sound.accounted.pop found waiting workers
  conserved := sound.conserved.take found waiting others hands kept_gone
  returning := sound.returning.of_same rfl rfl kernels
  causal := sound.causal
  staffed := staffed
  excused := by
    refine sound.excused.of_drained (fun told => told) ?_ stay
    intro other there there_found drained
    have looked := getElem?_setIfInBounds found (module.withWaiting rest) other
    split at looked
    case isFalse => exact ⟨there, looked.trans there_found, drained⟩
    case isTrue here =>
      -- A queue that has something to give is not drained.
      subst here
      obtain rfl : module = there := Option.some.inj (found.symm.trans there_found)
      have empty := (Bool.and_eq_true _ _ ▸ drained).2
      rw [waiting] at empty
      cases empty

/-- A worker whose activity changes, but not to being gone, leaves the gone where they were. -/
theorem stays_of_setActivity {position : Nat} {worker : Worker} {activity : Activity}
    (here : dispatch.workers[position]? = some worker) (staying : activity ≠ .exited)
    (other : Nat) (there : Worker)
    (found : (dispatch.setActivity position activity).workers[other]? = some there)
    (exited : there.activity = .exited) : dispatch.workers[other]? = some there := by
  rcases of_getElem?_setActivity here found with ⟨-, rfl⟩ | ⟨-, found⟩
  · exact absurd exited staying
  · exact found

theorem inKernel_eq_of_inside_eq {position : Nat} {worker : Worker} {activity : Activity}
    (here : dispatch.workers[position]? = some worker)
    (same : worker.activity.inside = activity.inside) (id : Nat) :
    (dispatch.setActivity position activity).inKernel id = dispatch.inKernel id := by
  by_cases own : id = worker.module
  · subst own
    have change := inKernel_setActivity here activity
    rw [same] at change
    exact add_right_cancel change
  · exact inKernel_setActivity_of_ne here activity own

/-! ## All steps -/

section Steps

variable {position : Nat} {worker : Worker} {chunk : Chunk} {rest : List Task}

/-- An idle worker that takes an assignment. -/
theorem took {module : Module} {waiting : List Chunk} (sound : Sound origin first dispatch)
    (here : dispatch.workers[position]? = some worker) (idle : worker.activity = .idle)
    (found : dispatch.modules[worker.module]? = some module)
    (chunks_eq : module.queue.chunks = chunk :: waiting) :
    Sound origin first ((dispatch.setModule worker.module (module.withWaiting waiting)).setActivity
      position (.working (module.tasks chunk))) := by
  have handed := inHand_setActivity here (.working (module.tasks chunk))
  simp only [idle, Activity.pending, add_zero] at handed
  show Sound origin first { dispatch.setModule worker.module (module.withWaiting waiting) with
    workers := (dispatch.setActivity position (.working (module.tasks chunk))).workers }
  refine sound.pop found chunks_eq ?_ 0 (fun _ => (add_zero _).trans handed) (fun _ => rfl)
    (inKernel_eq_of_inside_eq here (by rw [idle]; rfl)) ?_ (stays_of_setActivity here (by simp))
  · intro other different
    exact inHand_setActivity_of_ne here _ different
  · exact sound.staffed.setActivity here rfl rfl (List.Subset.refl _)
      (module.grounded_tasks chunk _)

/-- A worker that enters the kernel. -/
theorem entered (sound : Sound origin first dispatch) (laid : origin.Laid first expanded rank)
    (here : dispatch.workers[position]? = some worker)
    (next : worker.activity = .working (.call chunk :: rest)) :
    Sound origin first ((dispatch.observe (.called worker.module chunk)).setActivity position
      (.calling chunk rest)) := by
  obtain ⟨wired, worker_sound⟩ := sound.staffed position worker here
  simp only [Worker.Sound, next] at worker_sound
  obtain ⟨module, found, assignment, queued, asked⟩ := sound.asked_of_working laid rfl here next
  have call : Justified origin first dispatch.journal (.called worker.module chunk) :=
    ⟨sound.accounted.sink_eq ▸ wired, assignment, mem_queuedOn.mp queued,
      Module.bounds_of_call asked⟩
  show Sound origin first { dispatch.setActivity position (.calling chunk rest) with
    journal := .called worker.module chunk :: dispatch.journal, failure := dispatch.failure }
  refine sound.went here (List.subset_cons_self _ _) (sound.causal.cons call) ?_ ?_ ?_
    (fun unfailed => unfailed) 0 ?_ (fun _ _ => rfl) ?_ ?_ fun exited => by cases exited
  · funext id
    simp
  · funext id
    simp
  · intro id other
    simp [Ne.symm other]
  · rw [next, Activity.pending, Activity.pending, duties_cons_of_duty rfl]
    simp only [performed_cons, Observation.dutyOf, if_true, Option.toList_some,
      List.singleton_append, ← Multiset.cons_coe, ← Multiset.singleton_add]
    abel
  · rw [next]
    simp only [returnedOn_cons, calledOn_cons, Observation.returnOf, Observation.callOf,
      Activity.inside, if_true, Option.toList_some, Option.toList_none, List.nil_append,
      List.singleton_append, ← Multiset.cons_coe, ← Multiset.singleton_add]
    abel
  · simp only [Worker.Sound]
    exact Grounded.mono (fun slot => Or.imp_left (Returned.mono (List.subset_cons_self _ _)))
      worker_sound

/-- A return is justified by its call, whatever its result. -/
theorem call_justified (sound : Sound origin first dispatch) {result : Except KernelError Unit}
    (here : dispatch.workers[position]? = some worker)
    (inside : worker.activity = .calling chunk rest) :
    Justified origin first dispatch.journal (.returned worker.module chunk result) := by
  have entered := inside_le_inKernel here
  rw [inside, Activity.inside] at entered
  exact sound.returning.called (Multiset.mem_of_le entered (Multiset.mem_singleton_self _))

/-- A worker that leaves the kernel, whatever the result and whatever it gives up by that. -/
theorem left {result : Except KernelError Unit} {activity : Activity}
    {failure : Option ModuleFailure} (sound : Sound origin first dispatch)
    (here : dispatch.workers[position]? = some worker)
    (inside : worker.activity = .calling chunk rest) (outside : activity.inside = 0)
    (unfailed : failure = none → dispatch.failure = none) (gone : Multiset Task)
    (work : activity.pending + gone = duties rest) (kept_gone : failure = none → gone = 0)
    (worker_sound : Worker.Sound (.returned worker.module chunk result :: dispatch.journal)
      { worker with activity }) (staying : activity ≠ .exited) :
    Sound origin first { dispatch.setActivity position activity with
      journal := .returned worker.module chunk result :: dispatch.journal, failure } := by
  refine sound.went here (List.subset_cons_self _ _)
    (sound.causal.cons (sound.call_justified here inside)) ?_ ?_ ?_ unfailed gone ?_
    (fun _ well => kept_gone well) ?_ worker_sound fun exited => absurd exited staying
  · funext id
    simp
  · funext id
    simp
  · intro id other
    simp [Ne.symm other]
  · rw [inside, Activity.pending, add_assoc, work]
    rfl
  · rw [inside, outside]
    simp only [returnedOn_cons, calledOn_cons, Observation.returnOf, Observation.callOf,
      Activity.inside, if_true, Option.toList_some, Option.toList_none, List.nil_append,
      List.singleton_append, ← Multiset.cons_coe, ← Multiset.singleton_add]
    abel

/-- A worker that returns from the kernel. -/
theorem returned (sound : Sound origin first dispatch)
    (here : dispatch.workers[position]? = some worker)
    (inside : worker.activity = .calling chunk rest) :
    Sound origin first ((dispatch.observe (.returned worker.module chunk (.ok ()))).setActivity
      position (.working rest)) := by
  have worker_sound := (sound.staffed position worker here).2
  simp only [Worker.Sound, inside] at worker_sound
  show Sound origin first { dispatch.setActivity position (.working rest) with
    journal := .returned worker.module chunk (.ok ()) :: dispatch.journal
    failure := dispatch.failure }
  refine sound.left here inside rfl (fun unfailed => unfailed) 0 (add_zero _) (fun _ => rfl) ?_
    (by simp)
  simp only [Worker.Sound]
  refine Grounded.mono ?_ worker_sound
  rintro slot (before | covered)
  · exact before.mono (List.subset_cons_self _ _)
  · exact ⟨chunk, List.mem_cons_self, covered⟩

/-- A worker that leaves the kernel with an error, by which all work ends. -/
theorem failed {error : KernelError} (sound : Sound origin first dispatch)
    (here : dispatch.workers[position]? = some worker)
    (inside : worker.activity = .calling chunk rest) :
    Sound origin first
      (((dispatch.observe (.returned worker.module chunk (.error error))).setActivity position
        .idle).fail worker.module error) := by
  unfold fail
  refine terminate ?_
  show Sound origin first { dispatch.setActivity position .idle with
    journal := .returned worker.module chunk (.error error) :: dispatch.journal
    failure := dispatch.failure.or _ }
  -- The tasks that were left are lost, and the failure that says so is on record.
  refine sound.left here inside rfl ?_ (duties rest) (zero_add _) ?_ trivial (by simp)
  · intro unfailed
    exact (Option.or_eq_none_iff.mp unfailed).1
  · intro unfailed
    cases (Option.or_eq_none_iff.mp unfailed).2

/-- A worker that reports a piece. -/
theorem reported {target : Nat} {piece : Chunk} {last : Bool} {primed : Dispatch}
    (sound : Sound origin first dispatch) (laid : origin.Laid first expanded rank)
    (here : dispatch.workers[position]? = some worker)
    (next : worker.activity = .working (.report target piece :: rest))
    (done : dispatch.prime (some worker.module) target piece = (.ok last, primed)) :
    Sound origin first (primed.setActivity position (.working rest)) := by
  obtain ⟨module, after, released, found, delivers, rfl⟩ := sound.reports laid here next done
  obtain ⟨-, -, report⟩ := sound.next_report laid here next
  have worker_sound := (sound.staffed position worker here).2
  simp only [Worker.Sound, next] at worker_sound
  show Sound origin first
    { dispatch.delivered (some worker.module) target piece after released last with
      workers := (dispatch.setActivity position (.working rest)).workers }
  have sparing := sound.conserved.sparing_report sound.accounted laid
    (sound.accounted.laid_out found) here next
  refine sound.delivered laid found delivers report (fun _ => sparing) ?_
    (inKernel_eq_of_inside_eq here (by rw [next]; rfl)) ?_ (stays_of_setActivity here (by simp))
  · intro id
    show _ + (dispatch.setActivity position (.working rest)).inHand id = _
    by_cases own : id = worker.module
    · subst own
      have handed := inHand_setActivity here (.working rest)
      rw [next, Activity.pending, Activity.pending, duties_cons_of_duty rfl, ← add_assoc] at handed
      rw [performed_deliver, if_pos rfl, ← add_right_cancel handed, ← Multiset.cons_coe,
        ← Multiset.singleton_add]
      abel
    · rw [performed_deliver, if_neg (by simpa using Ne.symm own),
        inHand_setActivity_of_ne here _ own]
  · exact sound.staffed.setActivity here rfl rfl subset_deliver
      (Grounded.mono (fun slot returned => returned.mono subset_deliver) worker_sound.2)

end Steps

/-- **Every step of a worker keeps a state sound.** -/
theorem moves {step : Step} (sound : Sound origin first dispatch)
    (laid : origin.Laid first expanded rank) (moved : dispatch.Moves step after) :
    Sound origin first after := by
  cases moved with
  | took here idle found waiting => exact sound.took here idle found waiting
  | @dropped position worker module chunk rest here idle found waiting ended =>
      have no_worker : dispatch.terminated = false → duties (module.tasks chunk) = 0 := by
        intro running
        rw [ended] at running
        cases running
      show Sound origin first { dispatch.setModule worker.module (module.withWaiting rest) with
        workers := dispatch.workers }
      exact sound.pop found waiting (fun _ _ => rfl) _ (fun _ => rfl) no_worker (fun _ => rfl)
        sound.staffed (fun _ _ found _ => found)
  | entered here next => exact sound.entered laid here next
  | returned here inside => exact sound.returned here inside
  | failed here inside => exact sound.failed here inside
  | finished here done =>
      exact sound.went_on here 0 (by rw [done]; rfl) (fun _ => rfl) (by rw [done]; rfl) trivial
        fun exited => by cases exited
  | @passed position worker rest here next running =>
      have worker_sound := (sound.staffed position worker here).2
      simp only [Worker.Sound, next] at worker_sound
      exact sound.went_on here 0
        (by simp only [next, Activity.pending, duties_checkpoint, add_zero]) (fun _ => rfl)
        (by rw [next]; rfl) worker_sound fun exited => by cases exited
  | @stopped position worker rest here next ended =>
      have given_up : dispatch.terminated = false → duties rest = 0 := by
        intro running
        rw [ended] at running
        cases running
      exact sound.went_on here (duties rest)
        (by simp only [next, Activity.pending, duties_checkpoint, zero_add]) given_up
        (by rw [next]; rfl) trivial fun exited => by cases exited
  | @departed position worker module here idle found free =>
      exact sound.went_on here 0 (by rw [idle]; rfl) (fun _ => rfl) (by rw [idle]; rfl) trivial
        fun _ => free.imp_right fun drained => ⟨module, found, drained⟩
  | reported here next done => exact sound.reported laid here next done
  | crashed here next refused => exact (sound.not_refused laid here next refused).elim

end Sound

end Dispatch

end Mixnet
