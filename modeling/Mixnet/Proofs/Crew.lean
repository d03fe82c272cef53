import Mixnet.Proofs.Soundness

/-!
# The workers of a graph

Workers are hired once, when a graph is started, and every module of the wiring gets its own.  Steps
change what they do, but not who they are.

## Main definitions

* `Dispatch.roster`: the workers by module and number
* `Dispatch.crew`: the workers that a graph starts with

## Main statements

* `Dispatch.Moves.steady`, `Dispatch.Moves.calm`: what steps leave alone
* `Dispatch.Sound.start`: starting the workers keeps a state sound
-/

namespace Mixnet

open Journal

namespace Dispatch

variable {origin dispatch after : Dispatch} {first expanded : Nat} {rank : Nat → Nat}

/-- The workers of a graph by module and number. -/
def roster (dispatch : Dispatch) : List (Nat × Nat) :=
  dispatch.workers.toList.map fun worker => (worker.module, worker.thread)

@[simp] theorem roster_setActivity (position : Nat) (activity : Activity) :
    (dispatch.setActivity position activity).roster = dispatch.roster := by
  -- Changing an activity changes no module and no number.
  have by_list (workers : List Worker) (position : Nat) :
      (workers.modify position fun worker => { worker with activity }).map
          (fun worker => (worker.module, worker.thread)) =
        workers.map fun worker => (worker.module, worker.thread) := by
    induction workers generalizing position with
    | nil => simp
    | cons head rest ih => cases position <;> simp [ih]
  rw [roster, roster, ← by_list dispatch.workers.toList position, ← Array.toList_modify]
  rfl

/-! ## What steps leave alone -/

theorem terminate_eq (dispatch : Dispatch) :
    dispatch.terminate.2.workers = dispatch.workers ∧
      dispatch.terminate.2.journal = dispatch.journal ∧
      dispatch.terminate.2.dismissed = dispatch.dismissed ∧
      (dispatch.terminated = true → dispatch.terminate.2.terminated = true) := by
  unfold terminate
  split
  · exact ⟨rfl, rfl, rfl, fun ended => ended⟩
  · exact ⟨rfl, rfl, rfl, fun _ => rfl⟩

theorem fail_eq (dispatch : Dispatch) (module : Nat) (error : KernelError) :
    (dispatch.fail module error).workers = dispatch.workers ∧
      (dispatch.fail module error).journal = dispatch.journal ∧
      (dispatch.fail module error).dismissed = dispatch.dismissed ∧
      (dispatch.terminated = true → (dispatch.fail module error).terminated = true) :=
  terminate_eq _

/-- A step hires and dismisses nobody, and takes back no termination. -/
theorem Moves.steady {step : Step} (sound : Sound origin first dispatch)
    (laid : origin.Laid first expanded rank) (moved : dispatch.Moves step after) :
    after.roster = dispatch.roster ∧ after.dismissed = dispatch.dismissed ∧
      (dispatch.terminated = true → after.terminated = true) ∧
      reportsTo after.journal first = reportsTo dispatch.journal first := by
  cases moved with
  | took => exact ⟨roster_setActivity _ _, rfl, fun ended => ended, rfl⟩
  | dropped => exact ⟨rfl, rfl, fun ended => ended, rfl⟩
  | entered =>
      refine ⟨roster_setActivity _ _, rfl, fun ended => ended, ?_⟩
      show reportsTo (.called _ _ :: dispatch.journal) first = _
      simp
  | returned =>
      refine ⟨roster_setActivity _ _, rfl, fun ended => ended, ?_⟩
      show reportsTo (.returned _ _ _ :: dispatch.journal) first = _
      simp
  | @failed position worker chunk rest error here inside =>
      obtain ⟨workers_eq, journal_eq, dismissed_eq, stays⟩ := fail_eq
        ((dispatch.observe (.returned worker.module chunk (.error error))).setActivity position
          .idle) worker.module error
      refine ⟨?_, dismissed_eq, stays, ?_⟩
      · rw [roster, workers_eq]
        exact roster_setActivity position .idle
      · rw [journal_eq]
        show reportsTo (.returned _ _ _ :: dispatch.journal) first = _
        simp
  | finished => exact ⟨roster_setActivity _ _, rfl, fun ended => ended, rfl⟩
  | passed => exact ⟨roster_setActivity _ _, rfl, fun ended => ended, rfl⟩
  | stopped => exact ⟨roster_setActivity _ _, rfl, fun ended => ended, rfl⟩
  | departed => exact ⟨roster_setActivity _ _, rfl, fun ended => ended, rfl⟩
  | @reported position target worker piece rest last primed here next done =>
      obtain ⟨module, after, released, found, delivers, rfl⟩ := sound.reports laid here next done
      obtain ⟨⟨receiver, receiver_found, input⟩, -, -⟩ := sound.next_report laid here next
      refine ⟨roster_setActivity _ _, rfl, fun ended => ended, ?_⟩
      -- A module that knows the reporter as an input is not the first.
      have inner : first ≠ target := by
        intro same
        have no_inputs := (laid.entrance target _ (sound.accounted.laid_out receiver_found)).mpr
          same.symm
        exact List.ne_nil_of_mem input no_inputs
      show reportsTo (deliver dispatch.journal _ target piece released) first = _
      rw [reportsTo_deliver, if_neg inner]
  | crashed here next refused => exact (sound.not_refused laid here next refused).elim

/-- Only a failing kernel ends work or leaves a failure. -/
theorem Moves.calm {step : Step} (sound : Sound origin first dispatch)
    (laid : origin.Laid first expanded rank) (moved : dispatch.Moves step after)
    (calm : (Graph.Event.work step).Calm) :
    after.terminated = dispatch.terminated ∧ after.failure = dispatch.failure := by
  cases moved with
  | failed => cases calm
  | @reported position target worker piece rest last primed here next done =>
      obtain ⟨module, after, released, found, delivers, rfl⟩ := sound.reports laid here next done
      exact ⟨rfl, rfl⟩
  | crashed here next refused => exact (sound.not_refused laid here next refused).elim
  | _ => exact ⟨rfl, rfl⟩

end Dispatch

/-! ## The workers of a graph -/

namespace Graph

/-- Workers start idle, each at a module that has a place for it. -/
theorem mem_workersFrom {position : Nat} {modules : List Module} {worker : Worker}
    (member : worker ∈ workersFrom position modules) :
    worker.activity = .idle ∧ ∃ index module, modules[index]? = some module ∧
      worker.module = position + index ∧ worker.thread < module.threads := by
  induction modules generalizing position with
  | nil => cases member
  | cons module rest ih =>
      rcases List.mem_append.mp member with here | later
      · obtain ⟨thread, thread_mem, rfl⟩ := List.mem_map.mp here
        exact ⟨rfl, 0, module, rfl, rfl, List.mem_range.mp thread_mem⟩
      · obtain ⟨idle, index, other, found, module_eq, places⟩ := ih later
        exact ⟨idle, index + 1, other, found, by omega, places⟩

/-- Every module with a place has a worker. -/
theorem exists_mem_workersFrom {position index : Nat} {modules : List Module} {module : Module}
    (found : modules[index]? = some module) (places : 0 < module.threads) :
    ∃ worker ∈ workersFrom position modules, worker.module = position + index := by
  induction modules generalizing position index with
  | nil => cases found
  | cons head rest ih =>
      cases index with
      | zero =>
          injection found with found
          subst found
          refine ⟨⟨position, 0, .idle⟩, ?_, rfl⟩
          exact List.mem_append_left _ (List.mem_map.mpr ⟨0, List.mem_range.mpr places, rfl⟩)
      | succ index =>
          obtain ⟨worker, member, module_eq⟩ : ∃ worker ∈ workersFrom (position + 1) rest,
              worker.module = position + 1 + index := ih found
          exact ⟨worker, List.mem_append_right _ member, by omega⟩

theorem workersFrom_map_fresh (position : Nat) (modules : List Module) :
    workersFrom position (modules.map Module.fresh) = workersFrom position modules := by
  induction modules generalizing position with
  | nil => rfl
  | cons module rest ih =>
      rw [List.map_cons, workersFrom, workersFrom, ih]
      rfl

end Graph

namespace Dispatch

variable {origin dispatch : Dispatch} {first expanded : Nat} {rank : Nat → Nat}

/-- The workers that a graph starts with. -/
def crew (origin : Dispatch) : List Worker := Graph.workersFrom 0 origin.modules.toList

theorem Accounted.crew_eq (accounted : Accounted origin dispatch) :
    Graph.workersFrom 0 dispatch.modules.toList = origin.crew := by
  rw [crew, ← accounted.frame, Array.toList_map, Graph.workersFrom_map_fresh]

/-- The first workers belong to modules of the wiring. -/
theorem Laid.crew_wired (laid : origin.Laid first expanded rank) {worker : Worker}
    (member : worker ∈ origin.crew) :
    worker.activity = .idle ∧ worker.module < origin.sink := by
  obtain ⟨idle, index, module, found, module_eq, places⟩ := Graph.mem_workersFrom member
  rw [Array.getElem?_toList] at found
  rw [Nat.zero_add] at module_eq
  exact ⟨idle, module_eq ▸ (laid.staffed index module found).mp (Nat.zero_lt_of_lt places)⟩

/-- **Starting the workers keeps a state sound.** -/
theorem Sound.start (sound : Sound origin first dispatch) (laid : origin.Laid first expanded rank)
    (unmanned : dispatch.workers = #[]) :
    Sound origin first { dispatch with workers := origin.crew.toArray } := by
  -- Nobody holds anything, neither the crew nor the workers there were before.
  have at_rest {M : Type} [AddCommMonoid M] (value : Worker → M)
      (nothing : ∀ worker : Worker, worker.activity = .idle → value worker = 0) :
      total { dispatch with workers := origin.crew.toArray } value = dispatch.total value := by
    have none_before : dispatch.total value = 0 := by
      rw [total, unmanned]
      rfl
    rw [none_before]
    apply List.sum_eq_zero
    intro held member
    obtain ⟨worker, worker_mem, rfl⟩ := List.mem_map.mp member
    exact nothing worker (laid.crew_wired worker_mem).1
  have hands (id : Nat) : inHand { dispatch with workers := origin.crew.toArray } id =
      dispatch.inHand id := at_rest _ fun worker idle => by simp [idle, Activity.pending]
  have kernels (id : Nat) : inKernel { dispatch with workers := origin.crew.toArray } id =
      dispatch.inKernel id := at_rest _ fun worker idle => by simp [idle, Activity.inside]
  have idle (position : Nat) (worker : Worker)
      (found : origin.crew.toArray[position]? = some worker) :
      worker.activity = .idle ∧ worker.module < origin.sink := by
    rw [List.getElem?_toArray] at found
    exact laid.crew_wired (List.mem_of_getElem? found)
  refine ⟨sound.accounted.of_same rfl rfl rfl rfl rfl rfl, ?_, ?_, sound.causal, ?_, ?_⟩
  · refine sound.conserved.of_hands rfl (fun _ next found => ⟨next, found, rfl, rfl⟩) rfl
      (fun running => running) (fun unfailed => unfailed) ?_
    intro id
    refine ⟨0, ?_, fun _ _ => rfl⟩
    rw [hands, add_zero]
  · exact sound.returning.of_same rfl rfl kernels
  · intro position worker found
    obtain ⟨at_ease, wired⟩ := idle position worker found
    refine ⟨sound.accounted.sink_eq ▸ wired, ?_⟩
    rw [Worker.Sound, at_ease]
    trivial
  · intro position worker found exited
    rw [(idle position worker found).1] at exited
    cases exited

end Dispatch

end Mixnet
