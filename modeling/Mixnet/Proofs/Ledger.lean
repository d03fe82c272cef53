import Mixnet.Proofs.Delivery
import Mixnet.Proofs.Play

/-!
# Modules in agreement with the journal

All modules of a running graph agree with the journal of the run: each is the module that building
laid out, its accounting is that of the pieces reported to it, and its queue holds what is left of
the assignments queued for it.  Four kinds of change touch a module, and each of them keeps the
agreement.

## Main definitions

* `Dispatch.Accounted`: all modules agree with the journal

## Main statements

* `Dispatch.Accounted.pop`, `Dispatch.Accounted.delivered`, `Dispatch.Accounted.terminate`: taking
  work from a queue, delivering a report and ending all work keep the agreement
-/

namespace Mixnet

open Journal

/-! ## What work does not change -/

namespace Module

variable {module next : Module}

theorem tasks_eq_of_fresh_eq (same : next.fresh = module.fresh) : next.tasks = module.tasks := by
  have of_fresh (any : Module) : any.fresh.tasks = any.tasks := rfl
  rw [← of_fresh next, same, of_fresh]

@[simp] theorem all_fresh (list : AssignmentList) : list.fresh.all = list.all := by
  rw [AssignmentList.all, AssignmentList.size_fresh]
  rfl

/-- Whether sizes fit is a matter of what work does not change. -/
theorem Fits.of_fresh {expanded : Nat} (fits : module.fresh.Fits expanded) :
    module.Fits expanded where
  chunk_pos := fits.chunk_pos
  chunk_dvd := fits.chunk_dvd
  call_pos := fits.call_pos
  call_dvd := fits.call_dvd
  unit_eq := fits.unit_eq
  sized := fits.sized.of_fresh_eq (AssignmentList.fresh_fresh _).symm
  roomy := by
    have roomy := fits.roomy
    rwa [fresh, AssignmentList.size_fresh] at roomy
  distinct := fits.distinct

theorem Fits.of_fresh_eq {expanded : Nat} (fits : module.Fits expanded)
    (same : next.fresh = module.fresh) : next.Fits expanded := by
  refine .of_fresh ?_
  rw [same]
  exact {
    chunk_pos := fits.chunk_pos
    chunk_dvd := fits.chunk_dvd
    call_pos := fits.call_pos
    call_dvd := fits.call_dvd
    unit_eq := fits.unit_eq
    sized := fits.sized.of_fresh_eq (AssignmentList.fresh_fresh _)
    roomy := by
      rw [fresh, AssignmentList.size_fresh]
      exact fits.roomy
    distinct := fits.distinct }

/-- A module before any work has released nothing, and has something to do. -/
theorem Fits.unworked {expanded : Nat} (fits : module.Fits expanded) (expanded_pos : 0 < expanded)
    (fresh_eq : module.fresh = module) (accounts : module.assignments.Accounts []) :
    module.assignments.completed = 0 ∧ module.assignments.released = [] ∧
      module.queue.chunks = [] ∧ module.queue.closed = false ∧ 0 < module.assignments.size := by
  have size_pos : 0 < module.assignments.size := by
    apply Nat.pos_of_ne_zero
    intro zero
    apply expanded_pos.ne
    rw [← fits.sized.covering, zero, Nat.zero_mul]
  have primed_eq : module.assignments.primed = 0 := by rw [← fresh_eq]; rfl
  refine ⟨by rw [← fresh_eq]; rfl, ?_, by rw [← fresh_eq]; rfl, by rw [← fresh_eq]; rfl, size_pos⟩
  have none_full : module.assignments.full = [] :=
    List.length_eq_zero_iff.mp (accounts.primed_eq.symm.trans primed_eq)
  rw [AssignmentList.released, none_full, ite_self]

/-- A module before any work agrees with a journal in which nothing is said about it. -/
theorem Fits.kept {expanded : Nat} (fits : module.Fits expanded) (expanded_pos : 0 < expanded)
    (fresh_eq : module.fresh = module) (accounts : module.assignments.Accounts []) :
    module.Kept false [] [] := by
  obtain ⟨completed_eq, released_eq, chunks_eq, closed_eq, size_pos⟩ :=
    fits.unworked expanded_pos fresh_eq accounts
  refine ⟨accounts, completed_eq, ?_, ?_, ?_, ?_⟩
  · rw [released_eq]
  · rw [released_eq]
    exact fun _ => .nil
  · rw [chunks_eq]
  · rw [closed_eq, completed_eq]
    simp [size_pos.ne]

/-- Less may wait than was queued. -/
theorem Kept.withWaiting {terminated : Bool} {received queued rest : List Chunk}
    (kept : module.Kept terminated received queued) (fewer : rest.Sublist module.queue.chunks) :
    (module.withWaiting rest).Kept terminated received queued :=
  ⟨kept.accounts, kept.completed_eq, kept.queued_sub, kept.queued_all,
    fewer.subperm.trans kept.waiting_sub, kept.closed_iff⟩

/-- Once work has been ended the queue is closed. -/
theorem Kept.ended {terminated : Bool} {received queued : List Chunk}
    (kept : module.Kept terminated received queued) :
    Kept { module with queue := module.queue.close.2 } true received queued := by
  refine ⟨kept.accounts, kept.completed_eq, kept.queued_sub, ?_, kept.waiting_sub, ?_⟩
  · intro impossible
    cases impossible
  · simp [ChunkQueue.close]

end Module

namespace Dispatch

variable {dispatch origin : Dispatch} {first expanded : Nat} {rank : Nat → Nat}

theorem getElem?_setIfInBounds {modules : Array Module} {position : Nat} {module : Module}
    (found : modules[position]? = some module) (next : Module) (other : Nat) :
    (modules.setIfInBounds position next)[other]? =
      if other = position then some next else modules[other]? := by
  obtain ⟨inside, -⟩ := Array.getElem?_eq_some_iff.mp found
  by_cases same : other = position
  · rw [if_pos same, same, Array.getElem?_setIfInBounds_self_of_lt inside]
  · rw [if_neg same, Array.getElem?_setIfInBounds_ne (Ne.symm same)]

/-- A position of modules one of which was replaced holds the new one, or what it held before. -/
theorem of_getElem?_setIfInBounds {modules : Array Module} {position other : Nat}
    {module next there : Module} (found : modules[position]? = some module)
    (there_found : (modules.setIfInBounds position next)[other]? = some there) :
    other = position ∧ there = next ∨ other ≠ position ∧ modules[other]? = some there := by
  rw [getElem?_setIfInBounds found] at there_found
  split at there_found
  case isTrue here =>
    injection there_found with same
    exact Or.inl ⟨here, same.symm⟩
  case isFalse elsewhere => exact Or.inr ⟨elsewhere, there_found⟩

/-- A module replaced by one that differs in work only leaves the frame as it was. -/
theorem map_fresh_setIfInBounds {modules : Array Module} {position : Nat} {module next : Module}
    (found : modules[position]? = some module) (same : next.fresh = module.fresh) :
    (modules.setIfInBounds position next).map Module.fresh = modules.map Module.fresh := by
  apply Array.ext_getElem?
  intro other
  rw [Array.getElem?_map, Array.getElem?_map, getElem?_setIfInBounds found]
  split
  case isTrue here => rw [here, found, Option.map_some, Option.map_some, same]
  case isFalse => rfl

/-! ## The agreement -/

/-- Every module is the one that building laid out, and agrees with the journal; the graph is
complete if the sink has queued everything. -/
structure Accounted (origin dispatch : Dispatch) : Prop where
  frame : dispatch.modules.map Module.fresh = origin.modules
  sink_eq : dispatch.sink = origin.sink
  kept : ∀ (id : Nat) module, dispatch.modules[id]? = some module →
    module.Kept dispatch.terminated (reportsTo dispatch.journal id) (queuedOn dispatch.journal id)
  complete_iff : ∀ module, dispatch.modules[dispatch.sink]? = some module →
    (dispatch.complete = true ↔ module.assignments.completed = module.assignments.size)

/-- A report makes its target complete if it was so before, or if the report was the last. -/
theorem Delivers.complete_iff {source : Option Nat} {target : Nat} {piece : Chunk}
    {module next : Module} {released : List Chunk} {last : Bool}
    (delivers : dispatch.Delivers expanded source target piece module next released last)
    (kept : module.Kept dispatch.terminated (reportsTo dispatch.journal target)
      (queuedOn dispatch.journal target)) :
    module.assignments.completed = module.assignments.size ∨ last = true ↔
      next.assignments.completed = next.assignments.size := by
  obtain ⟨size_eq, -, -, -⟩ := AssignmentList.eq_of_fresh_eq
    (congrArg Module.assignments delivers.fresh_eq)
  have counted : next.assignments.completed =
      module.assignments.completed + released.length := by
    rw [delivers.kept.completed_eq, kept.completed_eq, List.length_append, List.length_reverse,
      Nat.add_comm]
  rw [delivers.last_eq, Bool.and_eq_true, decide_eq_true_eq, decide_eq_true_eq, size_eq]
  by_cases some_released : released = []
  · simp [counted, some_released]
  · constructor
    · rintro (complete | ⟨-, reached⟩)
      · -- A module that has queued everything is closed, and takes nothing more.
        have queue_eq := delivers.closed_of_closed (kept.closed_iff.mpr (Or.inr complete))
        have chunks_eq := delivers.chunks_eq
        rw [queue_eq] at chunks_eq
        exact absurd (List.self_eq_append_right.mp chunks_eq) some_released
      · exact reached
    · intro reached
      exact Or.inr ⟨some_released, reached⟩

namespace Accounted

theorem laid_out (accounted : Accounted origin dispatch) {id : Nat} {module : Module}
    (found : dispatch.modules[id]? = some module) :
    origin.modules[id]? = some module.fresh := by
  rw [← accounted.frame, Array.getElem?_map, found, Option.map_some]

theorem exists_of_origin (accounted : Accounted origin dispatch) {id : Nat} {before : Module}
    (found : origin.modules[id]? = some before) :
    ∃ module, dispatch.modules[id]? = some module ∧ module.fresh = before := by
  rw [← accounted.frame, Array.getElem?_map] at found
  exact Option.map_eq_some_iff.mp found

theorem fits (accounted : Accounted origin dispatch) (laid : origin.Laid first expanded rank)
    {id : Nat} {module : Module} (found : dispatch.modules[id]? = some module) :
    module.Fits expanded :=
  .of_fresh (laid.fits id _ (accounted.laid_out found))

/-- **At the beginning** nothing has been reported and nothing queued. -/
theorem initial (laid : origin.Laid first expanded rank) : Accounted origin origin := by
  have untouched := laid.untouched
  have frame : origin.modules.map Module.fresh = origin.modules := by
    apply Array.ext_getElem?
    intro id
    rw [Array.getElem?_map]
    cases found : origin.modules[id]? with
    | none => rfl
    | some module => rw [Option.map_some, (laid.unworked id module found).1]
  have journal_eq : origin.journal = [] := by rw [untouched]; rfl
  have running : origin.terminated = false := by rw [untouched]; rfl
  have incomplete : origin.complete = false := by rw [untouched]; rfl
  refine ⟨frame, rfl, ?_, ?_⟩
  · intro id module found
    obtain ⟨fresh_eq, accounts⟩ := laid.unworked id module found
    rw [journal_eq, running]
    exact (laid.fits id module found).kept laid.expanded_pos fresh_eq accounts
  · intro module found
    obtain ⟨fresh_eq, accounts⟩ := laid.unworked _ module found
    obtain ⟨completed_eq, -, -, -, size_pos⟩ :=
      (laid.fits _ module found).unworked laid.expanded_pos fresh_eq accounts
    rw [incomplete, completed_eq]
    simp [size_pos.ne]

/-- Workers and calls are no concern of the modules. -/
theorem of_same {after : Dispatch} (accounted : Accounted origin dispatch)
    (modules_eq : after.modules = dispatch.modules) (sink_eq : after.sink = dispatch.sink)
    (terminated_eq : after.terminated = dispatch.terminated)
    (complete_eq : after.complete = dispatch.complete)
    (reports_eq : reportsTo after.journal = reportsTo dispatch.journal)
    (queued_eq : queuedOn after.journal = queuedOn dispatch.journal) :
    Accounted origin after where
  frame := modules_eq ▸ accounted.frame
  sink_eq := sink_eq.trans accounted.sink_eq
  kept := by
    rw [modules_eq, terminated_eq, reports_eq, queued_eq]
    exact accounted.kept
  complete_iff := by
    rw [modules_eq, sink_eq, complete_eq]
    exact accounted.complete_iff

/-- Taking the oldest assignment from a queue. -/
theorem pop (accounted : Accounted origin dispatch) {id : Nat} {module : Module} {chunk : Chunk}
    {rest : List Chunk} (found : dispatch.modules[id]? = some module)
    (waiting : module.queue.chunks = chunk :: rest) (workers : Array Worker) :
    Accounted origin { dispatch.setModule id (module.withWaiting rest) with workers } := by
  have same : (module.withWaiting rest).fresh = module.fresh := rfl
  refine ⟨(map_fresh_setIfInBounds found same).trans accounted.frame, accounted.sink_eq, ?_, ?_⟩
  · intro other there there_found
    rcases of_getElem?_setIfInBounds found there_found with ⟨rfl, rfl⟩ | ⟨-, there_found⟩
    · refine (accounted.kept other module found).withWaiting ?_
      rw [waiting]
      exact List.sublist_cons_self chunk rest
    · exact accounted.kept other there there_found
  · intro there there_found
    change (dispatch.modules.setIfInBounds id _)[dispatch.sink]? = some there at there_found
    rcases of_getElem?_setIfInBounds found there_found with ⟨here, rfl⟩ | ⟨-, there_found⟩
    · exact accounted.complete_iff module (here ▸ found)
    · exact accounted.complete_iff there there_found

/-- Delivering a report. -/
theorem delivered {source : Option Nat} {target : Nat} {piece : Chunk} {module next : Module}
    {released : List Chunk} {last : Bool} (accounted : Accounted origin dispatch)
    (found : dispatch.modules[target]? = some module)
    (delivers : dispatch.Delivers expanded source target piece module next released last)
    (workers : Array Worker) :
    Accounted origin
      { dispatch.delivered source target piece next released last with workers } := by
  refine ⟨(map_fresh_setIfInBounds found delivers.fresh_eq).trans accounted.frame,
    accounted.sink_eq, ?_, ?_⟩
  · intro other there there_found
    show there.Kept dispatch.terminated (reportsTo (deliver dispatch.journal source target piece
      released) other) (queuedOn (deliver dispatch.journal source target piece released) other)
    rw [reportsTo_deliver, queuedOn_deliver]
    rcases of_getElem?_setIfInBounds found there_found with ⟨rfl, rfl⟩ | ⟨elsewhere, there_found⟩
    · rw [if_pos rfl, if_pos rfl]
      exact delivers.kept
    · rw [if_neg elsewhere, if_neg elsewhere]
      exact accounted.kept other there there_found
  · intro there there_found
    show (dispatch.complete || (last && decide (target = dispatch.sink))) = true ↔ _
    change (dispatch.modules.setIfInBounds target next)[dispatch.sink]? = some there at there_found
    rcases of_getElem?_setIfInBounds found there_found with ⟨here, rfl⟩ | ⟨elsewhere, there_found⟩
    · have complete_iff := accounted.complete_iff module (here ▸ found)
      rw [decide_eq_true here.symm, Bool.and_true, Bool.or_eq_true, complete_iff]
      exact delivers.complete_iff (accounted.kept target module found)
    · rw [decide_eq_false (Ne.symm elsewhere), Bool.and_false, Bool.or_false]
      exact accounted.complete_iff there there_found

/-- Ending all work. -/
theorem terminate (accounted : Accounted origin dispatch) :
    Accounted origin dispatch.terminate.2 := by
  unfold Dispatch.terminate
  split
  case isTrue => exact accounted
  case isFalse =>
    have closing (module : Module) :
        Module.fresh { module with queue := module.queue.close.2 } = module.fresh := rfl
    refine ⟨?_, accounted.sink_eq, ?_, ?_⟩
    · rw [Array.map_map, ← accounted.frame]
      exact Array.map_congr_left fun module _ => closing module
    · intro id module found
      obtain ⟨before, before_found, rfl⟩ :=
        Option.map_eq_some_iff.mp (Array.getElem?_map.symm.trans found)
      exact (accounted.kept id before before_found).ended
    · intro module found
      obtain ⟨before, before_found, rfl⟩ :=
        Option.map_eq_some_iff.mp (Array.getElem?_map.symm.trans found)
      exact accounted.complete_iff before before_found

end Accounted

end Dispatch

end Mixnet
