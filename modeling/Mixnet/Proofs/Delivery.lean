import Mixnet.Proofs.Blueprint
import Mixnet.Proofs.Journal

/-!
# Delivering a report

A report changes one module: its accounting, and its queue if assignments are released.  This file
says what a module has to agree with for that to go well, and what the report makes of the state.

## Main definitions

* `Module.Kept`: accounting and queue of a module agree with what was reported and queued
* `Dispatch.delivered`: a state after a report
* `Dispatch.Delivers`: a report that went well, and what it made of its target

## Main statements

* `Module.Kept.roomy`: a queue never holds more than its capacity
* `Dispatch.prime_delivers`: a report that the accounting accepts is delivered, and is never a fault
* `Dispatch.prime_accepted`: a report that did not fail was accepted by the accounting
-/

namespace Mixnet

open Journal

/-! ## A module in agreement with its journal -/

/-- The accounting and the queue of a module agree with the pieces it has received and with the
assignments that were queued for it.  Work can only be missing from the queue once everything has
been ended. -/
structure Module.Kept (module : Module) (terminated : Bool) (received queued : List Chunk) :
    Prop where
  accounts : module.assignments.Accounts received
  completed_eq : module.assignments.completed = queued.length
  queued_sub : queued.Subperm module.assignments.released
  queued_all : terminated = false → queued.Perm module.assignments.released
  waiting_sub : module.queue.chunks.Subperm queued
  closed_iff : module.queue.closed = true ↔
    terminated = true ∨ module.assignments.completed = module.assignments.size

namespace Module.Kept

variable {module : Module} {terminated : Bool} {received queued : List Chunk} {expanded : Nat}

theorem released_le (kept : module.Kept terminated received queued) :
    queued.length ≤ module.assignments.size := by
  have within := kept.queued_sub.length_le.trans
    (module.assignments.released_sublist_all.length_le)
  rwa [AssignmentList.length_all] at within

/-- What was queued are assignments. -/
theorem assigned (kept : module.Kept terminated received queued) {chunk : Chunk}
    (member : chunk ∈ queued) : chunk ∈ module.assignments.all :=
  module.assignments.released_sublist_all.subset (kept.queued_sub.subset member)

/-- Every assignment was queued at most once. -/
theorem nodup (kept : module.Kept terminated received queued) (fits : module.Fits expanded) :
    queued.Nodup := by
  obtain ⟨middle, same, within⟩ := kept.queued_sub
  exact same.nodup_iff.mp
    ((fits.sized.nodup_all.sublist module.assignments.released_sublist_all).sublist within)

/-- No slot was queued twice. -/
theorem coverage_le (kept : module.Kept terminated received queued) (fits : module.Fits expanded)
    (slot : Nat) : Chunk.coverage queued slot ≤ 1 := by
  calc Chunk.coverage queued slot
      ≤ Chunk.coverage module.assignments.released slot := kept.queued_sub.countP_le _
    _ ≤ Chunk.coverage module.assignments.all slot :=
        module.assignments.released_sublist_all.countP_le
    _ ≤ 1 := by
        rw [fits.sized.coverage_all]
        split <;> omega

/-- **A queue never holds more than its capacity.** -/
theorem roomy (kept : module.Kept terminated received queued) (fits : module.Fits expanded) :
    module.queue.chunks.length ≤ module.queue.capacity :=
  (kept.waiting_sub.length_le.trans kept.released_le).trans fits.roomy

/-- A module that has queued everything has found every assignment full. -/
theorem full_of_complete (kept : module.Kept terminated received queued)
    (fits : module.Fits expanded)
    (complete : module.assignments.completed = module.assignments.size) :
    ∀ index < module.assignments.size,
      module.assignments.countAt index = module.assignments.maxCount := by
  intro index inside
  -- As many assignments were let through as there are, so all of them were.
  have everything : module.assignments.released = module.assignments.all := by
    refine module.assignments.released_sublist_all.eq_of_length_le ?_
    rw [AssignmentList.length_all, ← complete, kept.completed_eq]
    exact kept.queued_sub.length_le
  have member : module.assignments.assignment index ∈ module.assignments.released := by
    rw [everything]
    exact AssignmentList.mem_all.mpr ⟨index, inside, rfl⟩
  unfold AssignmentList.released at member
  split at member
  case isTrue => cases member
  case isFalse =>
    obtain ⟨other, other_inside, same, full⟩ := AssignmentList.mem_full.mp member
    exact fits.sized.index_eq_of_eq inside other_inside same ▸ full

/-- A module that has queued everything has received every slot as often as it can be. -/
theorem coverage_of_complete {inputs : Nat} (kept : module.Kept terminated received queued)
    (fits : module.Fits expanded) (sized : module.assignments.Sized expanded inputs)
    (bounded : ∀ slot, Chunk.coverage received slot ≤ inputs)
    (complete : module.assignments.completed = module.assignments.size) {slot : Nat}
    (inside : slot < expanded) : Chunk.coverage received slot = inputs := by
  obtain ⟨index, index_lt, covered⟩ := sized.exists_covers inside
  exact kept.accounts.coverage_of_full sized bounded (AssignmentList.mem_full.mpr
    ⟨index, index_lt, rfl, kept.full_of_complete fits complete index index_lt⟩) covered

/-- A module that has found every assignment full has let all of them through, and has queued them
unless work was ended. -/
theorem complete_of_full (kept : module.Kept false received queued)
    (fits : module.Fits expanded)
    (full : ∀ index < module.assignments.size,
      module.assignments.countAt index = module.assignments.maxCount) :
    module.assignments.primed = module.assignments.size ∧
      module.assignments.released = module.assignments.all ∧
      module.assignments.completed = module.assignments.size := by
  have full_eq : module.assignments.full = module.assignments.all := by
    unfold AssignmentList.full AssignmentList.all
    congr 1
    rw [List.filter_eq_self]
    intro index member
    exact decide_eq_true (full index (List.mem_range.mp member))
  have primed_eq : module.assignments.primed = module.assignments.size := by
    rw [kept.accounts.primed_eq, full_eq, AssignmentList.length_all]
  have released_eq : module.assignments.released = module.assignments.all := by
    rw [AssignmentList.released, if_neg, full_eq]
    rw [primed_eq]
    exact Nat.not_lt.mpr fits.sized.threshold_le
  refine ⟨primed_eq, released_eq, ?_⟩
  rw [kept.completed_eq, (kept.queued_all rfl).length_eq, released_eq, AssignmentList.length_all]

/-- A module that has queued everything has nothing left to release. -/
theorem released_eq_nil (kept : module.Kept false received queued) {list : AssignmentList}
    {out : List Chunk} (size_eq : list.size = module.assignments.size)
    (gained : list.released.Perm (module.assignments.released ++ out))
    (complete : module.assignments.completed = module.assignments.size) : out = [] := by
  have bound := gained.length_eq ▸ list.released_sublist_all.length_le
  rw [AssignmentList.length_all, List.length_append, ← (kept.queued_all rfl).length_eq,
    ← kept.completed_eq, complete, size_eq] at bound
  exact List.length_eq_zero_iff.mp (by omega)

/-! ## A report that was accepted -/

variable {piece : Chunk} {out : List Chunk} {list : AssignmentList}

/-- A queue that is closed although something is released was closed by the end of all work; the
report then counts, and what it released is dropped. -/
theorem dropped (kept : module.Kept terminated received queued)
    (primed : module.assignments.Primed list expanded received piece out)
    (closed : module.queue.closed = true) (some_out : out ≠ []) :
    terminated = true ∧
      ({ module with assignments := list } : Module).Kept terminated (piece :: received)
        queued := by
  obtain ⟨size_eq, -, -, -⟩ := AssignmentList.eq_of_fresh_eq primed.fresh_eq
  have gained := primed.released_perm
  have ended : terminated = true := by
    by_contra running
    rw [Bool.not_eq_true] at running
    subst running
    rcases kept.closed_iff.mp closed with impossible | complete
    · cases impossible
    · exact some_out (kept.released_eq_nil size_eq gained complete)
  refine ⟨ended, primed.accounts, primed.completed_eq.trans kept.completed_eq, ?_, ?_,
    kept.waiting_sub, ?_⟩
  · exact kept.queued_sub.trans
      ((List.sublist_append_left _ _).subperm.trans gained.symm.subperm)
  · intro running
    rw [ended] at running
    cases running
  · simp only [closed, ended, true_or]

/-- Assignments queued by now and those released by a report were all released. -/
theorem queued_released (kept : module.Kept terminated received queued)
    (primed : module.assignments.Primed list expanded received piece out) :
    (out.reverse ++ queued).Perm (queued ++ out) ∧
      (out.reverse ++ queued).Subperm list.released := by
  have turned : (out.reverse ++ queued).Perm (queued ++ out) :=
    List.perm_append_comm.trans ((List.reverse_perm out).append_left _)
  have grown : (queued ++ out).Subperm (module.assignments.released ++ out) :=
    (List.subperm_append_right out).mpr kept.queued_sub
  exact ⟨turned, turned.subperm.trans (grown.trans primed.released_perm.symm.subperm)⟩

/-- What a report releases is never more than what has not been queued yet. -/
theorem room (kept : module.Kept terminated received queued)
    (primed : module.assignments.Primed list expanded received piece out) :
    list.completed + out.length ≤ list.size := by
  have bound := (kept.queued_released primed).2.length_le.trans
    list.released_sublist_all.length_le
  rw [AssignmentList.length_all, List.length_append, List.length_reverse] at bound
  rw [primed.completed_eq, kept.completed_eq]
  omega

/-- An open queue takes what a report releases, and is closed behind the last assignment. -/
theorem taken (kept : module.Kept terminated received queued)
    (primed : module.assignments.Primed list expanded received piece out)
    (opened : ¬ (module.queue.closed = true ∧ out ≠ [])) {last : Bool}
    (last_eq : last = decide (out.length ≠ 0 ∧ list.completed + out.length = list.size)) :
    ({ module with
        assignments := { list with completed := list.completed + out.length }
        queue := { module.queue with
          chunks := module.queue.chunks ++ out
          closed := module.queue.closed || last } } : Module).Kept terminated
      (piece :: received) (out.reverse ++ queued) := by
  obtain ⟨size_eq, -, -, -⟩ := AssignmentList.eq_of_fresh_eq primed.fresh_eq
  obtain ⟨turned, within⟩ := kept.queued_released primed
  have agrees := primed.accounts
  refine ⟨⟨agrees.count_eq, agrees.bounded, agrees.primed_eq, agrees.parked, agrees.opened⟩, ?_,
    within, ?_, ?_, ?_⟩
  · show list.completed + out.length = _
    rw [primed.completed_eq, kept.completed_eq, List.length_append, List.length_reverse,
      Nat.add_comm]
  · intro running
    exact turned.trans
      (((kept.queued_all running).append_right out).trans primed.released_perm.symm)
  · exact ((List.subperm_append_right out).mpr kept.waiting_sub).trans turned.symm.subperm
  · show (module.queue.closed || last) = true ↔
      terminated = true ∨ list.completed + out.length = list.size
    rw [Bool.or_eq_true, kept.closed_iff, last_eq, decide_eq_true_eq, primed.completed_eq, size_eq]
    by_cases some_out : out = []
    · simp [some_out]
    · -- Something is released, so the queue was open: work goes on, and was not complete.
      have was_open : ¬ module.queue.closed = true := fun closed => opened ⟨closed, some_out⟩
      rw [kept.closed_iff, not_or, Bool.not_eq_true] at was_open
      obtain ⟨running, incomplete⟩ := was_open
      simp [some_out, running, incomplete]

end Module.Kept

/-! ## The state after a report -/

namespace Dispatch

variable {dispatch after : Dispatch} {source : Option Nat} {target : Nat} {piece : Chunk}
  {module : Module} {expanded inputs : Nat}

/-- A state after a report that left its target as `next` and put `released` into its queue; `last`
says that this was everything. -/
def delivered (dispatch : Dispatch) (source : Option Nat) (target : Nat) (piece : Chunk)
    (next : Module) (released : List Chunk) (last : Bool) : Dispatch :=
  { dispatch with
    modules := dispatch.modules.setIfInBounds target next
    journal := deliver dispatch.journal source target piece released
    complete := dispatch.complete || (last && target = dispatch.sink) }

/-- A report that went well. -/
structure Delivers (dispatch : Dispatch) (expanded : Nat) (source : Option Nat) (target : Nat)
    (piece : Chunk) (module next : Module) (released : List Chunk) (last : Bool) : Prop where
  prime_eq : dispatch.prime source target piece =
    (.ok last, dispatch.delivered source target piece next released last)
  fresh_eq : next.fresh = module.fresh
  chunks_eq : next.queue.chunks = module.queue.chunks ++ released
  ascending : released.Pairwise (·.start < ·.start)
  closed_of_closed : module.queue.closed = true → next.queue = module.queue
  kept : next.Kept dispatch.terminated (piece :: reportsTo dispatch.journal target)
    (released.reverse ++ queuedOn dispatch.journal target)
  last_eq : last = (decide (released ≠ []) &&
    decide (next.assignments.completed = next.assignments.size))
  inside : piece.start = piece.stop ∨ piece.stop ≤ expanded

/-- A report that did not fail was accepted by the accounting of a module. -/
theorem prime_accepted {last : Bool}
    (done : dispatch.prime source target piece = (.ok last, after)) :
    ∃ module out list, dispatch.modules[target]? = some module ∧
      module.assignments.prime piece = (.ok out, list) := by
  unfold prime at done
  cases found : dispatch.modules[target]? with
  | none => simp [found] at done
  | some module =>
      cases accepted : module.assignments.prime piece with
      | mk outcome list =>
          cases outcome with
          | error fault => simp [found, accepted] at done
          | ok out => exact ⟨module, out, list, rfl, accepted⟩

/-- **A report that the accounting accepts is delivered.**  The queue of its target is open as long
as something can be released, and after termination nothing is put into it. -/
theorem prime_delivers {out : List Chunk} {list : AssignmentList}
    (found : dispatch.modules[target]? = some module)
    (sized : module.assignments.Sized expanded inputs)
    (kept : module.Kept dispatch.terminated (reportsTo dispatch.journal target)
      (queuedOn dispatch.journal target))
    (accepted : module.assignments.prime piece = (.ok out, list)) (source : Option Nat) :
    ∃ next released last,
      dispatch.Delivers expanded source target piece module next released last := by
  have primed := AssignmentList.prime_spec sized kept.accounts accepted
  by_cases full : module.queue.closed = true ∧ out ≠ []
  · -- The queue is closed although something is released: everything has been ended.
    obtain ⟨closed, some_out⟩ := full
    obtain ⟨ended, next_kept⟩ := kept.dropped primed closed some_out
    refine ⟨{ module with assignments := list }, [], false, ?_, ?_, ?_, List.Pairwise.nil,
      fun _ => rfl, next_kept, rfl, primed.inside⟩
    · simp [prime, found, accepted, enqueue, closed, some_out, ended, delivered, deliver, setModule,
        observe]
    · simp only [Module.fresh, primed.fresh_eq]
    · exact (List.append_nil _).symm
  · -- The queue takes what is released.
    obtain ⟨last, last_eq⟩ : ∃ last, last =
        decide (out.length ≠ 0 ∧ list.completed + out.length = list.size) := ⟨_, rfl⟩
    have counted := AssignmentList.complete_eq (sized.of_fresh_eq primed.fresh_eq)
      (kept.room primed)
    rw [← last_eq] at counted
    have nothing_if_closed : module.queue.closed = true → out = [] := by
      intro closed
      by_contra some_out
      exact full ⟨closed, some_out⟩
    have passes : (module.queue.closed && !out.isEmpty) = false := by
      cases closed : module.queue.closed with
      | false => rfl
      | true => simp [nothing_if_closed closed]
    refine ⟨{ module with
        assignments := { list with completed := list.completed + out.length }
        queue := { module.queue with
          chunks := module.queue.chunks ++ out
          closed := module.queue.closed || last } },
      out, last, ?_, ?_, rfl, primed.ascending, ?_, kept.taken primed full last_eq, ?_,
      primed.inside⟩
    · unfold prime
      simp only [found, accepted]
      unfold enqueue
      simp only [passes, counted]
      cases last with
      | false => simp [delivered, deliver, setModule, observe, observeQueued]
      | true =>
          simp [delivered, deliver, setModule, observe, observeQueued, ChunkQueue.close]
          rfl
    · have counted_fresh : AssignmentList.fresh
          { list with completed := list.completed + out.length } = module.assignments.fresh :=
        primed.fresh_eq
      simp only [Module.fresh, counted_fresh]
    · intro closed
      simp [nothing_if_closed closed, last_eq]
    · rw [last_eq, Bool.decide_and]
      congr 1
      simp only [ne_eq, List.length_eq_zero_iff]

end Dispatch

end Mixnet
