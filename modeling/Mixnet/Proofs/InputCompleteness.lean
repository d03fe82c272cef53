import Mixnet.Proofs.ExactlyOnce

/-!
# When input counts as complete

The first module counts the slots it is sent, assignment by assignment, and takes an assignment for
complete once the count has reached its size.  A count does not tell which slots were sent.  Where
no slot is sent twice, it is as good as the slots themselves: input is complete exactly if every
slot was sent.  Where a slot is sent twice, it stands in for one that was not sent, and nobody
notices.

## Main definitions

* `AssignmentList.Weighed`: every assignment was sent as many slots as it has

## Main statements

* `Graph.input_complete_iff`: input counts as complete exactly if it is weighed, which for input
  without repetitions means that every slot was sent
* `Graph.half_sent_twice`: half of a batch, sent twice, counts as complete input
-/

namespace Mixnet

open Journal

/-! ## Counting slots -/

namespace AssignmentList

variable {list : AssignmentList} {expanded : Nat} {chunks other : List Chunk}

/-- Every assignment was sent as many slots as it has, counting each as often as it was sent. -/
def Weighed (list : AssignmentList) (chunks : List Chunk) : Prop :=
  ∀ k < list.size, Chunk.weight chunks (k * list.assignmentSize) ((k + 1) * list.assignmentSize) =
    list.assignmentSize

theorem weighed_perm (same : chunks.Perm other) : list.Weighed chunks ↔ list.Weighed other := by
  unfold Weighed
  simp only [Chunk.weight_perm same]

/-- Input that covers every slot once is weighed. -/
theorem Sized.weighed (sized : list.Sized expanded 1)
    (once : ∀ slot < expanded, Chunk.coverage chunks slot = 1) : list.Weighed chunks := by
  intro k inside
  have even : Chunk.weight chunks (k * list.assignmentSize) ((k + 1) * list.assignmentSize) =
      ((k + 1) * list.assignmentSize - k * list.assignmentSize) * 1 := by
    apply Chunk.weight_eq_of_coverage_eq
    intro slot _ below
    apply once slot
    rw [← sized.covering]
    exact below.trans_le (Nat.mul_le_mul_right _ inside)
  rw [even, Nat.mul_one, Nat.succ_mul, Nat.add_sub_cancel_left]

/-- Weighed input without repetitions covers every slot once. -/
theorem Sized.coverage_of_weighed (sized : list.Sized expanded 1) (weighed : list.Weighed chunks)
    (bounded : ∀ slot, Chunk.coverage chunks slot ≤ 1) {slot : Nat} (inside : slot < expanded) :
    Chunk.coverage chunks slot = 1 := by
  obtain ⟨k, k_lt, covered⟩ := sized.exists_covers inside
  obtain ⟨start_eq, stop_eq⟩ := sized.assignment_bounds k_lt
  rw [Chunk.covers_iff, start_eq, stop_eq, ← Nat.succ_mul] at covered
  refine Chunk.coverage_eq_of_weight_eq (fun slot _ _ => bounded slot) ?_ covered.1 covered.2
  rw [weighed k k_lt, Nat.mul_one, Nat.succ_mul, Nat.add_sub_cancel_left]

end AssignmentList

namespace Module.Kept

variable {module : Module} {terminated : Bool} {received queued : List Chunk} {expanded : Nat}

/-- **A module with one input has queued everything exactly if what it received is weighed.** -/
theorem complete_iff (kept : module.Kept false received queued) (fits : module.Fits expanded)
    (sized : module.assignments.Sized expanded 1) :
    module.assignments.completed = module.assignments.size ↔
      module.assignments.Weighed received := by
  have count_eq (k : Nat) (inside : k < module.assignments.size) :
      module.assignments.countAt k = Chunk.weight received (k * module.assignments.assignmentSize)
        ((k + 1) * module.assignments.assignmentSize) := by
    rw [kept.accounts.count_eq k inside, AssignmentList.load, Nat.succ_mul]
  have max_eq : module.assignments.maxCount = module.assignments.assignmentSize := by
    rw [sized.maxCount_eq, Nat.mul_one]
  constructor
  · intro complete k inside
    rw [← count_eq k inside, kept.full_of_complete fits complete k inside, max_eq]
  · intro weighed
    refine (kept.complete_of_full fits ?_).2.2
    intro k inside
    rw [count_eq k inside, weighed k inside, max_eq]

/-- What a module with one input has queued has received its own length. -/
theorem weight_of_queued (kept : module.Kept terminated received queued)
    (sized : module.assignments.Sized expanded 1) {chunk : Chunk} (member : chunk ∈ queued) :
    Chunk.weight received chunk.start chunk.stop = chunk.length := by
  have released := kept.queued_sub.subset member
  unfold AssignmentList.released at released
  split at released
  case isTrue => cases released
  case isFalse =>
    obtain ⟨k, inside, rfl, full⟩ := AssignmentList.mem_full.mp released
    obtain ⟨start_eq, stop_eq⟩ := sized.assignment_bounds inside
    have weight_eq := (kept.accounts.count_eq k inside).symm.trans full
    rw [AssignmentList.load, sized.maxCount_eq, Nat.mul_one] at weight_eq
    rw [start_eq, stop_eq, weight_eq, sized.assignment_length inside]

end Module.Kept

/-- **A report to a module that is fed from outside is its last exactly if it makes what was
received weighed.**  An open queue means that something was missing, so completing is up to this
report. -/
theorem Dispatch.Delivers.answer_iff {dispatch : Dispatch} {expanded target : Nat} {chunk : Chunk}
    {before next : Module} {released : List Chunk} {answer : Bool}
    (delivers : dispatch.Delivers expanded none target chunk before next released answer)
    (fits : before.Fits expanded) (sized : before.assignments.Sized expanded 1)
    (kept : before.Kept false (reportsTo dispatch.journal target)
      (queuedOn dispatch.journal target)) (running : dispatch.terminated = false)
    (opened : before.queue.closed = false) :
    answer = true ↔ before.assignments.Weighed (chunk :: reportsTo dispatch.journal target) := by
  have list_fresh := congrArg Module.assignments delivers.fresh_eq
  obtain ⟨size_eq, unit_eq, -, -⟩ := AssignmentList.eq_of_fresh_eq list_fresh
  have next_fits : next.Fits expanded := fits.of_fresh_eq delivers.fresh_eq
  have next_kept := running ▸ delivers.kept
  have incomplete : before.assignments.completed ≠ before.assignments.size := by
    intro complete
    have closed := kept.closed_iff.mpr (Or.inr complete)
    rw [opened] at closed
    cases closed
  have completes_by_release : next.assignments.completed = next.assignments.size →
      released ≠ [] := by
    rintro complete rfl
    have same : next.assignments.completed = before.assignments.completed := by
      rw [next_kept.completed_eq, kept.completed_eq]
      rfl
    exact incomplete (same.symm.trans (complete.trans size_eq))
  have same_sizes : next.assignments.Weighed (chunk :: reportsTo dispatch.journal target) ↔
      before.assignments.Weighed (chunk :: reportsTo dispatch.journal target) := by
    rw [AssignmentList.Weighed, AssignmentList.Weighed, size_eq, unit_eq]
  rw [delivers.last_eq, Bool.and_eq_true, decide_eq_true_eq, decide_eq_true_eq, ← same_sizes,
    ← next_kept.complete_iff next_fits (sized.of_fresh_eq list_fresh)]
  exact ⟨fun both => both.2, fun complete => ⟨completes_by_release complete, complete⟩⟩

namespace Graph

variable {built graph after : Graph} {origin dispatch : Dispatch} {first last : Nat}
  {rank : Nat → Nat} {events : List Event} {module : Module}

namespace Reached

/-- The first module has received what was sent. -/
theorem kept_first (reached : Reached built origin first events graph dispatch)
    (running : dispatch.terminated = false) (found : dispatch.modules[first]? = some module) :
    module.Kept false (sent events).reverse (queuedOn dispatch.journal first) := by
  have kept := reached.sound.accounted.kept first module found
  rw [running, reached.received running] at kept
  exact kept

/-- **A send answers that it was the last exactly if it makes the input weighed.** -/
theorem answer_iff (building : Built built origin first last rank)
    (reached : Reached built origin first events graph dispatch)
    (running : dispatch.terminated = false) (found : dispatch.modules[first]? = some module)
    {chunk : Chunk} {answer : Bool} (sending : graph.send chunk = (.ok answer, after)) :
    answer = true ↔ module.assignments.Weighed (sent events ++ [chunk]) := by
  rcases reached.accepted building sending with ⟨ended, -, -⟩ |
    ⟨-, before, next, released, before_found, opened, delivers, -⟩
  · rw [running] at ended
    cases ended
  · obtain rfl : before = module := Option.some.inj (before_found.symm.trans found)
    have answered := delivers.answer_iff (reached.sound.accounted.fits building.laid found)
      (reached.sized_first building found)
      (running ▸ reached.sound.accounted.kept first before found) running opened
    have order : (chunk :: (sent events).reverse).Perm (sent events ++ [chunk]) := by
      rw [← List.reverse_concat']
      exact List.reverse_perm _
    rw [answered, reached.received running]
    exact AssignmentList.weighed_perm order

end Reached

/-- **When input counts as complete.**  As long as work goes on, the first module has queued all its
assignments exactly if the input is weighed, and a send answers that it was the last exactly if it
makes the input so; an assignment that was queued has been sent as many slots as it has.  Input that
covers every slot once is weighed.  Where no slot is sent twice, the converse holds as well: input
counts as complete exactly if every slot was sent once, and no assignment is queued before all of
its slots were sent. -/
theorem input_complete_iff {graph built after : Graph} {batch : Nat} {events : List Event}
    (wired : graph.Wired)
    (few : ∀ module, (graph.wiring.inputsOf module).length < Word.limit 32)
    (building : graph.build batch = .ok built) (played : built.play events = some after)
    (running : after.isTerminated = false) :
    ∃ dispatch first module, after.dispatch = some dispatch ∧ graph.wiring.first = some first ∧
      dispatch.modules[first]? = some module ∧
      (module.assignments.completed = module.assignments.size ↔
        module.assignments.Weighed (sent events)) ∧
      (∀ chunk answer next, after.send chunk = (.ok answer, next) →
        (answer = true ↔ module.assignments.Weighed (sent events ++ [chunk]))) ∧
      (∀ chunk ∈ queuedOn dispatch.journal first,
        Chunk.weight (sent events) chunk.start chunk.stop = chunk.length) ∧
      ((∀ slot < built.expandedSize, Chunk.coverage (sent events) slot = 1) →
        module.assignments.completed = module.assignments.size) ∧
      ((∀ slot, Chunk.coverage (sent events) slot ≤ 1) →
        (module.assignments.completed = module.assignments.size ↔
          ∀ slot < built.expandedSize, Chunk.coverage (sent events) slot = 1) ∧
        ∀ chunk ∈ queuedOn dispatch.journal first, ∀ slot, chunk.covers slot = true →
          Chunk.coverage (sent events) slot = 1) := by
  obtain ⟨wiring_eq, origin, first, last, rank, building⟩ := build_built wired few building
  obtain ⟨dispatch, reached⟩ := reached_of_play building played
  have going : dispatch.terminated = false := by
    rw [isTerminated, reached.dispatch_eq] at running
    exact running
  have first_le : first ≤ dispatch.sink := by
    rw [reached.sound.accounted.sink_eq]
    exact building.laid.first_lt.le
  obtain ⟨module, found⟩ := reached.sound.exists_module building.laid first_le
  have fits := reached.sound.accounted.fits building.laid found
  have sized := reached.sized_first building found
  have kept := reached.kept_first going found
  have turned : (sent events).reverse.Perm (sent events) := List.reverse_perm _
  have complete_iff : module.assignments.completed = module.assignments.size ↔
      module.assignments.Weighed (sent events) :=
    (kept.complete_iff fits sized).trans (AssignmentList.weighed_perm turned)
  have queued_weight : ∀ chunk ∈ queuedOn dispatch.journal first,
      Chunk.weight (sent events) chunk.start chunk.stop = chunk.length := by
    intro chunk member
    rw [← Chunk.weight_perm turned]
    exact kept.weight_of_queued sized member
  refine ⟨dispatch, first, module, reached.dispatch_eq, wiring_eq ▸ building.first_eq, found,
    complete_iff, ?_, queued_weight, ?_, ?_⟩
  · intro chunk answer next sending
    exact reached.answer_iff building going found sending
  · intro once
    exact complete_iff.mpr (sized.weighed once)
  · intro bounded
    refine ⟨?_, ?_⟩
    · rw [complete_iff]
      constructor
      · intro weighed slot inside
        exact sized.coverage_of_weighed weighed bounded inside
      · intro once
        exact sized.weighed once
    · intro chunk member slot covered
      obtain ⟨above, below⟩ := Chunk.covers_iff.mp covered
      refine Chunk.coverage_eq_of_weight_eq (fun slot _ _ => bounded slot) ?_ above below
      rw [queued_weight chunk member, Nat.mul_one]
      rfl

theorem input_complete_iff_sample : ∃ after, sampleBuilt.play sampleRun = some after ∧
    ∃ dispatch module, after.dispatch = some dispatch ∧ dispatch.modules[0]? = some module ∧
      module.assignments.completed = module.assignments.size := by
  have runs : ((sampleBuilt.play sampleRun).any fun graph => !graph.isTerminated) = true := by
    decide +kernel
  obtain ⟨after, played, running⟩ := (Option.any_eq_true _ _).mp runs
  rw [Bool.not_eq_true'] at running
  obtain ⟨dispatch, first, module, dispatch_eq, first_eq, found, -, -, -, completes, -⟩ :=
    input_complete_iff sample_wired sample_few sample_build played running
  obtain rfl : first = 0 := (Option.some.inj first_eq).symm
  refine ⟨after, played, dispatch, module, dispatch_eq, found, completes ?_⟩
  rw [sampleBuilt_expandedSize]
  decide +kernel

/-! ## Input sent twice -/

/-- A graph of one module, which works on the whole batch at once. -/
def lone : Graph :=
  { sample with
    name := "lone"
    wiring := {
      modules := [sampleModule "lone" 4 0]
      edges := []
      first := some 0
      last := some 0 } }

theorem lone_wired : lone.Wired := by
  have empty : (Graph.create "lone" lone.settings (.blank "nothing")).Wired :=
    .create (show GraphSettings.create 1 1 .zero = .ok lone.settings from rfl)
  have only := empty.addModule (show addModule _ (sampleModule "lone" 4 0) = .ok (0, _) from rfl)
  have entrance := only.setFirst (show setFirst _ 0 = .ok _ from rfl)
  exact entrance.setLast (show setLast _ 0 = .ok lone from rfl)

/-- It, built for four slots. -/
def loneBuilt : Graph := (lone.build 4).toOption.getD lone

/-- The first half of the batch. -/
def half : Chunk := { start := 0, stop := 2 }

/-- **Half of a batch, sent twice, counts as complete input.**  The second send answers that it was
the last, and the whole assignment waits for its kernel, although two of its slots were never
sent. -/
theorem half_sent_twice : lone.Wired ∧ lone.build 4 = .ok loneBuilt ∧ loneBuilt.expandedSize = 4 ∧
    ∃ before after dispatch module, loneBuilt.play [.send half] = some before ∧
      before.send half = (.ok true, after) ∧ after.dispatch = some dispatch ∧
      dispatch.modules[0]? = some module ∧
      module.assignments.completed = module.assignments.size ∧
      module.queue.chunks.map (fun chunk => (chunk.start, chunk.stop)) = [(0, 4)] ∧
      Chunk.coverage [half, half] 2 = 0 ∧ Chunk.coverage [half, half] 3 = 0 := by
  have runs : ((loneBuilt.play [.send half]).any fun before =>
      decide ((before.send half).1.toOption = some true) &&
        (before.send half).2.dispatch.any fun dispatch =>
          dispatch.modules[0]?.any fun module => decide
            (module.assignments.completed = module.assignments.size ∧
              module.queue.chunks.map (fun chunk => (chunk.start, chunk.stop)) =
                [(0, 4)])) = true := by
    decide +kernel
  obtain ⟨before, played, runs⟩ := (Option.any_eq_true _ _).mp runs
  rw [Bool.and_eq_true, decide_eq_true_eq] at runs
  obtain ⟨answers, runs⟩ := runs
  obtain ⟨dispatch, dispatch_eq, runs⟩ := (Option.any_eq_true _ _).mp runs
  obtain ⟨module, found, ends⟩ := (Option.any_eq_true _ _).mp runs
  obtain ⟨complete, waits⟩ := of_decide_eq_true ends
  have sends : before.send half = (.ok true, (before.send half).2) :=
    Prod.ext (eq_ok_of_toOption answers) rfl
  exact ⟨lone_wired, rfl, rfl, before, (before.send half).2, dispatch, module, played, sends,
    dispatch_eq, found, complete, waits, by decide, by decide⟩

end Graph

end Mixnet
