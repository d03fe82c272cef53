import Mixnet.Proofs.Completion
import Mixnet.Proofs.Gate
import Mixnet.Proofs.Output
import Mixnet.Proofs.Rounding

/-!
# Holding everything back

A threshold of one is meant to hold every assignment until all of them are full, and then to let all
of them through at once, in ascending order.  A list does so exactly if the number of its
assignments is not rounded down on its way into the threshold; otherwise the gate opens while some
assignments are still to be filled.  For a graph that hands on its output under such a threshold,
this means that the output leaves as a whole and in order, or not at all.

## Main definitions

* `AssignmentList.Reported`: what reports and counts make of a list
* `AssignmentList.Withholds`: a report releases everything if it fills the last assignment, and
  nothing otherwise
* `Graph.outputBounds`: the bounds of the whole output, in ascending order

## Main statements

* `AssignmentList.Accounts.prime_withheld`: what a report releases, if the threshold is the number
  of assignments
* `AssignmentList.withholds_iff`: which lists with a threshold of one hold everything back
* `AssignmentList.early_release`: the smallest list that does not
* `Graph.output_withheld`: which lists hold everything back, and what that means for the output of a
  graph
-/

namespace Mixnet

open Journal

namespace AssignmentList

open Binary32

variable {list before after : AssignmentList} {expanded inputs unit chunkSize : Nat}
  {pieces out : List Chunk} {chunk : Chunk}

/-! ## Reports and counts -/

/-- What reports make of a list, and counts of what they released, in any order.  The pieces are
those reported, the latest first. -/
inductive Reported (list : AssignmentList) : List Chunk → AssignmentList → Prop
  | begin : Reported list [] list
  | primed {pieces : List Chunk} {before after : AssignmentList} {chunk : Chunk} {out : List Chunk}
      (earlier : Reported list pieces before) (accepted : before.prime chunk = (.ok out, after)) :
      Reported list (chunk :: pieces) after
  | counted {pieces : List Chunk} {before after : AssignmentList} {count : Nat} {last : Bool}
      (earlier : Reported list pieces before)
      (done : before.complete count = (.ok last, after)) : Reported list pieces after

/-- A list that holds everything back: the report that fills the last assignment releases all of
them, in ascending order, and no other report releases any. -/
def Withholds (list : AssignmentList) : Prop :=
  ∀ pieces before chunk out after, list.Reported pieces before →
    before.prime chunk = (.ok out, after) →
      (after.AllFull ∧ ¬ before.AllFull → out = after.all) ∧
        (¬ (after.AllFull ∧ ¬ before.AllFull) → out = [])

/-- Counting changes the count of released assignments, and nothing else. -/
theorem complete_frame {count : Nat} {last : Bool}
    (done : list.complete count = (.ok last, after)) :
    after = { list with completed := after.completed } := by
  unfold complete at done
  split at done
  · injection done with _ same
    rw [← same]
  · dsimp only at done
    split at done
    · cases done
    · split at done
      · injection done with _ same
        rw [← same]
      · cases done

/-- **Reports keep the accounting in agreement**, and the sizes of the list. -/
theorem Reported.accounts (reported : list.Reported pieces after) (new : list.Accounts [])
    (sized : list.Sized expanded inputs) : after.Accounts pieces ∧ after.fresh = list.fresh := by
  induction reported with
  | begin => exact ⟨new, rfl⟩
  | primed _ accepted ih =>
      obtain ⟨agrees, fresh_eq⟩ := ih
      have spec := prime_spec (sized.of_fresh_eq fresh_eq) agrees accepted
      exact ⟨spec.accounts, spec.fresh_eq.trans fresh_eq⟩
  | counted _ done ih =>
      obtain ⟨agrees, fresh_eq⟩ := ih
      rw [complete_frame done]
      exact ⟨⟨agrees.count_eq, agrees.bounded, agrees.primed_eq, agrees.parked, agrees.opened⟩,
        fresh_eq⟩

/-! ## A threshold that is the number of assignments -/

/-- The assignments are listed in ascending order. -/
theorem Sized.ascending_all (sized : list.Sized expanded inputs) :
    list.all.Pairwise (·.start < ·.start) := by
  rw [all, List.pairwise_map]
  refine List.pairwise_lt_range.imp_of_mem ?_
  intro left right left_mem right_mem less
  rw [(sized.assignment_bounds (List.mem_range.mp left_mem)).1,
    (sized.assignment_bounds (List.mem_range.mp right_mem)).1]
  exact Nat.mul_lt_mul_of_pos_right less sized.positive

/-- Assignments in ascending order are determined by which they are. -/
theorem eq_of_perm_of_ascending {left right : List Chunk} (same : left.Perm right)
    (left_ascending : left.Pairwise (·.start < ·.start))
    (right_ascending : right.Pairwise (·.start < ·.start)) : left = right := by
  refine same.eq_of_pairwise ?_ left_ascending right_ascending
  intro first second _ _ before behind
  exact absurd before (Nat.lt_asymm behind)

theorem all_eq_of_fresh_eq (same : after.fresh = list.fresh) : after.all = list.all := by
  rw [← Module.all_fresh after, same, Module.all_fresh]

/-- What a list has let through, if the threshold is the number of assignments: all of them, or
none. -/
theorem Accounts.released_cases (accounts : list.Accounts pieces)
    (whole : list.threshold = list.size) :
    list.AllFull ∧ list.released = list.all ∨ ¬ list.AllFull ∧ list.released = [] := by
  have primed_eq := accounts.primed_eq
  by_cases every : list.AllFull
  · have length_eq := length_full_eq_iff.mpr every
    refine Or.inl ⟨every, ?_⟩
    rw [released, if_neg (by omega)]
    exact list.full_sublist_all.eq_of_length (length_eq.trans list.length_all.symm)
  · have short : list.full.length ≠ list.size := fun same => every (length_full_eq_iff.mp same)
    have within := list.length_full_le
    refine Or.inr ⟨every, ?_⟩
    rw [released, if_pos (by omega)]

/-- **A report releases everything if it fills the last assignment**, and nothing otherwise, if the
threshold is the number of assignments. -/
theorem Accounts.prime_withheld (accounts : before.Accounts pieces)
    (sized : before.Sized expanded inputs) (whole : before.threshold = before.size)
    (accepted : before.prime chunk = (.ok out, after)) :
    (after.AllFull ∧ ¬ before.AllFull → out = after.all) ∧
      (¬ (after.AllFull ∧ ¬ before.AllFull) → out = []) := by
  have spec := prime_spec sized accounts accepted
  have after_sized := sized.of_fresh_eq spec.fresh_eq
  obtain ⟨size_eq, -, -, threshold_eq⟩ := eq_of_fresh_eq spec.fresh_eq
  have gained := spec.released_perm
  -- What was let through before and what is released now are together all assignments, or none.
  rcases spec.accounts.released_cases (threshold_eq.trans (whole.trans size_eq.symm)) with
    ⟨filled, now⟩ | ⟨unfilled, now⟩
  · rcases accounts.released_cases whole with ⟨full, earlier⟩ | ⟨short, earlier⟩
    · refine ⟨fun both => absurd full both.2, fun _ => ?_⟩
      have length_eq := gained.length_eq
      rw [now, earlier, all_eq_of_fresh_eq spec.fresh_eq, List.length_append] at length_eq
      exact List.length_eq_zero_iff.mp (by omega)
    · refine ⟨fun _ => ?_, fun other => absurd ⟨filled, short⟩ other⟩
      rw [now, earlier, List.nil_append] at gained
      exact (eq_of_perm_of_ascending gained after_sized.ascending_all spec.ascending).symm
  · refine ⟨fun both => absurd both.1 unfilled, fun _ => ?_⟩
    rw [now] at gained
    exact (List.append_eq_nil_iff.mp gained.symm.eq_nil).2

/-! ## A threshold of one -/

theorem threshold_of_create {threshold : Binary32}
    (made : create expanded unit chunkSize inputs threshold = .ok list) :
    list.threshold = thresholdCount threshold list.size := by
  unfold create at made
  obtain ⟨-, -, made⟩ := Fault.bind_eq_ok.mp made
  obtain ⟨maxCount, -, made⟩ := Fault.bind_eq_ok.mp made
  injection made with made
  rw [← made]
  simp [size]

/-! ## The same slots over and over -/

theorem weight_replicate (chunk : Chunk) (times low high : Nat) :
    Chunk.weight (List.replicate times chunk) low high = times * chunk.overlap low high := by
  induction times with
  | zero => simp
  | succ times ih => rw [List.replicate_succ, Chunk.weight_cons, ih, Nat.succ_mul]

/-- The weights after the slots of the first `covered` assignments were reported `times` times. -/
theorem Accounts.countAt_front {covered times : Nat}
    (accounts : list.Accounts (List.replicate times chunk)) (start_eq : chunk.start = 0)
    (stop_eq : chunk.stop = covered * list.assignmentSize) {index : Nat}
    (inside : index < list.size) :
    list.countAt index = if index < covered then times * list.assignmentSize else 0 := by
  rw [accounts.count_eq index inside, load, weight_replicate, Chunk.overlap, start_eq, stop_eq,
    ← Nat.succ_mul, Nat.zero_max]
  split
  case isTrue front =>
    rw [Nat.min_eq_right (Nat.mul_le_mul_right _ front), Nat.succ_mul, Nat.add_sub_cancel_left]
  case isFalse behind =>
    have less := Nat.mul_le_mul_right list.assignmentSize (Nat.le_of_not_lt behind)
    rw [Nat.sub_eq_zero_of_le ((Nat.min_le_left _ _).trans less), Nat.mul_zero]

section Front

variable {covered times : Nat} (start_eq : chunk.start = 0)
  (stop_eq : chunk.stop = covered * list.assignmentSize)

include start_eq stop_eq

/-- As long as an input is missing, no assignment is full. -/
theorem Accounts.full_eq_nil (accounts : list.Accounts (List.replicate times chunk))
    (sized : list.Sized expanded inputs) (few : times < inputs) : list.full = [] := by
  rw [List.eq_nil_iff_forall_not_mem]
  intro chunk member
  obtain ⟨index, inside, -, full⟩ := mem_full.mp member
  have lighter : times * list.assignmentSize < list.maxCount := by
    rw [sized.maxCount_eq, Nat.mul_comm list.assignmentSize]
    exact Nat.mul_lt_mul_of_pos_right few sized.positive
  rw [accounts.countAt_front start_eq stop_eq inside] at full
  split at full <;> omega

/-- When no input is missing, the assignments in front are full. -/
theorem Accounts.le_length_full (accounts : list.Accounts (List.replicate inputs chunk))
    (sized : list.Sized expanded inputs) (within : covered ≤ list.size) :
    covered ≤ list.full.length := by
  have front_full : ∀ index ∈ List.range covered, list.countAt index = list.maxCount := by
    intro index member
    have front := List.mem_range.mp member
    rw [accounts.countAt_front start_eq stop_eq (front.trans_le within), if_pos front,
      sized.maxCount_eq, Nat.mul_comm]
  calc covered = (List.range covered).countP fun index => list.countAt index = list.maxCount := by
        rw [List.countP_eq_length.mpr (by simpa using front_full), List.length_range]
    _ ≤ (List.range list.size).countP fun index => list.countAt index = list.maxCount :=
        (List.range_sublist.mpr within).countP_le
    _ = list.full.length := list.length_full.symm

/-- The assignments behind stay empty. -/
theorem Accounts.not_allFull (accounts : list.Accounts (List.replicate times chunk))
    (sized : list.Sized expanded inputs) (short : covered < list.size) : ¬ list.AllFull := by
  intro every
  have full := every covered short
  rw [accounts.countAt_front start_eq stop_eq short, if_neg (Nat.lt_irrefl _)] at full
  exact sized.maxCount_pos.ne full

end Front

/-- A chunk that was not yet reported as often as there are inputs is accepted. -/
theorem Accounts.accepts_again {times : Nat}
    (accounts : list.Accounts (List.replicate times chunk)) (sized : list.Sized expanded inputs)
    (inside : chunk.stop ≤ expanded) (few : times < inputs) :
    ∃ out after, list.prime chunk = (.ok out, after) := by
  refine prime_accepts sized accounts (Or.inr inside) fun index _ => sized.load_le ?_ index
  intro slot
  refine List.countP_le_length.trans ?_
  rw [List.length_cons, List.length_replicate]
  exact few

theorem exists_reported (sized : list.Sized expanded inputs) (new : list.Accounts [])
    (inside : chunk.stop ≤ expanded) {times : Nat} (few : times ≤ inputs) :
    ∃ after, list.Reported (List.replicate times chunk) after := by
  induction times with
  | zero => exact ⟨list, .begin⟩
  | succ times ih =>
      obtain ⟨before, earlier⟩ := ih (Nat.le_of_succ_le few)
      obtain ⟨agrees, fresh_eq⟩ := earlier.accounts new sized
      obtain ⟨out, after, accepted⟩ :=
        agrees.accepts_again (sized.of_fresh_eq fresh_eq) inside few
      exact ⟨after, earlier.primed accepted⟩

/-- **A threshold below the number of assignments opens the gate too early.**  When every input has
reported as many assignments as the threshold asks for, and nothing else, they are released, while
the assignments behind them have no weight at all. -/
theorem releases_early (sized : list.Sized expanded inputs) (new : list.Accounts [])
    (positive : 0 < list.threshold) (short : list.threshold < list.size) {front : Chunk}
    (start_eq : front.start = 0) (stop_eq : front.stop = list.threshold * list.assignmentSize) :
    ∃ before out after, list.Reported (List.replicate (inputs - 1) front) before ∧
      before.prime front = (.ok out, after) ∧ out ≠ [] ∧ ¬ after.AllFull := by
  obtain ⟨times, rfl⟩ : ∃ times, inputs = times + 1 := Nat.exists_eq_add_one.mpr sized.inputs_pos
  have front_inside : front.stop ≤ expanded := by
    rw [stop_eq, ← sized.covering]
    exact Nat.mul_le_mul_right _ short.le
  obtain ⟨before, earlier⟩ := exists_reported sized new front_inside (Nat.le_succ times)
  obtain ⟨agrees, before_fresh⟩ := earlier.accounts new sized
  have before_sized := sized.of_fresh_eq before_fresh
  obtain ⟨out, after, accepted⟩ :=
    agrees.accepts_again before_sized front_inside (Nat.lt_succ_self times)
  have spec := prime_spec before_sized agrees accepted
  have after_fresh := spec.fresh_eq.trans before_fresh
  have after_sized := sized.of_fresh_eq after_fresh
  have now := spec.accounts
  rw [← List.replicate_succ] at now
  obtain ⟨-, before_unit, -, -⟩ := eq_of_fresh_eq before_fresh
  obtain ⟨size_eq, unit_eq, -, threshold_eq⟩ := eq_of_fresh_eq after_fresh
  rw [← size_eq] at short
  refine ⟨before, out, after, earlier, accepted, ?_,
    now.not_allFull start_eq (unit_eq ▸ stop_eq) after_sized short⟩
  -- One report before the end no assignment is full, and now those in front are.
  rintro rfl
  have none_full := agrees.full_eq_nil start_eq (before_unit ▸ stop_eq) before_sized
    (Nat.lt_succ_self times)
  have some_full := now.le_length_full start_eq (unit_eq ▸ stop_eq) after_sized short.le
  have opened : ¬ after.primed < after.threshold := by
    rw [now.primed_eq, threshold_eq]
    exact Nat.not_lt.mpr some_full
  have gained := spec.released_perm.length_eq
  rw [released, if_neg opened, released, none_full, ite_self, List.append_nil,
    List.length_nil] at gained
  omega

/-! ## Which lists hold everything back -/

/-- A list without room for any weight accepts empty reports only: they change and release
nothing. -/
theorem prime_of_no_room (positive : 0 < list.assignmentSize) (no_room : list.maxCount = 0)
    (unweighed : ∀ index, list.countAt index = 0) (accepted : list.prime chunk = (.ok out, after)) :
    out = [] ∧ after = list := by
  rcases Nat.eq_or_lt_of_le chunk.start_le_stop with empty | nonempty
  · rw [prime_of_empty empty] at accepted
    injection accepted with answer same
    injection answer with answer
    exact ⟨answer.symm, same.symm⟩
  · obtain ⟨fault, stored, refused⟩ := prime_refuses positive no_room unweighed nonempty
    rw [refused] at accepted
    cases accepted

/-- Such a list stays as it was made. -/
theorem Reported.of_no_room (reported : list.Reported pieces after)
    (positive : 0 < list.assignmentSize) (no_room : list.maxCount = 0)
    (unweighed : ∀ index, list.countAt index = 0) :
    0 < after.assignmentSize ∧ after.maxCount = 0 ∧ ∀ index, after.countAt index = 0 := by
  induction reported with
  | begin => exact ⟨positive, no_room, unweighed⟩
  | primed _ accepted ih =>
      rw [(prime_of_no_room ih.1 ih.2.1 ih.2.2 accepted).2]
      exact ih
  | counted _ done ih =>
      rw [complete_frame done]
      exact ih

/-- **Which lists with a threshold of one hold everything back**: those whose number of assignments
is not rounded down, and those that accept no weight because the number of their inputs is zero as a
word. -/
theorem withholds_iff (positive : 0 < unit) (divides : unit ∣ expanded)
    (expanded_lt : expanded < Word.limit 32)
    (made : create expanded unit chunkSize inputs .one = .ok list) :
    list.Withholds ↔ (RoundsDown (expanded / unit) → Word.narrow 32 (max inputs 1) = 0) := by
  by_cases counted : Word.narrow 32 (max inputs 1) = 0
  · obtain ⟨no_room, unit_eq⟩ := maxCount_of_create counted made
    refine iff_of_true ?_ fun _ => counted
    intro pieces before chunk out after reported accepted
    obtain ⟨sized, full, unweighed⟩ :=
      reported.of_no_room (unit_eq ▸ positive) no_room (countAt_of_create made)
    obtain ⟨nothing, same⟩ := prime_of_no_room sized full unweighed accepted
    rw [same]
    exact ⟨fun both => absurd both.1 both.2, fun _ => nothing⟩
  · rw [create_narrow counted] at made
    obtain ⟨sized, new, -, unit_eq, -⟩ := create_spec positive divides expanded_lt
      (Nat.mod_lt _ (by decide)) made
    have size_eq : expanded / unit = list.size := by
      rw [← sized.covering, unit_eq, Nat.mul_div_cancel _ positive]
    have threshold_eq := (threshold_of_create made).trans (thresholdCount_one sized.size_lt)
    rw [size_eq]
    constructor
    · intro withholds down
      rw [if_pos down] at threshold_eq
      obtain ⟨some_held, some_missing⟩ := down.bounds
      rw [← threshold_eq] at some_held some_missing
      have inside : list.threshold * list.assignmentSize < Word.limit 32 :=
        ((Nat.mul_le_mul_right _ some_missing.le).trans_eq sized.covering).trans_lt expanded_lt
      obtain ⟨before, out, after, reported, accepted, some_out, unfilled⟩ :=
        releases_early sized new some_held some_missing
          (show (Chunk.mk 0 _ (Nat.zero_le _) inside).start = 0 from rfl) rfl
      have none_out := (withholds _ before _ out after reported accepted).2
        fun both => unfilled both.1
      exact absurd none_out some_out
    · intro exact
      rw [if_neg fun down => counted (exact down)] at threshold_eq
      intro pieces before chunk out after reported accepted
      obtain ⟨agrees, fresh_eq⟩ := reported.accounts new sized
      obtain ⟨before_size, -, -, before_threshold⟩ := eq_of_fresh_eq fresh_eq
      refine agrees.prime_withheld (sized.of_fresh_eq fresh_eq) ?_ accepted
      rw [before_threshold, threshold_eq, before_size]

/-- A list with a threshold of one can be made, unless the greatest weight of an assignment is no
word. -/
theorem create_one_ok (fits : unit * Word.narrow 32 (max inputs 1) < Word.limit 32) :
    ∃ list, create expanded unit chunkSize inputs .one = .ok list := by
  have fraction : Binary32.one.isFraction = true := by decide +kernel
  cases made : create expanded unit chunkSize inputs .one with
  | ok list => exact ⟨list, rfl⟩
  | error fault =>
      simp [create, Invariant.require, fraction, Word.product_eq_ok fits, bind, Except.bind, pure,
        Except.pure] at made

/-- **The least number of assignments that is rounded down.**  A list of `2 ^ 24 + 1` assignments
with a threshold of one releases some of them by its first report, which leaves the last one
without any weight. -/
theorem early_release : ∃ list, create 16777217 1 0 1 .one = .ok list ∧
    ∃ before out after, list.Reported [] before ∧
      before.prime { start := 0, stop := 16777216 } = (.ok out, after) ∧ out ≠ [] ∧
        ¬ after.AllFull := by
  obtain ⟨list, made⟩ : ∃ list, create 16777217 1 0 1 .one = .ok list :=
    create_one_ok (by decide)
  obtain ⟨sized, new, -, unit_eq, -⟩ :=
    create_spec (by decide) (by decide) (by decide) (by decide) made
  have size_eq : list.size = 16777217 := by
    have covering := sized.covering
    rwa [unit_eq, Nat.mul_one] at covering
  have threshold_eq : list.threshold = 16777216 := by
    rw [threshold_of_create made, size_eq, thresholdCount_one (by decide)]
    decide +kernel
  exact ⟨list, made, releases_early sized new (by omega) (by omega) rfl (by
    rw [threshold_eq, unit_eq])⟩

end AssignmentList

/-! ## The output of a graph -/

/-- What a module adds to all its assignments, or to none, makes all of them, in ascending order, or
none, if its threshold is the number of its assignments. -/
theorem Module.Kept.whole {module : Module} {terminated : Bool}
    {received queued given gained : List Chunk} {expanded : Nat}
    (kept : module.Kept terminated received queued) (fits : module.Fits expanded)
    (all_held : module.assignments.threshold = module.assignments.size)
    (now : (given ++ gained).Perm queued)
    (ascending : gained.Pairwise fun one other => one.start < other.start)
    (ended : terminated = true → gained = [])
    (whole : given = [] ∨ given = module.assignments.all) :
    given ++ gained = [] ∨ given ++ gained = module.assignments.all := by
  rcases whole with rfl | rfl
  · rw [List.nil_append] at now ⊢
    by_cases none_now : gained = []
    · exact Or.inl none_now
    · -- Something is queued, so that work goes on, and what was let through is queued.
      have going : terminated = false := by
        by_contra is_over
        exact none_now (ended ((Bool.not_eq_false _).mp is_over))
      have let_through := now.trans (kept.queued_all going)
      rcases kept.accounts.released_cases all_held with ⟨-, everything⟩ | ⟨-, nothing⟩
      · rw [everything] at let_through
        exact Or.inr (AssignmentList.eq_of_perm_of_ascending let_through ascending
          fits.sized.ascending_all)
      · rw [nothing] at let_through
        exact absurd let_through.eq_nil none_now
  · -- All is queued, and no assignment is queued twice.
    have bound := now.length_eq.trans_le kept.released_le
    rw [List.length_append, AssignmentList.length_all] at bound
    have none_now : gained = [] := List.length_eq_zero_iff.mp (by omega)
    rw [none_now, List.append_nil]
    exact Or.inr rfl

namespace Graph

open AssignmentList

variable {built graph after : Graph} {origin dispatch next : Dispatch} {first last batch : Nat}
  {rank : Nat → Nat} {events : List Event} {event : Event} {sink : Module}

/-- The bounds of the whole output of a graph, in ascending order. -/
def outputBounds (graph : Graph) : List (Nat × Nat) :=
  (List.range (graph.expandedSize / graph.settings.minSlotSize)).map fun k =>
    (k * graph.settings.minSlotSize, (k + 1) * graph.settings.minSlotSize)

/-- The bounds of the chunks that have left a graph, oldest first, and of those that wait. -/
def released (built after : Graph) (events : List Event) : List (Nat × Nat) :=
  (built.collected events ++ after.pendingOutput).map fun chunk => (chunk.start, chunk.stop)

/-- The sink of a built graph has the threshold of the settings. -/
theorem build_sink (done : graph.build batch = .ok built)
    (building : Built built origin first last rank) :
    ∃ sink, origin.modules[origin.sink]? = some sink ∧ built.settings = graph.settings ∧
      sink.assignments.threshold =
        thresholdCount graph.settings.outputThreshold sink.assignments.size := by
  obtain ⟨-, compiled, modules, sink, -, -, sinks, rfl⟩ := build_ok done
  obtain ⟨assignments, made, sinks⟩ := Fault.bind_eq_ok.mp sinks
  injection sinks with sinks
  have size_eq := building.laid.size_eq
  have origin_eq := building.dispatch_eq
  injection origin_eq with origin_eq
  subst origin_eq
  refine ⟨sink, ?_, rfl, ?_⟩
  · -- The sink is the last of the modules.
    have behind : modules.length = graph.wiring.size := by
      simpa [Dispatch.create] using size_eq
    simp [Dispatch.create, ← behind]
  · rw [← sinks]
    exact threshold_of_create made

/-- A turn keeps it that the sink has queued all its assignments, in ascending order, or none, if
its threshold is the number of its assignments. -/
theorem Turn.whole {later : GraphState}
    (turn : Turn origin first built.expandedSize graph.state dispatch event later next)
    (building : Built built origin first last rank)
    (reached : Reached built origin first events graph dispatch)
    (played : built.play events = some graph) (found : origin.modules[origin.sink]? = some sink)
    (all_held : sink.assignments.threshold = sink.assignments.size)
    (whole : built.collected events ++ dispatch.waiting origin.sink = [] ∨
      built.collected events ++ dispatch.waiting origin.sink = sink.assignments.all) :
    built.collected (events ++ [event]) ++ next.waiting origin.sink = [] ∨
      built.collected (events ++ [event]) ++ next.waiting origin.sink = sink.assignments.all := by
  obtain ⟨gained, taken, queued_next, ascending, ended⟩ := turn.output reached building.laid
  have queued := reached.collected_perm building played
  have sound := turn.sound building.laid reached.sound reached.manned
  obtain ⟨module, there, rfl⟩ := sound.accounted.exists_of_origin found
  have all_eq : module.fresh.assignments.all = module.assignments.all := Module.all_fresh _
  have still_held : module.assignments.threshold = module.assignments.size := by
    rw [← size_fresh]
    exact all_held
  rw [reached.sound.accounted.sink_eq] at taken queued_next
  have so_far : built.collected (events ++ [event]) ++ next.waiting origin.sink =
      built.collected events ++ dispatch.waiting origin.sink ++ gained := by
    rw [collected_concat played, List.append_assoc, taken, ← List.append_assoc]
  have now := (queued.append_right gained).trans queued_next.symm
  rw [all_eq] at whole ⊢
  rw [so_far]
  exact (sound.accounted.kept _ _ there).whole (sound.accounted.fits building.laid there)
    still_held now ascending ended whole

/-- **The output leaves as a whole and in order, or not at all**, if the threshold of the sink is
the number of its assignments. -/
theorem released_whole (building : Built built origin first last rank)
    (found : origin.modules[origin.sink]? = some sink)
    (all_held : sink.assignments.threshold = sink.assignments.size)
    (played : built.play events = some after) :
    built.released after events = if after.isComplete then built.outputBounds else [] := by
  have none_at_first : built.collected [] ++ origin.waiting origin.sink = [] :=
    building.laid.waiting_eq_nil origin.sink
  obtain ⟨dispatch, reached, whole⟩ := play_induction building
    (motive := fun events _ dispatch =>
      built.collected events ++ dispatch.waiting origin.sink = [] ∨
        built.collected events ++ dispatch.waiting origin.sink = sink.assignments.all)
    (Or.inl none_at_first)
    (fun _ _ _ _ _ _ earlier reached whole turn =>
      turn.whole building reached earlier found all_held whole) played
  have queued := reached.collected_perm building played
  have accounted := reached.sound.accounted
  obtain ⟨module, there, rfl⟩ := accounted.exists_of_origin found
  have kept := accounted.kept _ _ there
  have fits := accounted.fits building.laid there
  have all_eq : module.fresh.assignments.all = module.assignments.all := Module.all_fresh _
  have unit_eq : module.assignments.assignmentSize = built.settings.minSlotSize :=
    fits.unit_eq.trans (building.sink_unit module.fresh found)
  have complete_iff := accounted.complete_iff module (accounted.sink_eq ▸ there)
  rw [kept.completed_eq, ← queued.length_eq] at complete_iff
  have complete_eq : after.isComplete = dispatch.complete := by
    rw [isComplete, reached.dispatch_eq]
  rw [released, reached.pendingOutput_eq, complete_eq]
  rw [all_eq] at whole
  rcases whole with none_yet | all_out
  · -- There are assignments to be queued, so that a graph that has queued none is not complete.
    have some_left : 0 ≠ module.assignments.size := by
      intro none_left
      have covering := fits.sized.covering
      rw [← none_left, Nat.zero_mul] at covering
      exact building.laid.expanded_pos.ne covering
    rw [none_yet, List.length_nil] at complete_iff
    rw [none_yet, if_neg fun complete => some_left (complete_iff.mp complete)]
    rfl
  · rw [all_out, length_all] at complete_iff
    rw [all_out, if_pos (complete_iff.mpr rfl), map_bounds_all fits.sized, unit_eq]
    rfl

/-- **What a threshold of one holds back.**  A list made with it releases every assignment, in
ascending order, by the report that fills the last of them, and nothing by any other report, exactly
if the number of its assignments is not rounded down as a binary32 number, or no report has any
weight because the number of inputs is zero as a word.  No number up to `2 ^ 24` is rounded down.
Where that of the sink is not, a graph built with this output threshold has in every state of every
play handed on nothing, or all its output in ascending order, the latter exactly if it is
complete. -/
theorem output_withheld {list : AssignmentList} {expanded unit chunkSize inputs : Nat}
    (unit_pos : 0 < unit) (divides : unit ∣ expanded) (bounded : expanded < Word.limit 32)
    (made : AssignmentList.create expanded unit chunkSize inputs .one = .ok list) :
    (list.Withholds ↔
      (Binary32.RoundsDown (expanded / unit) → Word.narrow 32 (max inputs 1) = 0)) ∧
    (∀ count ≤ 16777216, ¬ Binary32.RoundsDown count) ∧
    ∀ {graph built after : Graph} {batch : Nat} {events : List Event}, graph.Wired →
      (∀ module, (graph.wiring.inputsOf module).length < Word.limit 32) →
      graph.settings.outputThreshold = .one → graph.build batch = .ok built →
      ¬ Binary32.RoundsDown (built.expandedSize / built.settings.minSlotSize) →
      built.play events = some after →
        built.released after events = if after.isComplete then built.outputBounds else [] := by
  refine ⟨withholds_iff unit_pos divides bounded made,
    fun count small => Binary32.not_roundsDown_of_le small, ?_⟩
  intro graph built after batch events wired few threshold_one done exact played
  obtain ⟨-, origin, first, last, rank, building⟩ := build_built wired few done
  obtain ⟨sink, found, settings_eq, threshold_eq⟩ := build_sink done building
  have fits := building.laid.fits _ _ found
  have size_eq : built.expandedSize / built.settings.minSlotSize = sink.assignments.size := by
    rw [← building.sink_unit sink found, ← fits.unit_eq, ← fits.sized.covering,
      Nat.mul_div_cancel _ fits.sized.positive]
  refine released_whole building found ?_ played
  rw [size_eq] at exact
  rw [threshold_eq, threshold_one, thresholdCount_one fits.sized.size_lt, if_neg exact]

/-- A single module that works on two slots at a time, with an output threshold of one. -/
def held : Graph where
  name := "sample"
  settings := { minSlotSize := 1, defaultThreads := 1, outputThreshold := .one, handled := false }
  stream := .blank "nothing"
  wiring := { modules := [sampleModule "only" 2 1], edges := [], first := some 0, last := some 0 }
  state := .unbuilt
  plan := none
  dispatch := none

theorem held_wired : held.Wired := by
  have empty : (Graph.create "sample" held.settings (.blank "nothing")).Wired :=
    .create (show GraphSettings.create 1 1 .one = .ok held.settings from rfl)
  have only := empty.addModule (show addModule _ (sampleModule "only" 2 1) = .ok (0, _) from rfl)
  have entrance := only.setFirst (show setFirst _ 0 = .ok _ from rfl)
  exact entrance.setLast (show setLast _ 0 = .ok held from rfl)

/-- That graph, built for four slots. -/
def heldBuilt : Graph := (held.build 4).toOption.getD held

/-- Three of the slots are sent, and the worker is done with the first two. -/
def heldRun : List Event :=
  [.link (.create ⟨7, 2⟩ 4 4), .start, .send front] ++ (sampleWork 0).map .work

theorem output_withheld_sample :
    (∃ list, AssignmentList.create 16 4 2 2 .one = .ok list ∧ list.Withholds) ∧
    held.build 4 = .ok heldBuilt ∧ ∃ after, heldBuilt.play heldRun = some after ∧
      after.dispatch.any (fun dispatch => dispatch.calls.length = 2) = true ∧
      heldBuilt.released after heldRun = [] := by
  obtain ⟨list, made⟩ : ∃ list, AssignmentList.create 16 4 2 2 .one = .ok list :=
    create_one_ok (by decide)
  obtain ⟨of_list, few_exact, of_graph⟩ :=
    output_withheld (by decide) (by decide) (by decide) made
  have built : held.build 4 = .ok heldBuilt := by rfl
  refine ⟨⟨list, made, of_list.mpr fun down => absurd down (few_exact 4 (by decide))⟩, built, ?_⟩
  have ends : ((heldBuilt.play heldRun).any fun after => !after.isComplete &&
      after.dispatch.any fun dispatch => dispatch.calls.length = 2) = true := by decide +kernel
  obtain ⟨after, played, ends⟩ := (Option.any_eq_true _ _).mp ends
  rw [Bool.and_eq_true, Bool.not_eq_true'] at ends
  obtain ⟨incomplete, worked⟩ := ends
  have few (module : Nat) : (held.wiring.inputsOf module).length < Word.limit 32 := by
    show 0 < Word.limit 32
    decide
  have exact : ¬ Binary32.RoundsDown (heldBuilt.expandedSize / heldBuilt.settings.minSlotSize) :=
    few_exact _ (by decide +kernel)
  have released_eq := of_graph held_wired few rfl built exact played
  rw [incomplete] at released_eq
  exact ⟨after, played, worked, released_eq⟩

end Graph

end Mixnet
