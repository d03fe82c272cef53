import Mixnet.AssignmentList
import Mixnet.Proofs.Coverage

/-!
# What the accounting of assignments stands for

The accounting of a module adds up numbers.  This file says what they mean: the assignments cut the
batch, and a report adds to the weight of each of them the number of slots it shares with it.

## Main definitions

* `AssignmentList.countAt`, `AssignmentList.assignment`: an assignment's weight and its slots
* `AssignmentList.full`, `AssignmentList.released`: the full assignments, and those let through
* `AssignmentList.Sized`: a list whose assignments cut a batch, and whose numbers stay words
* `AssignmentList.Absorbed`: what a visit of the assignments has added and found

## Main statements

* `AssignmentList.Sized.coverage_all`: the assignments cover the batch, each slot once
* `AssignmentList.absorb_spec`: a visit that is accepted adds its share to every assignment
* `AssignmentList.absorb_accepts`: a visit is accepted if it overloads no assignment

## Design notes

A report is described by the assignments whose weight it raises, not by the loop that visits them:
`Absorbed` is a statement about weights before and after, so nothing that follows depends on the
order of the visit.
-/

namespace Mixnet

namespace AssignmentList

/-! ## Views -/

/-- The weight of an assignment; an assignment that does not exist has none. -/
def countAt (list : AssignmentList) (index : Nat) : Nat := list.counts[index]?.getD 0

/-- The slots of an assignment. -/
def assignment (list : AssignmentList) (index : Nat) : Chunk :=
  if fits : index * list.assignmentSize + list.assignmentSize < Word.limit 32 then
    { start := index * list.assignmentSize
      stop := index * list.assignmentSize + list.assignmentSize
      start_le_stop := Nat.le_add_right _ _
      stop_lt := fits }
  else .empty

/-- All assignments, in ascending order. -/
def all (list : AssignmentList) : List Chunk := (List.range list.size).map list.assignment

/-- The full assignments, in ascending order. -/
def full (list : AssignmentList) : List Chunk :=
  ((List.range list.size).filter fun index => list.countAt index = list.maxCount).map
    list.assignment

/-- The assignments that have been let through the gate. -/
def released (list : AssignmentList) : List Chunk :=
  if list.primed < list.threshold then [] else list.full

/-- The list before the first report. -/
def fresh (list : AssignmentList) : AssignmentList :=
  { list with counts := Array.replicate list.size 0, primed := 0, completed := 0, waiting := [] }

/-- A list whose assignments cut a batch of `expanded` slots, fed by `inputs` inputs, with all its
numbers words. -/
structure Sized (list : AssignmentList) (expanded inputs : Nat) : Prop where
  positive : 0 < list.assignmentSize
  covering : list.size * list.assignmentSize = expanded
  expanded_lt : expanded < Word.limit 32
  inputs_pos : 0 < inputs
  maxCount_eq : list.maxCount = list.assignmentSize * inputs
  maxCount_lt : list.maxCount < Word.limit 32
  threshold_le : list.threshold ≤ list.size

variable {list after : AssignmentList} {expanded inputs : Nat}

@[simp] theorem size_fresh (list : AssignmentList) : list.fresh.size = list.size := by
  simp [fresh, size]

theorem fresh_fresh (list : AssignmentList) : list.fresh.fresh = list.fresh := by
  simp [fresh, size]

/-- Lists with the same beginning have the same sizes. -/
theorem eq_of_fresh_eq (same : after.fresh = list.fresh) :
    after.size = list.size ∧ after.assignmentSize = list.assignmentSize ∧
      after.maxCount = list.maxCount ∧ after.threshold = list.threshold := by
  have size_eq : after.fresh.size = list.fresh.size := by rw [same]
  rw [size_fresh, size_fresh] at size_eq
  simp only [fresh, AssignmentList.mk.injEq] at same
  exact ⟨size_eq, same.2.1, same.2.2.2.1, same.2.2.2.2.1⟩

theorem countAt_of_size_le {index : Nat} (outside : list.size ≤ index) :
    list.countAt index = 0 := by
  rw [countAt, Array.getElem?_eq_none outside, Option.getD_none]

namespace Sized

/-- Being sized is a matter of what reports do not change. -/
theorem of_fresh_eq (sized : list.Sized expanded inputs) (same : after.fresh = list.fresh) :
    after.Sized expanded inputs := by
  obtain ⟨size_eq, unit_eq, max_eq, threshold_eq⟩ := eq_of_fresh_eq same
  obtain ⟨positive, covering, expanded_lt, inputs_pos, maxCount_eq, maxCount_lt, threshold_le⟩ :=
    sized
  constructor
  · rw [unit_eq]
    exact positive
  · rw [unit_eq, size_eq]
    exact covering
  · exact expanded_lt
  · exact inputs_pos
  · rw [unit_eq, max_eq]
    exact maxCount_eq
  · rw [max_eq]
    exact maxCount_lt
  · rw [threshold_eq, size_eq]
    exact threshold_le

theorem maxCount_pos (sized : list.Sized expanded inputs) : 0 < list.maxCount := by
  rw [sized.maxCount_eq]
  exact Nat.mul_pos sized.positive sized.inputs_pos

theorem stop_le (sized : list.Sized expanded inputs) {index : Nat} (inside : index < list.size) :
    index * list.assignmentSize + list.assignmentSize ≤ expanded := by
  rw [← Nat.succ_mul, ← sized.covering]
  exact Nat.mul_le_mul_right _ inside

theorem size_lt (sized : list.Sized expanded inputs) : list.size < Word.limit 32 := by
  have : list.size * 1 ≤ list.size * list.assignmentSize :=
    Nat.mul_le_mul_left _ sized.positive
  have covering := sized.covering
  have bound := sized.expanded_lt
  omega

theorem assignment_bounds (sized : list.Sized expanded inputs) {index : Nat}
    (inside : index < list.size) :
    (list.assignment index).start = index * list.assignmentSize ∧
      (list.assignment index).stop = index * list.assignmentSize + list.assignmentSize := by
  have fits := (sized.stop_le inside).trans_lt sized.expanded_lt
  rw [assignment, dif_pos fits]
  exact ⟨rfl, rfl⟩

/-- Distinct assignments begin at distinct slots. -/
theorem index_eq_of_start_eq (sized : list.Sized expanded inputs) {left right : Nat}
    (left_lt : left < list.size) (right_lt : right < list.size)
    (same : (list.assignment left).start = (list.assignment right).start) : left = right := by
  rw [(sized.assignment_bounds left_lt).1, (sized.assignment_bounds right_lt).1] at same
  exact Nat.eq_of_mul_eq_mul_right sized.positive same

theorem index_eq_of_eq (sized : list.Sized expanded inputs) {left right : Nat}
    (left_lt : left < list.size) (right_lt : right < list.size)
    (same : list.assignment left = list.assignment right) : left = right :=
  sized.index_eq_of_start_eq left_lt right_lt (congrArg Chunk.start same)

theorem assignment_length (sized : list.Sized expanded inputs) {index : Nat}
    (inside : index < list.size) : (list.assignment index).length = list.assignmentSize := by
  obtain ⟨start_eq, stop_eq⟩ := sized.assignment_bounds inside
  rw [Chunk.length, start_eq, stop_eq, Nat.add_sub_cancel_left]

theorem nodup_all (sized : list.Sized expanded inputs) : list.all.Nodup := by
  refine List.Nodup.map_on ?_ List.nodup_range
  intro left left_mem right right_mem same
  exact sized.index_eq_of_eq (List.mem_range.mp left_mem) (List.mem_range.mp right_mem) same

/-- Every slot of the batch belongs to an assignment. -/
theorem exists_covers (sized : list.Sized expanded inputs) {slot : Nat} (inside : slot < expanded) :
    ∃ index < list.size, (list.assignment index).covers slot = true := by
  have index_lt : slot / list.assignmentSize < list.size := by
    rw [Nat.div_lt_iff_lt_mul sized.positive, sized.covering]
    exact inside
  obtain ⟨start_eq, stop_eq⟩ := sized.assignment_bounds index_lt
  refine ⟨slot / list.assignmentSize, index_lt, ?_⟩
  rw [Chunk.covers_iff, start_eq, stop_eq, ← Nat.succ_mul, Nat.mul_comm (Nat.succ _)]
  exact ⟨Nat.div_mul_le_self _ _, Nat.lt_mul_div_succ slot sized.positive⟩

/-- **The assignments cover the batch, each slot once.** -/
theorem coverage_all (sized : list.Sized expanded inputs) (slot : Nat) :
    Chunk.coverage list.all slot = if slot < expanded then 1 else 0 := by
  -- By induction on how many assignments are counted: the first of them cover a beginning.
  have first_ones (count : Nat) (within : count ≤ list.size) :
      Chunk.coverage ((List.range count).map list.assignment) slot =
        if slot < count * list.assignmentSize then 1 else 0 := by
    induction count with
    | zero => simp
    | succ count ih =>
        obtain ⟨start_eq, stop_eq⟩ := sized.assignment_bounds (Nat.lt_of_succ_le within)
        rw [List.range_succ, List.map_append, Chunk.coverage_append, ih (Nat.le_of_succ_le within),
          List.map_singleton, Chunk.coverage_cons, Chunk.coverage_nil, Nat.succ_mul]
        simp only [Chunk.covers_iff, start_eq, stop_eq]
        split_ifs <;> omega
  rw [all, first_ones list.size le_rfl, sized.covering]

end Sized

theorem mem_all {chunk : Chunk} :
    chunk ∈ list.all ↔ ∃ index < list.size, chunk = list.assignment index := by
  simp only [all, List.mem_map, List.mem_range]
  constructor
  · rintro ⟨index, inside, rfl⟩
    exact ⟨index, inside, rfl⟩
  · rintro ⟨index, inside, rfl⟩
    exact ⟨index, inside, rfl⟩

theorem mem_full {chunk : Chunk} :
    chunk ∈ list.full ↔
      ∃ index < list.size, chunk = list.assignment index ∧
        list.countAt index = list.maxCount := by
  simp only [full, List.mem_map, List.mem_filter, List.mem_range, decide_eq_true_eq]
  constructor
  · rintro ⟨index, ⟨inside, reached⟩, rfl⟩
    exact ⟨index, inside, rfl, reached⟩
  · rintro ⟨index, inside, rfl, reached⟩
    exact ⟨index, ⟨inside, reached⟩, rfl⟩

theorem full_sublist_all (list : AssignmentList) : list.full.Sublist list.all :=
  List.filter_sublist.map _

theorem released_sublist_all (list : AssignmentList) : list.released.Sublist list.all := by
  unfold released
  split
  · exact List.nil_sublist _
  · exact list.full_sublist_all

theorem length_all (list : AssignmentList) : list.all.length = list.size := by
  simp [all]

/-! ## Adding weight -/

/-- Nothing has changed but weights. -/
structure Reweighed (list after : AssignmentList) : Prop where
  fresh_eq : after.fresh = list.fresh
  primed_eq : after.primed = list.primed
  completed_eq : after.completed = list.completed
  waiting_eq : after.waiting = list.waiting

namespace Reweighed

theorem refl (list : AssignmentList) : Reweighed list list := ⟨rfl, rfl, rfl, rfl⟩

theorem trans {middle : AssignmentList} (first : Reweighed list middle)
    (second : Reweighed middle after) : Reweighed list after where
  fresh_eq := second.fresh_eq.trans first.fresh_eq
  primed_eq := second.primed_eq.trans first.primed_eq
  completed_eq := second.completed_eq.trans first.completed_eq
  waiting_eq := second.waiting_eq.trans first.waiting_eq

theorem positive (change : Reweighed list after) (positive : 0 < list.assignmentSize) :
    0 < after.assignmentSize := by
  obtain ⟨-, unit_eq, -, -⟩ := eq_of_fresh_eq change.fresh_eq
  rw [unit_eq]
  exact positive

theorem assignment_eq (change : Reweighed list after) : after.assignment = list.assignment := by
  obtain ⟨-, unit_eq, -, -⟩ := eq_of_fresh_eq change.fresh_eq
  funext index
  simp only [assignment, unit_eq]

end Reweighed

/-- Whatever comes of it, adding weight changes nothing but weights. -/
theorem addWeight_reweighed (list : AssignmentList) (index weight : Nat) :
    Reweighed list (list.addWeight index weight).2 := by
  have stored (counts : Array Nat) (same : counts.size = list.counts.size) :
      Reweighed list { list with counts } :=
    ⟨by simp [fresh, size, same], rfl, rfl, rfl⟩
  have kept : Reweighed list { list with
      counts := list.counts.setIfInBounds index
        (Word.narrow 32 (list.countAt index + weight)) } := stored _ (by simp)
  cases found : list.counts[index]? with
  | none =>
      simp only [addWeight, found]
      exact .refl list
  | some before =>
      rw [countAt, found, Option.getD_some] at kept
      cases summed : Word.sum 32 before weight with
      | error fault =>
          simp only [addWeight, found, summed]
          exact kept
      | ok count =>
          simp only [addWeight, found, summed]
          split <;> exact kept

/-- Weight is accepted up to the maximum, and then it is added. -/
theorem addWeight_ok {index weight : Nat} {filled : Bool}
    (added : list.addWeight index weight = (.ok filled, after)) :
    after.countAt index = list.countAt index + weight ∧
      (∀ other, other ≠ index → after.countAt other = list.countAt other) ∧
      after.countAt index ≤ list.maxCount ∧
      (filled = true ↔ after.countAt index = list.maxCount) := by
  unfold addWeight at added
  cases found : list.counts[index]? with
  | none => simp [found] at added
  | some before =>
      obtain ⟨inside, -⟩ := Array.getElem?_eq_some_iff.mp found
      simp only [found, Word.sum] at added
      split at added
      · cases added
      case h_2 count summed =>
          split at summed
          case isFalse => cases summed
          case isTrue fits =>
            injection summed with summed
            subst summed
            rw [Word.narrow_of_lt fits] at added
            split at added
            case isFalse => cases added
            case isTrue bounded =>
              injection added with outcome stored
              injection outcome with outcome
              subst outcome stored
              have self : (list.counts.setIfInBounds index (before + weight))[index]?.getD 0 =
                  before + weight := by
                rw [Array.getElem?_setIfInBounds_self_of_lt inside, Option.getD_some]
              simp only [countAt, self, found, Option.getD_some, decide_eq_true_eq]
              refine ⟨trivial, ?_, bounded, trivial⟩
              intro other different
              rw [Array.getElem?_setIfInBounds_ne (Ne.symm different)]

/-- Weight that does not exceed the maximum is accepted. -/
theorem addWeight_accepts (sized : list.Sized expanded inputs) {index weight : Nat}
    (inside : index < list.size) (fits : list.countAt index + weight ≤ list.maxCount) :
    ∃ filled stored, list.addWeight index weight = (.ok filled, stored) := by
  have found : list.counts[index]? = some list.counts[index] := Array.getElem?_eq_getElem inside
  have small : list.counts[index] + weight ≤ list.maxCount := by
    simpa [countAt, found] using fits
  have word : list.counts[index] + weight < Word.limit 32 := small.trans_lt sized.maxCount_lt
  unfold addWeight
  simp only [found, Word.sum_eq_ok word, if_pos small]
  exact ⟨_, _, rfl⟩

/-! ## The visit of all assignments a report overlaps -/

theorem edgeAfter_eq {position edge : Nat} (found : list.edgeAfter position = .ok edge) :
    edge = position / list.assignmentSize * list.assignmentSize + list.assignmentSize := by
  unfold edgeAfter Word.product at found
  split at found
  · injection found with found
    rw [← found, Nat.succ_mul]
  · cases found

/-- The edge after a position lies behind it. -/
theorem lt_edge (positive : 0 < list.assignmentSize) {position edge : Nat}
    (edge_eq : edge =
      position / list.assignmentSize * list.assignmentSize + list.assignmentSize) :
    position < edge := by
  rw [edge_eq, ← Nat.succ_mul, Nat.mul_comm]
  exact Nat.lt_mul_div_succ position positive

/-- How many of the slots from `position` on, `remaining` of them, belong to an assignment. -/
def share (list : AssignmentList) (position remaining index : Nat) : Nat :=
  min (position + remaining) (index * list.assignmentSize + list.assignmentSize) -
    max position (index * list.assignmentSize)

@[simp] theorem share_zero (list : AssignmentList) (position index : Nat) :
    list.share position 0 index = 0 := by
  simp only [share]
  omega

theorem Reweighed.share_eq (change : Reweighed list after) : after.share = list.share := by
  obtain ⟨-, unit_eq, -, -⟩ := eq_of_fresh_eq change.fresh_eq
  funext position remaining index
  simp only [share, unit_eq]

/-- An assignment that ends before a position has no share of what lies behind it. -/
theorem share_of_stop_le {position remaining index : Nat}
    (before : index * list.assignmentSize + list.assignmentSize ≤ position) :
    list.share position remaining index = 0 :=
  Nat.sub_eq_zero_of_le
    ((Nat.min_le_right _ _).trans (before.trans (Nat.le_max_left _ _)))

/-- What belongs to an assignment belongs to the part before the next edge, or to the rest. -/
theorem share_step (positive : 0 < list.assignmentSize) {position remaining edge : Nat}
    (edge_eq : edge =
      position / list.assignmentSize * list.assignmentSize + list.assignmentSize) (index : Nat) :
    list.share position remaining index =
      (if index = position / list.assignmentSize then min (edge - position) remaining else 0) +
        list.share (position + min (edge - position) remaining)
          (remaining - min (edge - position) remaining) index := by
  have low := Nat.div_mul_le_self position list.assignmentSize
  have high := lt_edge positive edge_eq
  obtain ⟨part, part_eq⟩ : ∃ part, part = min (edge - position) remaining := ⟨_, rfl⟩
  have within : part ≤ remaining := part_eq ▸ Nat.min_le_right _ _
  have rest_end : position + part + (remaining - part) = position + remaining := by omega
  rw [← part_eq]
  -- Only the assignment visited overlaps the part before the edge.
  rcases Nat.lt_trichotomy index (position / list.assignmentSize) with before | rfl | behind
  · have apart := Nat.mul_le_mul_right list.assignmentSize before
    rw [Nat.succ_mul] at apart
    have passed := apart.trans low
    rw [if_neg before.ne, share_of_stop_le passed,
      share_of_stop_le (passed.trans (Nat.le_add_right _ _))]
  · rw [if_pos rfl, share, share, rest_end, ← edge_eq, Nat.max_eq_left low,
      Nat.max_eq_left (low.trans (Nat.le_add_right _ _))]
    omega
  · have apart := Nat.mul_le_mul_right list.assignmentSize behind
    rw [Nat.succ_mul, ← edge_eq] at apart
    have reached : position + part ≤ index * list.assignmentSize := by omega
    rw [if_neg behind.ne', Nat.zero_add, share, share, rest_end, Nat.max_eq_right reached,
      Nat.max_eq_right (high.le.trans apart)]

/-- What a visit has done: it added the share of each assignment, exceeded no maximum, and found the
assignments that became full, in ascending order, behind those found before. -/
structure Absorbed (list after : AssignmentList) (position remaining : Nat)
    (ready out : List Chunk) : Prop where
  reweighed : Reweighed list after
  count_eq : ∀ index,
    after.countAt index = list.countAt index + list.share position remaining index
  bounded : ∀ index, after.countAt index ≤ list.maxCount
  inside : remaining = 0 ∨ position + remaining ≤ list.size * list.assignmentSize
  ascending : out.Pairwise (·.start < ·.start)
  mem_out : ∀ chunk, chunk ∈ out ↔ chunk ∈ ready ∨
    ∃ index < list.size, chunk = list.assignment index ∧
      list.countAt index < after.countAt index ∧ after.countAt index = list.maxCount

/-- The state of a visit: what has been found lies before the assignment visited next. -/
structure Visiting (list : AssignmentList) (position remaining : Nat) (ready : List Chunk) :
    Prop where
  bounded : ∀ index, list.countAt index ≤ list.maxCount
  ascending : ready.reverse.Pairwise (·.start < ·.start)
  behind : remaining = 0 ∨
    ∀ chunk ∈ ready, chunk.start < position / list.assignmentSize * list.assignmentSize

/-- After the part before an edge, the visit is over or goes on at that edge. -/
theorem next_edge (positive : 0 < list.assignmentSize) {position remaining edge : Nat}
    (edge_eq : edge =
      position / list.assignmentSize * list.assignmentSize + list.assignmentSize) :
    remaining - min (edge - position) remaining = 0 ∨
      (position + min (edge - position) remaining) / list.assignmentSize *
        list.assignmentSize = edge := by
  have low := Nat.div_mul_le_self position list.assignmentSize
  have high := lt_edge positive edge_eq
  rcases Nat.le_total remaining (edge - position) with short | long
  · exact Or.inl (by omega)
  · refine Or.inr ?_
    rw [Nat.min_eq_left long, Nat.add_sub_cancel' high.le, edge_eq, ← Nat.succ_mul,
      Nat.mul_div_cancel _ positive]

/-- The weight of the assignment visited, and of the others, after weight was added to it. -/
theorem countAt_addWeight {index weight : Nat} {filled : Bool}
    (added : list.addWeight index weight = (.ok filled, after)) (other : Nat) :
    after.countAt other = list.countAt other + if other = index then weight else 0 := by
  obtain ⟨gained, kept, -, -⟩ := addWeight_ok added
  by_cases same : other = index
  · rw [if_pos same, same, gained]
  · rw [if_neg same, kept other same, Nat.add_zero]

theorem addWeight_reweighed_of_ok {index weight : Nat} {filled : Bool}
    (added : list.addWeight index weight = (.ok filled, after)) : Reweighed list after := by
  have change := addWeight_reweighed list index weight
  rwa [added] at change

/-- A visit goes on as it began. -/
theorem Visiting.step {position remaining edge : Nat} {ready : List Chunk} {filled : Bool}
    {stored : AssignmentList} (state : Visiting list position remaining ready)
    (positive : 0 < list.assignmentSize) (going : remaining ≠ 0)
    (edge_eq : edge =
      position / list.assignmentSize * list.assignmentSize + list.assignmentSize)
    (added : list.addWeight (position / list.assignmentSize) (min (edge - position) remaining) =
      (.ok filled, stored))
    (starts : filled = true → (list.assignment (position / list.assignmentSize)).start =
      position / list.assignmentSize * list.assignmentSize) :
    Visiting stored (position + min (edge - position) remaining)
      (remaining - min (edge - position) remaining)
      (if filled then list.assignment (position / list.assignmentSize) :: ready else ready) := by
  obtain ⟨-, unit_eq, max_eq, -⟩ := eq_of_fresh_eq (addWeight_reweighed_of_ok added).fresh_eq
  obtain ⟨-, kept, small, -⟩ := addWeight_ok added
  have behind : ∀ chunk ∈ ready,
      chunk.start < position / list.assignmentSize * list.assignmentSize :=
    state.behind.resolve_left going
  constructor
  · intro index
    rw [max_eq]
    by_cases same : index = position / list.assignmentSize
    · rw [same]
      exact small
    · rw [kept index same]
      exact state.bounded index
  · cases filled with
    | false => exact state.ascending
    | true =>
        rw [if_pos rfl, List.reverse_cons, List.pairwise_append]
        refine ⟨state.ascending, List.pairwise_singleton _ _, ?_⟩
        intro chunk chunk_mem last last_mem
        rw [List.mem_singleton.mp last_mem, starts rfl]
        exact behind chunk (List.mem_reverse.mp chunk_mem)
  · rw [unit_eq]
    refine (next_edge positive edge_eq).imp_right fun next => ?_
    rw [next]
    intro chunk chunk_mem
    cases filled with
    | false => exact (behind chunk chunk_mem).trans_le (by omega)
    | true =>
        rcases List.mem_cons.mp chunk_mem with rfl | older
        · rw [starts rfl]
          omega
        · exact (behind chunk older).trans_le (by omega)

/-- What a visit finds is the assignment it starts at, once that has all its weight, and what the
visit finds behind it. -/
theorem found_iff {visited weight : Nat} {filled : Bool} {stored : AssignmentList}
    {ready : List Chunk} (added : list.addWeight visited weight = (.ok filled, stored))
    (positive : 0 < weight) (exists_at : visited < list.size)
    (grown : ∀ index, stored.countAt index ≤ after.countAt index)
    (bounded : ∀ index, after.countAt index ≤ list.maxCount) (chunk : Chunk) :
    (chunk ∈ (if filled then list.assignment visited :: ready else ready) ∨
        ∃ index < list.size, chunk = list.assignment index ∧
          stored.countAt index < after.countAt index ∧ after.countAt index = list.maxCount) ↔
      chunk ∈ ready ∨ ∃ index < list.size, chunk = list.assignment index ∧
        list.countAt index < after.countAt index ∧ after.countAt index = list.maxCount := by
  obtain ⟨here, elsewhere, -, filled_iff⟩ := addWeight_ok added
  have above := grown visited
  constructor
  · rintro (found | ⟨index, inside, rfl, less, reached⟩)
    · cases filled with
      | false => exact Or.inl found
      | true =>
          rcases List.mem_cons.mp found with rfl | older
          · -- An assignment with all its weight has no room left for more.
            have top := filled_iff.mp rfl
            have below := bounded visited
            exact Or.inr ⟨_, exists_at, rfl, by omega, by omega⟩
          · exact Or.inl older
    · refine Or.inr ⟨index, inside, rfl, ?_, reached⟩
      have change := countAt_addWeight added index
      omega
  · rintro (older | ⟨index, inside, rfl, less, reached⟩)
    · left
      split
      · exact List.mem_cons_of_mem _ older
      · exact older
    · by_cases same : index = visited
      · subst same
        by_cases top : stored.countAt index = list.maxCount
        · left
          rw [if_pos (filled_iff.mpr top)]
          exact List.mem_cons_self
        · exact Or.inr ⟨_, inside, rfl, by omega, reached⟩
      · rw [← elsewhere index same] at less
        exact Or.inr ⟨index, inside, rfl, less, reached⟩

/-- What a visit has done, in terms of what it did at the first assignment and at the others. -/
theorem Absorbed.step {position remaining edge : Nat} {ready out : List Chunk} {filled : Bool}
    {stored : AssignmentList} (positive : 0 < list.assignmentSize) (going : remaining ≠ 0)
    (exists_at : position / list.assignmentSize < list.size)
    (edge_eq : edge =
      position / list.assignmentSize * list.assignmentSize + list.assignmentSize)
    (added : list.addWeight (position / list.assignmentSize) (min (edge - position) remaining) =
      (.ok filled, stored))
    (later : Absorbed stored after (position + min (edge - position) remaining)
      (remaining - min (edge - position) remaining)
      (if filled then list.assignment (position / list.assignmentSize) :: ready else ready) out) :
    Absorbed list after position remaining ready out := by
  have change := addWeight_reweighed_of_ok added
  obtain ⟨size_eq, unit_eq, max_eq, -⟩ := eq_of_fresh_eq change.fresh_eq
  have count_eq : ∀ index, after.countAt index =
      list.countAt index + list.share position remaining index := by
    intro index
    rw [later.count_eq, countAt_addWeight added, change.share_eq, share_step positive edge_eq index,
      Nat.add_assoc]
  have positive_weight : 0 < min (edge - position) remaining := by
    have := lt_edge positive edge_eq
    omega
  have bounded : ∀ index, after.countAt index ≤ list.maxCount := by
    intro index
    rw [← max_eq]
    exact later.bounded index
  refine ⟨change.trans later.reweighed, count_eq, bounded, ?_, later.ascending, ?_⟩
  · right
    rcases later.inside with empty | inside
    · have edge_le : edge ≤ list.size * list.assignmentSize := by
        rw [edge_eq, ← Nat.succ_mul]
        exact Nat.mul_le_mul_right _ exists_at
      omega
    · rw [size_eq, unit_eq] at inside
      omega
  · intro chunk
    rw [later.mem_out, size_eq, max_eq, change.assignment_eq]
    have grown : ∀ index, stored.countAt index ≤ after.countAt index := by
      intro index
      rw [later.count_eq]
      exact Nat.le_add_right _ _
    exact found_iff added positive_weight exists_at grown bounded chunk

theorem eq_assignment_of_ofLength {index : Nat} {chunk : Chunk}
    (made : Chunk.ofLength (index * list.assignmentSize) list.assignmentSize = .ok chunk) :
    chunk = list.assignment index ∧
      (list.assignment index).start = index * list.assignmentSize := by
  by_cases fits : index * list.assignmentSize + list.assignmentSize < Word.limit 32
  · rw [Chunk.ofLength_eq_ok fits] at made
    injection made with made
    rw [← made, assignment, dif_pos fits]
    exact ⟨rfl, rfl⟩
  · simp [Chunk.ofLength, Word.sum, if_neg fits, bind, Except.bind] at made

/-- **An accepted report adds its share to every assignment.** -/
theorem absorb_spec (positive : 0 < list.assignmentSize) {position remaining : Nat}
    {ready out : List Chunk} (state : Visiting list position remaining ready)
    (done : list.absorb position remaining ready = (.ok out, after)) :
    Absorbed list after position remaining ready out := by
  -- The induction follows the visit; a refusal anywhere contradicts that it was accepted.
  fun_induction absorb list position remaining ready with
  | case1 list position ready =>
      injection done with outcome same
      injection outcome with outcome
      subst outcome same
      refine ⟨.refl _, ?_, state.bounded, Or.inl rfl, state.ascending, ?_⟩
      · intro index
        simp
      · simp
  | case2 => cases done
  | case3 => cases done
  | case4 => cases done
  | case5 => cases done
  | case6 list position remaining ready going unsized index inside edge found _ weight stored
      added ih =>
      have edge_eq := edgeAfter_eq found
      have change := addWeight_reweighed_of_ok added
      have next := state.step positive going edge_eq added (fun impossible => by cases impossible)
      have later := ih (change.positive positive) next done
      exact .step positive going (Nat.lt_of_not_le inside) edge_eq added later
  | case7 => cases done
  | case8 list position remaining ready going unsized index inside edge found _ weight stored
      added chunk made ih =>
      have edge_eq := edgeAfter_eq found
      have change := addWeight_reweighed_of_ok added
      obtain ⟨rfl, starts⟩ := eq_assignment_of_ofLength made
      have next := state.step positive going edge_eq added (fun _ => starts)
      have later := ih (change.positive positive) next done
      exact .step positive going (Nat.lt_of_not_le inside) edge_eq added later

/-- A report that overloads no assignment still does so after its first part. -/
theorem fits_step {position remaining edge : Nat} {filled : Bool} {stored : AssignmentList}
    (positive : 0 < list.assignmentSize)
    (edge_eq : edge =
      position / list.assignmentSize * list.assignmentSize + list.assignmentSize)
    (added : list.addWeight (position / list.assignmentSize) (min (edge - position) remaining) =
      (.ok filled, stored))
    (fits : ∀ index, list.countAt index + list.share position remaining index ≤ list.maxCount)
    (index : Nat) :
    stored.countAt index + stored.share (position + min (edge - position) remaining)
      (remaining - min (edge - position) remaining) index ≤ stored.maxCount := by
  have change := addWeight_reweighed_of_ok added
  obtain ⟨-, -, max_eq, -⟩ := eq_of_fresh_eq change.fresh_eq
  have whole := fits index
  rw [share_step positive edge_eq index] at whole
  rw [max_eq, change.share_eq, countAt_addWeight added index]
  omega

/-- **A report that overloads no assignment is accepted.** -/
theorem absorb_accepts (sized : list.Sized expanded inputs) {position remaining : Nat}
    {ready : List Chunk} (inside : remaining = 0 ∨ position + remaining ≤ expanded)
    (fits : ∀ index, list.countAt index + list.share position remaining index ≤ list.maxCount) :
    ∃ out after, list.absorb position remaining ready = (.ok out, after) := by
  fun_induction absorb list position remaining ready with
  | case1 => exact ⟨_, _, rfl⟩
  -- Each way to refuse a report is excluded by a size that fits.
  | case2 list _ _ _ _ unsized => exact absurd unsized sized.positive.ne'
  | case3 list position remaining ready going _ index outside =>
      have below : position < list.assignmentSize * list.size := by
        rw [Nat.mul_comm, sized.covering]
        omega
      exact absurd (Nat.div_lt_of_lt_mul below) (Nat.not_lt.mpr outside)
  | case4 list position remaining ready going _ index there fault refused =>
      have bound := (sized.stop_le (Nat.lt_of_not_le there)).trans_lt sized.expanded_lt
      rw [← Nat.succ_mul] at bound
      rw [edgeAfter, Word.product_eq_ok bound] at refused
      cases refused
  | case5 list position remaining ready going _ index there edge found _ weight fault stored
      refused =>
      have whole := fits index
      rw [share_step sized.positive (edgeAfter_eq found) index, if_pos rfl] at whole
      obtain ⟨filled, accepted, done⟩ := addWeight_accepts sized (Nat.lt_of_not_le there)
        (show list.countAt index + weight ≤ list.maxCount by omega)
      rw [done] at refused
      cases refused
  | case6 list position remaining ready going unsized index there edge found _ weight stored
      added ih =>
      have same := (addWeight_reweighed_of_ok added).fresh_eq
      have rest_inside : remaining - weight = 0 ∨
          position + weight + (remaining - weight) ≤ expanded := by
        omega
      exact ih (sized.of_fresh_eq same) rest_inside
        (fits_step sized.positive (edgeAfter_eq found) added fits)
  | case7 list position remaining ready going unsized index there edge found _ weight stored
      added fault refused =>
      have bound := (sized.stop_le (Nat.lt_of_not_le there)).trans_lt sized.expanded_lt
      rw [Chunk.ofLength_eq_ok bound] at refused
      cases refused
  | case8 list position remaining ready going unsized index there edge found _ weight stored
      added chunk made ih =>
      have same := (addWeight_reweighed_of_ok added).fresh_eq
      have rest_inside : remaining - weight = 0 ∨
          position + weight + (remaining - weight) ≤ expanded := by
        omega
      exact ih (sized.of_fresh_eq same) rest_inside
        (fits_step sized.positive (edgeAfter_eq found) added fits)

end AssignmentList

end Mixnet
