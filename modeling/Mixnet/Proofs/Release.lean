import Mixnet.Proofs.Accounting

/-!
# What a report releases

A report adds weight, lets full assignments through the gate, and the module counts those it has
queued.  This file describes the three together, as one change of an accounting that agrees with the
reports received.

## Main definitions

* `AssignmentList.Accounts`: the accounting agrees with the reports received

## Main statements

* `AssignmentList.prime_spec`: an accepted report keeps the agreement, and what it releases is what
  the released assignments gain
* `AssignmentList.prime_accepts`: a report that overloads no assignment is accepted
* `AssignmentList.complete_eq`: counting what was released never fails while assignments are left
* `AssignmentList.create_spec`: a new list agrees with no reports, if a word can count the inputs
-/

namespace Mixnet

namespace AssignmentList

variable {list after : AssignmentList} {expanded inputs : Nat} {pieces : List Chunk}

/-- The weight that a list of pieces puts on an assignment. -/
def load (list : AssignmentList) (pieces : List Chunk) (index : Nat) : Nat :=
  Chunk.weight pieces (index * list.assignmentSize)
    (index * list.assignmentSize + list.assignmentSize)

/-- **The accounting agrees with the reports received.**  Below the threshold everything full is
parked; from then on nothing is. -/
structure Accounts (list : AssignmentList) (pieces : List Chunk) : Prop where
  count_eq : ∀ index < list.size, list.countAt index = list.load pieces index
  bounded : ∀ index, list.countAt index ≤ list.maxCount
  primed_eq : list.primed = list.full.length
  parked : list.primed < list.threshold → list.waiting.Perm list.full
  opened : list.threshold ≤ list.primed → list.waiting = []

theorem load_cons (list : AssignmentList) (chunk : Chunk) (pieces : List Chunk) (index : Nat) :
    list.load (chunk :: pieces) index =
      list.load pieces index + list.share chunk.start chunk.length index := by
  have whole : chunk.start + chunk.length = chunk.stop :=
    Nat.add_sub_cancel' chunk.start_le_stop
  rw [load, Chunk.weight_cons, share, whole]
  rfl

theorem load_eq_of_fresh_eq (same : after.fresh = list.fresh) : after.load = list.load := by
  obtain ⟨-, unit_eq, -, -⟩ := eq_of_fresh_eq same
  funext chunks index
  simp only [load, unit_eq]

theorem Sized.nodup_full (sized : list.Sized expanded inputs) : list.full.Nodup :=
  sized.nodup_all.sublist list.full_sublist_all

/-- A load is bounded by how often a slot can be covered. -/
theorem Sized.load_le (sized : list.Sized expanded inputs)
    (bounded : ∀ slot, Chunk.coverage pieces slot ≤ inputs) (index : Nat) :
    list.load pieces index ≤ list.maxCount := by
  have bound : list.load pieces index ≤ (index * list.assignmentSize + list.assignmentSize -
      index * list.assignmentSize) * inputs := Chunk.weight_le fun slot _ _ => bounded slot
  rwa [Nat.add_sub_cancel_left, ← sized.maxCount_eq] at bound

/-- Each slot of a full assignment was covered as often as it can be. -/
theorem Accounts.coverage_of_full (accounts : list.Accounts pieces)
    (sized : list.Sized expanded inputs) (bounded : ∀ slot, Chunk.coverage pieces slot ≤ inputs)
    {chunk : Chunk} (full : chunk ∈ list.full) {slot : Nat} (covered : chunk.covers slot = true) :
    Chunk.coverage pieces slot = inputs := by
  obtain ⟨index, inside, rfl, reached⟩ := mem_full.mp full
  obtain ⟨start_eq, stop_eq⟩ := sized.assignment_bounds inside
  rw [Chunk.covers_iff, start_eq, stop_eq] at covered
  -- The assignment carries the greatest weight that the bound allows, so no slot of it falls short.
  refine Chunk.coverage_eq_of_weight_eq (fun slot _ _ => bounded slot) ?_ covered.1 covered.2
  rw [Nat.add_sub_cancel_left, ← sized.maxCount_eq, ← reached, accounts.count_eq index inside]
  rfl

/-- An assignment whose slots were covered as often as they can be is full. -/
theorem Accounts.full_of_coverage (accounts : list.Accounts pieces)
    (sized : list.Sized expanded inputs) {index : Nat} (inside : index < list.size)
    (even : ∀ slot, (list.assignment index).covers slot = true →
      Chunk.coverage pieces slot = inputs) : list.countAt index = list.maxCount := by
  obtain ⟨start_eq, stop_eq⟩ := sized.assignment_bounds inside
  have whole := Chunk.weight_eq_of_coverage_eq fun slot above below =>
    even slot (Chunk.covers_iff.mpr ⟨start_eq ▸ above, stop_eq ▸ below⟩)
  rw [Nat.add_sub_cancel_left, ← sized.maxCount_eq] at whole
  rw [accounts.count_eq index inside, ← whole, load]

/-! ## The gate -/

/-- What became full is what the full assignments gain. -/
theorem Absorbed.full_perm {position remaining : Nat} {out : List Chunk}
    (sized : list.Sized expanded inputs)
    (visit : Absorbed list after position remaining [] out) :
    after.full.Perm (list.full ++ out) := by
  obtain ⟨size_eq, unit_eq, max_eq, -⟩ := eq_of_fresh_eq visit.reweighed.fresh_eq
  have after_sized := sized.of_fresh_eq visit.reweighed.fresh_eq
  have found : ∀ chunk, chunk ∈ out ↔ ∃ index < list.size, chunk = list.assignment index ∧
      list.countAt index < after.countAt index ∧ after.countAt index = list.maxCount := by
    intro chunk
    rw [visit.mem_out]
    simp
  have out_nodup : out.Nodup := visit.ascending.imp fun before same => by
    rw [same] at before
    exact Nat.lt_irrefl _ before
  have both_nodup : (list.full ++ out).Nodup := by
    refine List.nodup_append'.mpr ⟨sized.nodup_full, out_nodup, ?_⟩
    intro chunk old new
    obtain ⟨left, left_lt, left_eq, reached⟩ := mem_full.mp old
    obtain ⟨right, right_lt, right_eq, less, top⟩ := (found chunk).mp new
    have same := sized.index_eq_of_eq left_lt right_lt (left_eq.symm.trans right_eq)
    subst same
    omega
  -- Neither side has duplicates, so it is enough that they have the same members.
  rw [List.perm_ext_iff_of_nodup after_sized.nodup_full both_nodup]
  intro chunk
  rw [List.mem_append, mem_full, mem_full, found, size_eq, max_eq, visit.reweighed.assignment_eq]
  constructor
  · rintro ⟨index, inside, rfl, reached⟩
    rcases Nat.lt_or_ge (list.countAt index) list.maxCount with less | full
    · exact Or.inr ⟨index, inside, rfl, by omega, reached⟩
    · have := visit.count_eq index
      exact Or.inl ⟨index, inside, rfl, by omega⟩
  · rintro (⟨index, inside, rfl, full⟩ | ⟨index, inside, rfl, -, reached⟩)
    · have := visit.count_eq index
      have := visit.bounded index
      exact ⟨index, inside, rfl, by omega⟩
    · exact ⟨index, inside, rfl, reached⟩

theorem precedes_trans (first second third : Chunk) (left : first.precedes second = true)
    (right : second.precedes third = true) : first.precedes third = true := by
  simp only [Chunk.precedes, Bool.or_eq_true, Bool.and_eq_true, decide_eq_true_eq] at *
  omega

theorem precedes_total (first second : Chunk) :
    (first.precedes second || second.precedes first) = true := by
  simp only [Chunk.precedes, Bool.or_eq_true, Bool.and_eq_true, decide_eq_true_eq]
  omega

/-- Sorting full assignments puts them in strictly ascending order. -/
theorem Sized.ascending_sorted (sized : list.Sized expanded inputs) {chunks : List Chunk}
    (same : chunks.Perm list.full) : (Chunk.sorted chunks).Pairwise (·.start < ·.start) := by
  have sorted_perm : (Chunk.sorted chunks).Perm list.full :=
    (List.mergeSort_perm chunks Chunk.precedes).trans same
  have distinct : (Chunk.sorted chunks).Nodup := sorted_perm.nodup_iff.mpr sized.nodup_full
  have ordered : (Chunk.sorted chunks).Pairwise fun left right => left.precedes right = true :=
    List.pairwise_mergeSort precedes_trans precedes_total chunks
  -- The order only looks at bounds; distinct assignments have distinct bounds.
  refine (ordered.and distinct).imp_of_mem ?_
  intro left right left_mem right_mem both
  obtain ⟨before, different⟩ := both
  obtain ⟨left, left_lt, left_eq, -⟩ := mem_full.mp (sorted_perm.mem_iff.mp left_mem)
  obtain ⟨right, right_lt, right_eq, -⟩ := mem_full.mp (sorted_perm.mem_iff.mp right_mem)
  subst left_eq right_eq
  have starts_differ : (list.assignment left).start ≠ (list.assignment right).start :=
    fun same => different (congrArg list.assignment
      (sized.index_eq_of_start_eq left_lt right_lt same))
  simp only [Chunk.precedes, Bool.or_eq_true, Bool.and_eq_true, decide_eq_true_eq] at before
  omega

/-- The two ways a gate can answer: it keeps what it was given, or lets it through together with
what was parked. -/
theorem gate_cases {ready out : List Chunk} (done : list.gate ready = (.ok out, after)) :
    after = { list with primed := list.primed + ready.length, waiting := after.waiting } ∧
      ((list.primed + ready.length < list.threshold ∧ out = [] ∧
          after.waiting = list.waiting ++ ready) ∨
        (list.threshold ≤ list.primed + ready.length ∧ list.primed < list.threshold ∧
          out = Chunk.sorted (list.waiting ++ ready) ∧ after.waiting = []) ∨
        (list.threshold ≤ list.primed ∧ out = ready ∧ after.waiting = list.waiting)) := by
  unfold gate at done
  split at done
  case isTrue empty =>
    obtain rfl := List.isEmpty_iff.mp empty
    injection done with outcome same
    injection outcome with outcome
    subst outcome same
    refine ⟨rfl, ?_⟩
    rcases Nat.lt_or_ge list.primed list.threshold with closed | opened
    · exact Or.inl ⟨closed, rfl, (List.append_nil _).symm⟩
    · exact Or.inr (Or.inr ⟨opened, rfl, rfl⟩)
  case isFalse =>
    dsimp only at done
    split at done
    · cases done
    case h_2 primed summed =>
      unfold Word.sum at summed
      split at summed
      case isFalse => cases summed
      case isTrue fits =>
        injection summed with summed
        subst summed
        rw [Word.narrow_of_lt fits] at done
        split at done
        case isTrue closed =>
          injection done with outcome same
          injection outcome with outcome
          subst outcome same
          exact ⟨rfl, Or.inl ⟨closed, rfl, rfl⟩⟩
        case isFalse opened =>
          split at done
          case isTrue crossed =>
            injection done with outcome same
            injection outcome with outcome
            subst outcome same
            exact ⟨rfl, Or.inr (Or.inl ⟨Nat.le_of_not_lt opened, crossed, rfl, rfl⟩)⟩
          case isFalse before =>
            injection done with outcome same
            injection outcome with outcome
            subst outcome same
            exact ⟨rfl, Or.inr (Or.inr ⟨Nat.le_of_not_lt before, rfl, rfl⟩)⟩

/-- A list that agrees with the reports received is in the state that a visit expects. -/
theorem Accounts.visiting (accounts : list.Accounts pieces) (position remaining : Nat) :
    Visiting list position remaining [] :=
  ⟨accounts.bounded, List.Pairwise.nil, Or.inr (by simp)⟩

/-- A chunk that a visit has accepted lies in the batch, unless it is empty. -/
theorem Absorbed.within {chunk : Chunk} {out : List Chunk} (sized : list.Sized expanded inputs)
    (visit : Absorbed list after chunk.start chunk.length [] out) :
    chunk.start = chunk.stop ∨ chunk.stop ≤ expanded := by
  have ordered := chunk.start_le_stop
  rcases visit.inside with empty | within
  · left
    simp only [Chunk.length] at empty
    omega
  · right
    rw [sized.covering, Chunk.length, Nat.add_sub_cancel' ordered] at within
    exact within

/-- What an accepted report has done. -/
structure Primed (list after : AssignmentList) (expanded : Nat) (pieces : List Chunk)
    (chunk : Chunk) (out : List Chunk) : Prop where
  fresh_eq : after.fresh = list.fresh
  completed_eq : after.completed = list.completed
  accounts : after.Accounts (chunk :: pieces)
  released_perm : after.released.Perm (list.released ++ out)
  ascending : out.Pairwise (·.start < ·.start)
  inside : chunk.start = chunk.stop ∨ chunk.stop ≤ expanded

/-- **An accepted report keeps the agreement, and what it releases is what the released assignments
gain.** -/
theorem prime_spec (sized : list.Sized expanded inputs) (accounts : list.Accounts pieces)
    {chunk : Chunk} {out : List Chunk} (done : list.prime chunk = (.ok out, after)) :
    Primed list after expanded pieces chunk out := by
  unfold prime at done
  split at done
  · cases done
  case h_2 ready middle absorbed =>
  have visit := absorb_spec sized.positive
    (accounts.visiting chunk.start chunk.length) absorbed
  have full_perm := visit.full_perm sized
  have middle_sized := sized.of_fresh_eq visit.reweighed.fresh_eq
  obtain ⟨size_eq, unit_eq, max_eq, threshold_eq⟩ := eq_of_fresh_eq visit.reweighed.fresh_eq
  obtain ⟨gated, answers⟩ := gate_cases done
  have full_eq : after.full = middle.full := by rw [gated]; rfl
  have count_eq : after.countAt = middle.countAt := by rw [gated]; rfl
  have primed_eq : after.primed = list.primed + ready.length := by
    rw [gated, visit.reweighed.primed_eq]
  have after_threshold : after.threshold = list.threshold := by rw [gated, ← threshold_eq]
  have fresh_eq : after.fresh = list.fresh := by
    rw [← visit.reweighed.fresh_eq, gated]
    rfl
  have primed_full : after.primed = after.full.length := by
    rw [primed_eq, accounts.primed_eq, full_eq, full_perm.length_eq, List.length_append]
  have counts : ∀ index < after.size,
      after.countAt index = after.load (chunk :: pieces) index := by
    intro index inside
    rw [(eq_of_fresh_eq fresh_eq).1] at inside
    rw [load_eq_of_fresh_eq fresh_eq, load_cons, count_eq, visit.count_eq,
      accounts.count_eq index inside]
  have bounded : ∀ index, after.countAt index ≤ after.maxCount := by
    intro index
    rw [count_eq, (eq_of_fresh_eq fresh_eq).2.2.1]
    exact visit.bounded index
  have inside := visit.within sized
  have completed_eq : after.completed = list.completed := by
    rw [gated, ← visit.reweighed.completed_eq]
  rw [visit.reweighed.primed_eq, visit.reweighed.waiting_eq, threshold_eq] at answers
  rcases answers with ⟨closed, rfl, parked⟩ | ⟨reached, before, rfl, parked⟩ |
    ⟨opened, rfl, parked⟩
  · -- The gate stays closed: everything full is parked.
    have was_closed : list.primed < list.threshold := by omega
    have agrees : after.Accounts (chunk :: pieces) := by
      refine ⟨counts, bounded, primed_full, ?_, ?_⟩
      · intro _
        rw [parked, full_eq]
        exact ((accounts.parked was_closed).append_right ready).trans full_perm.symm
      · intro opened
        omega
    refine ⟨fresh_eq, completed_eq, agrees, ?_, List.Pairwise.nil, inside⟩
    · rw [released, released, if_pos was_closed, if_pos (by omega), List.append_nil]
  · -- The gate opens: what was parked leaves together with what became full.
    have gathered : (list.waiting ++ ready).Perm middle.full :=
      ((accounts.parked before).append_right ready).trans full_perm.symm
    have agrees : after.Accounts (chunk :: pieces) := by
      refine ⟨counts, bounded, primed_full, ?_, ?_⟩
      · intro closed
        omega
      · intro _
        exact parked
    refine ⟨fresh_eq, completed_eq, agrees, ?_, middle_sized.ascending_sorted gathered, inside⟩
    · rw [released, released, if_pos before, if_neg (by omega), List.nil_append, full_eq]
      exact gathered.symm.trans (List.mergeSort_perm _ _).symm
  · -- The gate was open: what became full leaves at once.
    have agrees : after.Accounts (chunk :: pieces) := by
      refine ⟨counts, bounded, primed_full, ?_, ?_⟩
      · intro closed
        omega
      · intro _
        rw [parked, accounts.opened opened]
    refine ⟨fresh_eq, completed_eq, agrees, ?_, visit.ascending, inside⟩
    · rw [released, released, if_neg (by omega), if_neg (by omega), full_eq]
      exact full_perm

/-- **A report that overloads no assignment is accepted.** -/
theorem prime_accepts (sized : list.Sized expanded inputs) (accounts : list.Accounts pieces)
    {chunk : Chunk} (inside : chunk.start = chunk.stop ∨ chunk.stop ≤ expanded)
    (fits : ∀ index < list.size, list.load (chunk :: pieces) index ≤ list.maxCount) :
    ∃ out after, list.prime chunk = (.ok out, after) := by
  have ordered := chunk.start_le_stop
  have within : chunk.length = 0 ∨ chunk.start + chunk.length ≤ expanded := by
    simp only [Chunk.length]
    omega
  -- An assignment that does not exist has no share of a chunk inside the batch.
  have room : ∀ index, list.countAt index + list.share chunk.start chunk.length index ≤
      list.maxCount := by
    intro index
    rcases Nat.lt_or_ge index list.size with exists_at | beyond
    · rw [accounts.count_eq index exists_at, ← load_cons]
      exact fits index exists_at
    · have apart := Nat.mul_le_mul_right list.assignmentSize beyond
      rw [sized.covering] at apart
      rw [countAt_of_size_le beyond, share]
      omega
  obtain ⟨ready, middle, absorbed⟩ := absorb_accepts sized within room
  have visit := absorb_spec sized.positive
    (accounts.visiting chunk.start chunk.length) absorbed
  have middle_sized := sized.of_fresh_eq visit.reweighed.fresh_eq
  have few : middle.primed + ready.length < Word.limit 32 := by
    have gathered := (visit.full_perm sized).length_eq
    have bound := middle.full_sublist_all.length_le
    have small := middle_sized.size_lt
    rw [List.length_append, ← accounts.primed_eq, ← visit.reweighed.primed_eq] at gathered
    rw [length_all] at bound
    omega
  unfold prime
  simp only [absorbed, gate, Word.sum_eq_ok few]
  split
  · exact ⟨_, _, rfl⟩
  · split
    · exact ⟨_, _, rfl⟩
    · split <;> exact ⟨_, _, rfl⟩

/-! ## Completion -/

/-- Counting what was released never fails while assignments are left. -/
theorem complete_eq (sized : list.Sized expanded inputs) {count : Nat}
    (left : list.completed + count ≤ list.size) :
    list.complete count = (.ok (decide (count ≠ 0 ∧ list.completed + count = list.size)),
      { list with completed := list.completed + count }) := by
  have word : list.completed + count < Word.limit 32 := left.trans_lt sized.size_lt
  unfold complete
  by_cases none_released : count = 0
  · simp [none_released]
  · simp [none_released, Word.sum_eq_ok word, Word.narrow_of_lt word, left]

/-! ## The beginning -/

theorem assignmentCount_mul {unit : Nat} (positive : 0 < unit) (divides : unit ∣ expanded) :
    assignmentCount expanded unit * unit = expanded := by
  obtain ⟨count, rfl⟩ := divides
  have one_le : max unit 1 = unit := by omega
  rw [assignmentCount, one_le, Nat.add_sub_assoc positive, Nat.mul_add_div positive,
    Nat.div_eq_of_lt (by omega), Nat.add_zero, Nat.mul_comm]

theorem countAt_of_create {unit chunkSize : Nat} {threshold : Binary32}
    (made : create expanded unit chunkSize inputs threshold = .ok list) (index : Nat) :
    list.countAt index = 0 := by
  unfold create at made
  obtain ⟨-, -, made⟩ := Fault.bind_eq_ok.mp made
  obtain ⟨_, _, made⟩ := Fault.bind_eq_ok.mp made
  injection made with made
  rw [← made]
  by_cases inside : index < assignmentCount expanded unit <;> simp [countAt, inside]

/-- **A new list agrees with no reports.** -/
theorem create_spec {unit chunkSize : Nat} {threshold : Binary32} (positive : 0 < unit)
    (divides : unit ∣ expanded) (expanded_lt : expanded < Word.limit 32)
    (few : inputs < Word.limit 32)
    (made : create expanded unit chunkSize inputs threshold = .ok list) :
    list.Sized expanded (max inputs 1) ∧ list.Accounts [] ∧ list.fresh = list ∧
      list.assignmentSize = unit ∧ list.chunkSize = chunkSize := by
  have empty := countAt_of_create made
  unfold create at made
  obtain ⟨-, -, made⟩ := Fault.bind_eq_ok.mp made
  obtain ⟨maxCount, multiplied, made⟩ := Fault.bind_eq_ok.mp made
  injection made with made
  have narrow_eq : Word.narrow 32 (max inputs 1) = max inputs 1 :=
    Word.narrow_of_lt (Nat.max_lt.mpr ⟨few, by decide⟩)
  rw [narrow_eq, Word.product] at multiplied
  split at multiplied
  case isFalse => cases multiplied
  case isTrue fits =>
    injection multiplied with multiplied
    have size_eq : list.size = assignmentCount expanded unit := by
      rw [← made]
      simp [size]
    have unit_eq : list.assignmentSize = unit := by rw [← made]
    have max_eq : list.maxCount = unit * max inputs 1 := by rw [← made, multiplied]
    have sized : list.Sized expanded (max inputs 1) := by
      refine ⟨unit_eq ▸ positive, ?_, expanded_lt, by omega, ?_, max_eq ▸ fits, ?_⟩
      · rw [size_eq, unit_eq, assignmentCount_mul positive divides]
      · rw [unit_eq, max_eq]
      · rw [size_eq, ← made]
        exact Nat.min_le_right _ _
    have none_full : list.full = [] := by
      rw [List.eq_nil_iff_forall_not_mem]
      intro chunk member
      obtain ⟨index, -, -, reached⟩ := mem_full.mp member
      have := sized.maxCount_pos
      have := empty index
      omega
    have primed_eq : list.primed = 0 := by rw [← made]
    have waiting_eq : list.waiting = [] := by rw [← made]
    have agrees : list.Accounts [] := by
      constructor
      · intro index _
        rw [empty, load, Chunk.weight_nil]
      · intro index
        rw [empty]
        exact Nat.zero_le _
      · rw [primed_eq, none_full, List.length_nil]
      · intro _
        rw [waiting_eq, none_full]
      · intro _
        exact waiting_eq
    refine ⟨sized, agrees, ?_, unit_eq, by rw [← made]⟩
    rw [← made]
    simp [fresh, size]

/-- An empty report changes nothing and releases nothing. -/
theorem prime_of_empty {chunk : Chunk} (empty : chunk.start = chunk.stop) :
    list.prime chunk = (.ok [], list) := by
  have nothing : chunk.length = 0 := Nat.sub_eq_zero_of_le empty.ge
  rw [prime, absorb, dif_pos nothing]
  rfl

/-- A list without room refuses every report that is not empty. -/
theorem prime_refuses (positive : 0 < list.assignmentSize) (no_room : list.maxCount = 0)
    (unweighed : ∀ index, list.countAt index = 0) {chunk : Chunk}
    (nonempty : chunk.start < chunk.stop) :
    ∃ fault after, list.prime chunk = (.error fault, after) := by
  cases absorbed : list.absorb chunk.start chunk.length [] with
  | mk answer stored =>
    cases answer with
    | error fault => exact ⟨fault, stored, by simp only [prime, absorbed]⟩
    | ok ready =>
        -- A report that was accepted would have added to the assignment it starts in.
        have begun : Visiting list chunk.start chunk.length [] := by
          refine ⟨?_, List.Pairwise.nil, Or.inr (by simp)⟩
          intro index
          rw [unweighed]
          exact Nat.zero_le _
        have visit := absorb_spec positive begun absorbed
        have gained := visit.count_eq (chunk.start / list.assignmentSize)
        have bounded := visit.bounded (chunk.start / list.assignmentSize)
        have low := Nat.div_mul_le_self chunk.start list.assignmentSize
        have high := Nat.lt_mul_div_succ chunk.start positive
        rw [Nat.mul_comm, Nat.succ_mul] at high
        rw [unweighed, share, Chunk.length] at gained
        omega

/-- A list whose number of inputs is zero as a word has no room. -/
theorem maxCount_of_create {unit chunkSize : Nat} {threshold : Binary32}
    (uncounted : Word.narrow 32 (max inputs 1) = 0)
    (made : create expanded unit chunkSize inputs threshold = .ok list) :
    list.maxCount = 0 ∧ list.assignmentSize = unit := by
  unfold create at made
  obtain ⟨-, -, made⟩ := Fault.bind_eq_ok.mp made
  obtain ⟨maxCount, multiplied, made⟩ := Fault.bind_eq_ok.mp made
  injection made with made
  rw [uncounted, Word.product, Nat.mul_zero, if_pos (by decide)] at multiplied
  injection multiplied with max_eq
  rw [← made, ← max_eq]
  exact ⟨rfl, rfl⟩

end AssignmentList

end Mixnet
