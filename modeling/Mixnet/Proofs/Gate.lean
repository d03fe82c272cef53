import Mixnet.Proofs.Release

/-!
# What a gate has let through

A module feeds its accounting the reports it receives, and counts what each of them releases.  In
every state of such a run the weights are those of the reports, the gate has either kept every full
assignment or let each of them through once, and the count of released assignments says exactly
when the last one has left.

All this rests on a positive maximum.  The maximum is a product with the number of inputs, as a
word; where that word is zero although there are inputs, assignments without any weight count as
full, and nobody has primed them.

## Main definitions

* `AssignmentList.feed`, `AssignmentList.feedAll`: a report and the count of what it releases, and
  a run of them
* `AssignmentList.AllFull`: every assignment is full
* `AssignmentList.Fed`: the accounting agrees with the reports, and the releases with the gate

## Main statements

* `AssignmentList.Fed.feed`: feeding a report keeps the agreement
* `AssignmentList.gate_law`: what holds of every run of a new list
* `AssignmentList.uncounted_inputs`: a list for more inputs than a word can count
-/

namespace Mixnet

namespace AssignmentList

variable {list after primed : AssignmentList} {expanded inputs unit chunkSize : Nat}
  {pieces chunks out released : List Chunk} {chunk : Chunk} {last : Bool}

/-! ## Feeding -/

/-- Reports a chunk, and counts what it released.  Answers the released assignments, and whether
they were the last. -/
def feed (list : AssignmentList) (chunk : Chunk) :
    Except Fault (List Chunk × Bool) × AssignmentList :=
  match list.prime chunk with
  | (.error fault, after) => (.error fault, after)
  | (.ok released, primed) =>
    match primed.complete released.length with
    | (.error fault, after) => (.error fault, after)
    | (.ok last, after) => (.ok (released, last), after)

/-- Reports chunks one after the other.  Answers what each of them released, unless one faults. -/
def feedAll (list : AssignmentList) : List Chunk → Option (List (List Chunk) × AssignmentList)
  | [] => some ([], list)
  | chunk :: rest =>
    match list.feed chunk with
    | (.error _, _) => none
    | (.ok (released, _), after) =>
      (after.feedAll rest).map fun (lists, final) => (released :: lists, final)

/-- Every assignment is full. -/
def AllFull (list : AssignmentList) : Prop :=
  ∀ index < list.size, list.countAt index = list.maxCount

/-- A report that went well was accepted, and what it released was counted. -/
theorem feed_ok (fed : list.feed chunk = (.ok (released, last), after)) :
    ∃ primed, list.prime chunk = (.ok released, primed) ∧
      primed.complete released.length = (.ok last, after) := by
  unfold feed at fed
  split at fed
  · cases fed
  case h_2 out primed accepted =>
    split at fed
    · cases fed
    case h_2 flag final counted =>
      injection fed with answer same
      injection answer with answer
      injection answer with released_eq last_eq
      subst released_eq last_eq same
      exact ⟨primed, accepted, counted⟩

/-! ## Full assignments and primed ones -/

theorem length_full (list : AssignmentList) :
    list.full.length =
      (List.range list.size).countP fun index => list.countAt index = list.maxCount := by
  rw [full, List.length_map, List.countP_eq_length_filter]

theorem length_full_le (list : AssignmentList) : list.full.length ≤ list.size := by
  have bound := list.full_sublist_all.length_le
  rwa [length_all] at bound

/-- As many assignments are full as there are, exactly if all of them are. -/
theorem length_full_eq_iff : list.full.length = list.size ↔ list.AllFull := by
  have whole : list.size = (List.range list.size).length := List.length_range.symm
  rw [length_full, AllFull]
  constructor
  · intro every index inside
    have each := List.countP_eq_length.mp (every.trans whole)
    exact of_decide_eq_true (each index (List.mem_range.mpr inside))
  · intro every
    refine (List.countP_eq_length.mpr ?_).trans whole.symm
    intro index member
    exact decide_eq_true (every index (List.mem_range.mp member))

theorem Accounts.length_released_le (accounts : list.Accounts pieces) :
    list.released.length ≤ list.primed := by
  rw [released, accounts.primed_eq]
  split
  · exact Nat.zero_le _
  · exact le_rfl

/-- The gate has let everything through exactly if everything is full. -/
theorem Accounts.length_released_eq_iff (accounts : list.Accounts pieces)
    (sized : list.Sized expanded inputs) :
    list.released.length = list.size ↔ list.AllFull := by
  rw [← length_full_eq_iff, released, accounts.primed_eq]
  have within := list.length_full_le
  have threshold_le := sized.threshold_le
  split
  · -- Below the threshold not everything is full, so there is something to let through.
    rw [List.length_nil]
    omega
  · exact Iff.rfl

/-! ## The agreement -/

/-- The accounting agrees with the reports, and what was released is what the gate has let
through. -/
structure Fed (list : AssignmentList) (pieces out : List Chunk) : Prop where
  accounts : list.Accounts pieces
  released_perm : out.Perm list.released
  completed_eq : list.completed = out.length

namespace Fed

/-- A list that was fed nothing has released nothing. -/
theorem begin (accounts : list.Accounts []) (untouched : list.fresh = list) : list.Fed [] [] := by
  have primed_eq : list.primed = 0 := by rw [← untouched, fresh]
  have completed_eq : list.completed = 0 := by rw [← untouched, fresh]
  have none_released : list.released = [] := by
    apply List.eq_nil_of_length_eq_zero
    exact Nat.le_zero.mp (primed_eq ▸ accounts.length_released_le)
  exact ⟨accounts, by rw [none_released], completed_eq⟩

/-- Released assignments never outnumber full ones. -/
theorem consistent (fed : list.Fed pieces out) : list.isConsistent = true := by
  have let_through := fed.accounts.length_released_le
  have within := list.length_full_le
  rw [isConsistent, Bool.and_eq_true, decide_eq_true_eq, decide_eq_true_eq, fed.completed_eq,
    fed.released_perm.length_eq]
  exact ⟨let_through, fed.accounts.primed_eq ▸ within⟩

/-- What a report releases is less than what is left, so that it can be counted. -/
theorem room (fed : list.Fed pieces out)
    (accepted : Primed list primed expanded pieces chunk released) :
    (out ++ released).Perm primed.released ∧ primed.completed = out.length ∧
      primed.completed + released.length ≤ primed.size := by
  have gathered : (out ++ released).Perm primed.released :=
    (fed.released_perm.append_right released).trans accepted.released_perm.symm
  have bound := gathered.length_eq ▸ primed.released_sublist_all.length_le
  rw [length_all, List.length_append] at bound
  have completed_eq := accepted.completed_eq.trans fed.completed_eq
  exact ⟨gathered, completed_eq, completed_eq ▸ bound⟩

/-- A report that is accepted leaves the counts consistent, and counting what it released does not
fail. -/
theorem accepts (fed : list.Fed pieces out) (sized : list.Sized expanded inputs)
    (accepted : list.prime chunk = (.ok released, primed)) : primed.isConsistent = true ∧
      ∃ last after, primed.complete released.length = (.ok last, after) := by
  have spec := prime_spec sized fed.accounts accepted
  obtain ⟨-, completed_eq, bound⟩ := fed.room spec
  refine ⟨?_, _, _, complete_eq (sized.of_fresh_eq spec.fresh_eq) bound⟩
  have let_through := spec.accounts.length_released_le
  have gained := spec.released_perm.length_eq
  have within := primed.length_full_le
  rw [List.length_append, ← fed.released_perm.length_eq] at gained
  rw [isConsistent, Bool.and_eq_true, decide_eq_true_eq, decide_eq_true_eq, completed_eq]
  exact ⟨by omega, spec.accounts.primed_eq ▸ within⟩

/-- **Feeding a report keeps the agreement.**  What it releases is in ascending order, and the count
answers that it was the last exactly if it filled the last assignment. -/
theorem feed (fed : list.Fed pieces out) (sized : list.Sized expanded inputs)
    (done : list.feed chunk = (.ok (released, last), after)) :
    after.Fed (chunk :: pieces) (out ++ released) ∧ after.fresh = list.fresh ∧
      released.Pairwise (·.start < ·.start) ∧
      (last = true ↔ after.AllFull ∧ ¬ list.AllFull) := by
  obtain ⟨primed, accepted, counted⟩ := feed_ok done
  have spec := prime_spec sized fed.accounts accepted
  have primed_sized := sized.of_fresh_eq spec.fresh_eq
  obtain ⟨gathered, completed_eq, bound⟩ := fed.room spec
  rw [complete_eq primed_sized bound] at counted
  injection counted with last_eq same
  injection last_eq with last_eq
  subst last_eq same
  obtain ⟨size_eq, -, -, -⟩ := eq_of_fresh_eq spec.fresh_eq
  have agrees := spec.accounts
  refine ⟨⟨⟨agrees.count_eq, agrees.bounded, agrees.primed_eq, agrees.parked, agrees.opened⟩,
    gathered, ?_⟩, spec.fresh_eq, spec.ascending, ?_⟩
  · show primed.completed + released.length = _
    rw [completed_eq, List.length_append]
  · -- All were let through now, and not before: so this report let some through.
    have now_iff : primed.completed + released.length = primed.size ↔ primed.AllFull := by
      rw [← agrees.length_released_eq_iff primed_sized, ← gathered.length_eq, List.length_append,
        completed_eq]
    have before_iff : out.length = list.size ↔ list.AllFull := by
      rw [← fed.accounts.length_released_eq_iff sized, fed.released_perm.length_eq]
    show _ ↔ primed.AllFull ∧ _
    rw [decide_eq_true_eq, ← now_iff, ← before_iff, size_eq]
    rw [size_eq] at bound
    omega

/-- **A run keeps the agreement.** -/
theorem feedAll {lists : List (List Chunk)} (fed : list.Fed pieces out)
    (sized : list.Sized expanded inputs) (done : list.feedAll chunks = some (lists, after)) :
    after.Fed (chunks.reverse ++ pieces) (out ++ lists.flatten) ∧ after.fresh = list.fresh ∧
      ∀ released ∈ lists, released.Pairwise (·.start < ·.start) := by
  induction chunks generalizing list pieces out lists with
  | nil =>
      injection done with both
      injection both with lists_eq same
      subst lists_eq same
      exact ⟨by simpa using fed, rfl, by simp⟩
  | cons chunk chunks ih =>
      rw [AssignmentList.feedAll] at done
      split at done
      case h_1 => cases done
      case h_2 released last next stepped =>
        obtain ⟨⟨rest, final⟩, further, both⟩ := Option.map_eq_some_iff.mp done
        injection both with lists_eq same
        subst lists_eq same
        obtain ⟨next_fed, next_fresh, ascending, -⟩ := fed.feed sized stepped
        obtain ⟨final_fed, final_fresh, all_ascending⟩ :=
          ih next_fed (sized.of_fresh_eq next_fresh) further
        refine ⟨by simpa using final_fed, final_fresh.trans next_fresh, ?_⟩
        intro other member
        rcases List.mem_cons.mp member with rfl | later
        · exact ascending
        · exact all_ascending other later

end Fed

/-! ## Every run -/

/-- A list is made for a number of inputs as a word. -/
theorem create_narrow {threshold : Binary32} (counted : Word.narrow 32 (max inputs 1) ≠ 0) :
    create expanded unit chunkSize inputs threshold =
      create expanded unit chunkSize (Word.narrow 32 (max inputs 1)) threshold := by
  have positive : max (Word.narrow 32 (max inputs 1)) 1 = Word.narrow 32 (max inputs 1) := by omega
  have again : Word.narrow 32 (Word.narrow 32 (max inputs 1)) = Word.narrow 32 (max inputs 1) :=
    Nat.mod_mod _ _
  rw [create, create, positive, again]

theorem load_eq_sum (list : AssignmentList) (pieces : List Chunk) (index : Nat) :
    list.load pieces index = (pieces.map fun piece => piece.overlap (index * list.assignmentSize)
      ((index + 1) * list.assignmentSize)).sum := by
  rw [load, ← Nat.succ_mul]
  induction pieces with
  | nil => exact Chunk.weight_nil _ _
  | cons piece pieces ih =>
      rw [Chunk.weight_cons, ih, List.map_cons, List.sum_cons, Nat.add_comm]

/-- **The law of the gate.**  Whatever chunks a new list is fed, as long as none faults: an
assignment has the weight of the parts of the chunks that fall into it; as many are primed as are
full; below the threshold nothing was released and all full ones wait, and from the threshold on
none waits and each full one was released once; every report releases in ascending order; what was
released was counted, consistently; and the count answers that it was the last exactly to the report
that fills the last assignment.  The number of inputs must not be zero as a word. -/
theorem gate_law {threshold : Binary32} {lists : List (List Chunk)} (positive : 0 < unit)
    (divides : unit ∣ expanded) (expanded_lt : expanded < Word.limit 32)
    (counted : Word.narrow 32 (max inputs 1) ≠ 0)
    (made : create expanded unit chunkSize inputs threshold = .ok list)
    (fed : list.feedAll chunks = some (lists, after)) :
    after.size * unit = expanded ∧
      (∀ index < after.size, after.countAt index = (chunks.map fun chunk =>
        chunk.overlap (index * unit) ((index + 1) * unit)).sum) ∧
      after.primed =
        ((List.range after.size).countP fun index => after.countAt index = after.maxCount) ∧
      (after.primed < after.threshold → lists.flatten = [] ∧ after.waiting.Perm after.full) ∧
      (after.threshold ≤ after.primed →
        after.waiting = [] ∧ lists.flatten.Perm after.full) ∧
      after.full.Nodup ∧
      (∀ released ∈ lists, released.Pairwise (·.start < ·.start)) ∧
      after.completed = lists.flatten.length ∧ after.isConsistent = true ∧
      (∀ chunk released primed, after.prime chunk = (.ok released, primed) →
        primed.isConsistent = true ∧
          ∃ last final, primed.complete released.length = (.ok last, final)) ∧
      ∀ chunk released last final, after.feed chunk = (.ok (released, last), final) →
        (last = true ↔ final.AllFull ∧ ¬ after.AllFull) := by
  rw [create_narrow counted] at made
  obtain ⟨sized, accounts, untouched, unit_eq, -⟩ := create_spec positive divides expanded_lt
    (Nat.mod_lt _ (by decide)) made
  obtain ⟨agrees, fresh_eq, ascending⟩ := (Fed.begin accounts untouched).feedAll sized fed
  have after_sized := sized.of_fresh_eq fresh_eq
  have after_unit : after.assignmentSize = unit := (eq_of_fresh_eq fresh_eq).2.1.trans unit_eq
  rw [List.append_nil, List.nil_append] at agrees
  refine ⟨?_, ?_, ?_, ?_, ?_, after_sized.nodup_full, ascending, agrees.completed_eq,
    agrees.consistent, ?_, ?_⟩
  · rw [← after_unit, after_sized.covering]
  · intro index inside
    rw [agrees.accounts.count_eq index inside, load_eq_sum, after_unit]
    exact ((List.reverse_perm chunks).map _).sum_eq
  · rw [agrees.accounts.primed_eq, length_full]
  · intro closed
    have none_released := agrees.released_perm
    rw [released, if_pos closed] at none_released
    exact ⟨none_released.eq_nil, agrees.accounts.parked closed⟩
  · intro opened
    have all_released := agrees.released_perm
    rw [released, if_neg (Nat.not_lt.mpr opened)] at all_released
    exact ⟨agrees.accounts.opened opened, all_released⟩
  · intro chunk released primed accepted
    exact agrees.accepts after_sized accepted
  · intro chunk released last final done
    exact (agrees.feed after_sized done).2.2.2

/-- A list of four assignments for two inputs, of which the gate wants two before it opens. -/
def gated : AssignmentList :=
  { counts := #[0, 0, 0, 0], assignmentSize := 4, chunkSize := 2, maxCount := 8, threshold := 2,
    primed := 0, completed := 0, waiting := [] }

/-- Half of the assignments. -/
def gatedThreshold : Binary32 := .ofQuotient false 1 2

/-- Reports that fill the second assignment and parts of its neighbours. -/
def gatedReports : List Chunk := [{ start := 4, stop := 8 }, { start := 2, stop := 10 }]

theorem gate_law_sample : create 16 4 2 2 gatedThreshold = .ok gated ∧
    ∃ lists after, gated.feedAll gatedReports = some (lists, after) ∧ after.primed = 1 ∧
      after.primed = ((List.range 4).countP fun index => after.countAt index = 8) ∧
      lists.flatten = [] ∧ after.waiting.Perm after.full ∧ after.isConsistent = true := by
  have runs : ((gated.feedAll gatedReports).any fun run => decide
      (run.2.primed = 1 ∧ run.2.threshold = 2 ∧ run.2.size = 4 ∧ run.2.maxCount = 8)) = true := by
    decide +kernel
  obtain ⟨⟨lists, after⟩, fed, ends⟩ := (Option.any_eq_true _ _).mp runs
  obtain ⟨primed_eq, threshold_eq, size_eq, max_eq⟩ := of_decide_eq_true ends
  have made : create 16 4 2 2 gatedThreshold = .ok gated := by rfl
  obtain ⟨-, -, primed_count, closed, -, -, -, -, consistent, -, -⟩ :=
    gate_law (by decide) (by decide) (by decide) (by decide) made fed
  dsimp only at primed_eq threshold_eq size_eq max_eq
  rw [size_eq, max_eq] at primed_count
  obtain ⟨none_released, parked⟩ := closed (by omega)
  exact ⟨made, lists, after, fed, primed_eq, primed_count, none_released, parked, consistent⟩

/-! ## More inputs than a word can count -/

/-- The list of four assignments for the least number of inputs that is no word. -/
def uncounted : AssignmentList :=
  { counts := #[0, 0, 0, 0], assignmentSize := 4, chunkSize := 0, maxCount := 0, threshold := 0,
    primed := 0, completed := 0, waiting := [] }

/-- **A list for the least number of inputs that is no word.**  Its maximum is zero, so all four
assignments are full as they are.  None of them is primed, and although the gate is open, an empty
report releases none. -/
theorem uncounted_inputs : create 16 4 0 (Word.limit 32) .zero = .ok uncounted ∧
    uncounted.feedAll [.empty] = some ([[]], uncounted) ∧
    uncounted.threshold ≤ uncounted.primed ∧ uncounted.primed = 0 ∧
    ((List.range uncounted.size).countP fun index =>
      uncounted.countAt index = uncounted.maxCount) = 4 := by
  have made : create 16 4 0 (Word.limit 32) .zero = .ok uncounted := by decide +kernel
  have fed : uncounted.feedAll [.empty] = some ([[]], uncounted) := by decide +kernel
  exact ⟨made, fed, le_rfl, rfl, by decide⟩

end AssignmentList

end Mixnet
