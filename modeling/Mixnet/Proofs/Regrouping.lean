import Mixnet.Proofs.Gate

/-!
# Order and cutting of reports do not matter

The reports that a module receives reach it in whatever order and pieces the modules before it work
in.  Nothing of that is left in the end: whether a run of reports faults, and what it leads to, is
settled by how often each slot is covered.

## Main definitions

* `AssignmentList.primeAll`: a run of reports
* `AssignmentList.Bears`: reports that stay in the batch and overload no assignment

## Main statements

* `AssignmentList.primeAll_eq_none_iff`: a run faults exactly if the list does not bear its reports
* `AssignmentList.ends_alike`: runs that cover each slot equally often end alike

## Design notes

The state after a run is described by the reports received and not by the run, so two runs are never
compared step by step.  A list without room is a case of its own, because it counts assignments as
full that nobody has primed.
-/

namespace Mixnet

namespace AssignmentList

variable {list after : AssignmentList} {expanded inputs unit chunkSize : Nat}
  {pieces chunks left right : List Chunk} {lists : List (List Chunk)}

/-! ## Runs -/

/-- Reports chunks one after the other.  Answers what each of them released, unless one faults. -/
def primeAll (list : AssignmentList) : List Chunk → Option (List (List Chunk) × AssignmentList)
  | [] => some ([], list)
  | chunk :: rest =>
    match list.prime chunk with
    | (.error _, _) => none
    | (.ok released, after) =>
      (after.primeAll rest).map fun (lists, final) => (released :: lists, final)

theorem primeAll_cons {chunk : Chunk} {released : List Chunk} {primed : AssignmentList}
    (accepted : list.prime chunk = (.ok released, primed)) (rest : List Chunk) :
    list.primeAll (chunk :: rest) =
      (primed.primeAll rest).map fun (lists, final) => (released :: lists, final) := by
  rw [primeAll, accepted]

/-- A run that goes through begins with a report that is accepted. -/
theorem of_primeAll_cons {chunk : Chunk}
    (done : list.primeAll (chunk :: chunks) = some (lists, after)) :
    ∃ released primed rest, list.prime chunk = (.ok released, primed) ∧
      primed.primeAll chunks = some (rest, after) ∧ lists = released :: rest := by
  rw [primeAll] at done
  split at done
  case h_1 => cases done
  case h_2 released primed accepted =>
    obtain ⟨⟨rest, final⟩, further, both⟩ := Option.map_eq_some_iff.mp done
    injection both with lists_eq final_eq
    subst lists_eq final_eq
    exact ⟨released, primed, rest, accepted, further, rfl⟩

/-- What a run has done to a list that agreed with some reports before it. -/
structure Gathered (list after : AssignmentList) (expanded : Nat) (pieces chunks out : List Chunk) :
    Prop where
  fresh_eq : after.fresh = list.fresh
  completed_eq : after.completed = list.completed
  accounts : after.Accounts (chunks.reverse ++ pieces)
  released_perm : after.released.Perm (list.released ++ out)
  inside : ∀ chunk ∈ chunks, chunk.start = chunk.stop ∨ chunk.stop ≤ expanded

/-- **A run keeps the agreement**, and what it releases is what the released assignments gain. -/
theorem Accounts.primeAll (accounts : list.Accounts pieces) (sized : list.Sized expanded inputs)
    (done : list.primeAll chunks = some (lists, after)) :
    Gathered list after expanded pieces chunks lists.flatten := by
  induction chunks generalizing list pieces lists with
  | nil =>
      injection done with both
      injection both with lists_eq same
      subst lists_eq same
      exact ⟨rfl, rfl, accounts, by simp, by simp⟩
  | cons chunk chunks ih =>
      obtain ⟨released, primed, rest, accepted, further, rfl⟩ := of_primeAll_cons done
      have first := prime_spec sized accounts accepted
      have later := ih first.accounts (sized.of_fresh_eq first.fresh_eq) further
      refine ⟨later.fresh_eq.trans first.fresh_eq, later.completed_eq.trans first.completed_eq,
        ?_, ?_, ?_⟩
      · rw [List.reverse_cons, List.append_assoc]
        exact later.accounts
      · rw [List.flatten_cons, ← List.append_assoc]
        exact later.released_perm.trans (first.released_perm.append_right _)
      · exact List.forall_mem_cons.mpr ⟨first.inside, later.inside⟩

/-- More reports never put less weight on an assignment. -/
theorem load_append_right_le (list : AssignmentList) (earlier later : List Chunk) (index : Nat) :
    list.load later index ≤ list.load (earlier ++ later) index := by
  rw [load, load, Chunk.weight, Chunk.weight]
  refine Finset.sum_le_sum fun slot _ => ?_
  rw [Chunk.coverage_append]
  exact Nat.le_add_left _ _

/-- **A run that overloads no assignment goes through.** -/
theorem Accounts.primeAll_accepts (accounts : list.Accounts pieces)
    (sized : list.Sized expanded inputs)
    (inside : ∀ chunk ∈ chunks, chunk.start = chunk.stop ∨ chunk.stop ≤ expanded)
    (fits : ∀ index < list.size, list.load (chunks.reverse ++ pieces) index ≤ list.maxCount) :
    ∃ lists after, list.primeAll chunks = some (lists, after) := by
  induction chunks generalizing list pieces with
  | nil => exact ⟨[], list, rfl⟩
  | cons chunk chunks ih =>
      obtain ⟨here, elsewhere⟩ := List.forall_mem_cons.mp inside
      rw [List.reverse_cons, List.append_assoc, List.singleton_append] at fits
      obtain ⟨released, primed, accepted⟩ := prime_accepts sized accounts here fun index known =>
        (list.load_append_right_le chunks.reverse _ index).trans (fits index known)
      have first := prime_spec sized accounts accepted
      obtain ⟨size_eq, -, max_eq, -⟩ := eq_of_fresh_eq first.fresh_eq
      have rest_fits : ∀ index < primed.size,
          primed.load (chunks.reverse ++ chunk :: pieces) index ≤ primed.maxCount := by
        rw [size_eq, max_eq, load_eq_of_fresh_eq first.fresh_eq]
        exact fits
      obtain ⟨rest, final, further⟩ :=
        ih first.accounts (sized.of_fresh_eq first.fresh_eq) elsewhere rest_fits
      exact ⟨released :: rest, final, by rw [primeAll_cons accepted, further, Option.map_some]⟩

/-! ## When a run faults -/

/-- Reports that stay in the batch and overload no assignment. -/
structure Bears (list : AssignmentList) (chunks : List Chunk) : Prop where
  inside : ∀ slot, list.size * list.assignmentSize ≤ slot → Chunk.coverage chunks slot = 0
  fits : ∀ index < list.size, list.load chunks index ≤ list.maxCount

theorem load_congr (list : AssignmentList)
    (same : ∀ slot, Chunk.coverage left slot = Chunk.coverage right slot) :
    list.load left = list.load right := by
  funext index
  rw [load, load, Chunk.weight, Chunk.weight]
  exact Finset.sum_congr rfl fun slot _ => same slot

/-- Whether a list bears reports depends only on how often each slot is covered. -/
theorem bears_congr (list : AssignmentList)
    (same : ∀ slot, Chunk.coverage left slot = Chunk.coverage right slot) :
    list.Bears left ↔ list.Bears right := by
  have loads := list.load_congr same
  constructor
  · rintro ⟨inside, fits⟩
    exact ⟨fun slot beyond => same slot ▸ inside slot beyond, loads ▸ fits⟩
  · rintro ⟨inside, fits⟩
    exact ⟨fun slot beyond => (same slot).trans (inside slot beyond), loads ▸ fits⟩

/-- Chunks that leave a slot uncovered from some slot on end before it, unless they are empty. -/
theorem stop_le_of_uncovered {limit : Nat}
    (uncovered : ∀ slot, limit ≤ slot → Chunk.coverage chunks slot = 0) {chunk : Chunk}
    (member : chunk ∈ chunks) : chunk.start = chunk.stop ∨ chunk.stop ≤ limit := by
  have ordered := chunk.start_le_stop
  by_contra beyond
  -- Its last slot would be covered.
  have covered : 0 < Chunk.coverage chunks (chunk.stop - 1) :=
    Chunk.coverage_pos_iff.mpr ⟨chunk, member, Chunk.covers_iff.mpr (by omega)⟩
  have none_there := uncovered (chunk.stop - 1) (by omega)
  omega

/-- Chunks that end before a slot, or are empty, leave it uncovered. -/
theorem uncovered_of_stop_le {limit : Nat}
    (inside : ∀ chunk ∈ chunks, chunk.start = chunk.stop ∨ chunk.stop ≤ limit) {slot : Nat}
    (beyond : limit ≤ slot) : Chunk.coverage chunks slot = 0 := by
  by_contra covered
  obtain ⟨chunk, member, covers⟩ := Chunk.coverage_pos_iff.mp (Nat.pos_of_ne_zero covered)
  have bounds := inside chunk member
  rw [Chunk.covers_iff] at covers
  omega

/-- A run of a new list goes through exactly if the list bears the reports. -/
theorem Accounts.primeAll_isSome_iff (accounts : list.Accounts [])
    (sized : list.Sized expanded inputs) :
    (list.primeAll chunks).isSome = true ↔ list.Bears chunks := by
  have reversed (slot : Nat) : Chunk.coverage (chunks.reverse ++ []) slot =
      Chunk.coverage chunks slot := by
    rw [List.append_nil]
    exact Chunk.coverage_perm (List.reverse_perm chunks) slot
  constructor
  · intro through
    obtain ⟨⟨lists, after⟩, done⟩ := Option.isSome_iff_exists.mp through
    have run := accounts.primeAll sized done
    obtain ⟨size_eq, -, max_eq, -⟩ := eq_of_fresh_eq run.fresh_eq
    refine ⟨?_, ?_⟩
    · intro slot beyond
      rw [sized.covering] at beyond
      exact uncovered_of_stop_le run.inside beyond
    · intro index known
      rw [← list.load_congr reversed, ← load_eq_of_fresh_eq run.fresh_eq,
        ← run.accounts.count_eq index (size_eq.symm ▸ known), ← max_eq]
      exact run.accounts.bounded index
  · rintro ⟨uncovered, fits⟩
    rw [sized.covering] at uncovered
    rw [← list.load_congr reversed] at fits
    obtain ⟨lists, after, done⟩ := accounts.primeAll_accepts sized
      (fun chunk member => stop_le_of_uncovered uncovered member) fits
    rw [done, Option.isSome_some]

/-- A list without room takes empty reports and no others. -/
theorem primeAll_of_no_room (positive : 0 < list.assignmentSize) (no_room : list.maxCount = 0)
    (unweighed : ∀ index, list.countAt index = 0) (chunks : List Chunk) :
    (∃ chunk ∈ chunks, chunk.start < chunk.stop) ∧ list.primeAll chunks = none ∨
      (∀ chunk ∈ chunks, chunk.start = chunk.stop) ∧
        ∃ lists, list.primeAll chunks = some (lists, list) ∧ lists.flatten = [] := by
  induction chunks with
  | nil => exact Or.inr ⟨by simp, [], rfl, rfl⟩
  | cons chunk chunks ih =>
      rcases Nat.eq_or_lt_of_le chunk.start_le_stop with empty | nonempty
      · rw [primeAll_cons (prime_of_empty empty)]
        rcases ih with ⟨⟨other, member, filled⟩, refused⟩ | ⟨all_empty, lists, done, nothing⟩
        · exact Or.inl ⟨⟨other, List.mem_cons_of_mem _ member, filled⟩, by rw [refused]; rfl⟩
        · refine Or.inr ⟨List.forall_mem_cons.mpr ⟨empty, all_empty⟩, [] :: lists, ?_, ?_⟩
          · rw [done, Option.map_some]
          · rw [List.flatten_cons, List.nil_append, nothing]
      · obtain ⟨fault, stored, refused⟩ := prime_refuses positive no_room unweighed nonempty
        exact Or.inl ⟨⟨chunk, List.mem_cons_self, nonempty⟩, by rw [primeAll, refused]⟩

/-- A list without room bears reports exactly if all of them are empty. -/
theorem bears_iff_of_no_room (positive : 0 < list.assignmentSize) (no_room : list.maxCount = 0) :
    list.Bears chunks ↔ ∀ chunk ∈ chunks, chunk.start = chunk.stop := by
  constructor
  · rintro ⟨inside, fits⟩ chunk member
    have ordered := chunk.start_le_stop
    by_contra nonempty
    have covered : 0 < Chunk.coverage chunks chunk.start :=
      Chunk.coverage_pos_iff.mpr ⟨chunk, member, Chunk.covers_iff.mpr (by omega)⟩
    rcases Nat.lt_or_ge chunk.start (list.size * list.assignmentSize) with within | beyond
    · -- The slot belongs to an assignment, which then has weight.
      have index_lt : chunk.start / list.assignmentSize < list.size :=
        (Nat.div_lt_iff_lt_mul positive).mpr within
      have high := Nat.lt_mul_div_succ chunk.start positive
      rw [Nat.mul_comm, Nat.succ_mul] at high
      have here : chunk.start ∈ Finset.Ico
          (chunk.start / list.assignmentSize * list.assignmentSize)
          (chunk.start / list.assignmentSize * list.assignmentSize + list.assignmentSize) :=
        Finset.mem_Ico.mpr ⟨Nat.div_mul_le_self _ _, high⟩
      have least : Chunk.coverage chunks chunk.start ≤
          list.load chunks (chunk.start / list.assignmentSize) :=
        Finset.single_le_sum (f := Chunk.coverage chunks) (fun _ _ => Nat.zero_le _) here
      have bound := fits _ index_lt
      omega
    · have none_there := inside _ beyond
      omega
  · intro all_empty
    have outside : ∀ chunk ∈ chunks, chunk.start = chunk.stop ∨ chunk.stop ≤ 0 :=
      fun chunk member => Or.inl (all_empty chunk member)
    have uncovered (slot : Nat) : Chunk.coverage chunks slot = 0 :=
      uncovered_of_stop_le outside (Nat.zero_le slot)
    refine ⟨fun slot _ => uncovered slot, fun index _ => ?_⟩
    rw [load, Chunk.weight, Finset.sum_eq_zero fun slot _ => uncovered slot]
    exact Nat.zero_le _

/-- **A run of a new list faults exactly if the list does not bear the reports.** -/
theorem primeAll_eq_none_iff {threshold : Binary32} (positive : 0 < unit)
    (divides : unit ∣ expanded) (expanded_lt : expanded < Word.limit 32)
    (made : create expanded unit chunkSize inputs threshold = .ok list) (chunks : List Chunk) :
    list.primeAll chunks = none ↔ ¬ list.Bears chunks := by
  by_cases uncounted : Word.narrow 32 (max inputs 1) = 0
  · obtain ⟨no_room, unit_eq⟩ := maxCount_of_create uncounted made
    have list_positive : 0 < list.assignmentSize := unit_eq ▸ positive
    rw [bears_iff_of_no_room list_positive no_room]
    rcases primeAll_of_no_room list_positive no_room (countAt_of_create made) chunks with
      ⟨⟨chunk, member, nonempty⟩, refused⟩ | ⟨all_empty, lists, done, -⟩
    · exact ⟨fun _ all_empty => nonempty.ne (all_empty chunk member), fun _ => refused⟩
    · have through : list.primeAll chunks ≠ none := by
        rw [done]
        exact Option.some_ne_none _
      exact ⟨fun refused => absurd refused through, fun filled => absurd all_empty filled⟩
  · rw [create_narrow uncounted] at made
    obtain ⟨sized, accounts, -⟩ := create_spec positive divides expanded_lt
      (Nat.mod_lt _ (by decide)) made
    rw [← accounts.primeAll_isSome_iff sized, Bool.not_eq_true, Option.isSome_eq_false_iff,
      Option.isNone_iff_eq_none]

/-! ## Runs that cover alike -/

/-- Lists that begin alike and carry the same weights are alike, but for the order in which full
assignments wait. -/
theorem Accounts.alike {other : AssignmentList} {pieces others : List Chunk}
    (accounts : list.Accounts pieces) (other_accounts : other.Accounts others)
    (fresh_eq : list.fresh = other.fresh)
    (same : ∀ slot, Chunk.coverage pieces slot = Chunk.coverage others slot) :
    list.counts = other.counts ∧ list.primed = other.primed ∧
      list.waiting.Perm other.waiting ∧ list.released = other.released := by
  obtain ⟨size_eq, unit_eq, max_eq, threshold_eq⟩ := eq_of_fresh_eq fresh_eq
  have counted : ∀ index < list.size, list.countAt index = other.countAt index := by
    intro index known
    rw [accounts.count_eq index known, other_accounts.count_eq index (size_eq ▸ known),
      list.load_congr same, load_eq_of_fresh_eq fresh_eq]
  have counts_eq : list.counts = other.counts := by
    refine Array.ext size_eq ?_
    intro index known other_known
    have here := counted index known
    rwa [countAt, countAt, Array.getElem?_eq_getElem known, Array.getElem?_eq_getElem other_known,
      Option.getD_some, Option.getD_some] at here
  have full_eq : list.full = other.full := by
    have count_eq : list.countAt = other.countAt := by
      funext index
      rw [countAt, countAt, counts_eq]
    have assignment_eq : list.assignment = other.assignment := by
      funext index
      simp only [assignment, unit_eq]
    rw [full, full, size_eq, max_eq, count_eq, assignment_eq]
  have primed_eq : list.primed = other.primed := by
    rw [accounts.primed_eq, other_accounts.primed_eq, full_eq]
  refine ⟨counts_eq, primed_eq, ?_, ?_⟩
  · rcases Nat.lt_or_ge list.primed list.threshold with closed | opened
    · have parked := accounts.parked closed
      rw [primed_eq, threshold_eq] at closed
      exact (full_eq ▸ parked).trans (other_accounts.parked closed).symm
    · rw [accounts.opened opened, other_accounts.opened (by omega)]
  · rw [released, released, primed_eq, threshold_eq, full_eq]

/-- **Reports that cover each slot equally often end alike.**  They fault or go through together,
and they fault exactly if they leave the batch or overload an assignment.  Where they go through,
they leave the same weights, the same number of full assignments and the same ones waiting, and
have released the same assignments, each once. -/
theorem ends_alike {threshold : Binary32} (positive : 0 < unit) (divides : unit ∣ expanded)
    (expanded_lt : expanded < Word.limit 32)
    (made : create expanded unit chunkSize inputs threshold = .ok list)
    (same : ∀ slot, Chunk.coverage left slot = Chunk.coverage right slot) :
    (list.primeAll left = none ↔ list.primeAll right = none) ∧
      (list.primeAll left = none ↔ ¬ list.Bears left) ∧
      ∀ left_lists left_end right_lists right_end,
        list.primeAll left = some (left_lists, left_end) →
        list.primeAll right = some (right_lists, right_end) →
        left_end.counts = right_end.counts ∧ left_end.primed = right_end.primed ∧
          left_end.completed = right_end.completed ∧
          left_end.waiting.Perm right_end.waiting ∧
          left_lists.flatten.Perm right_lists.flatten ∧ left_lists.flatten.Nodup := by
  have left_faults := primeAll_eq_none_iff positive divides expanded_lt made left
  have right_faults := primeAll_eq_none_iff positive divides expanded_lt made right
  refine ⟨?_, left_faults, ?_⟩
  · rw [left_faults, right_faults, list.bears_congr same]
  · intro left_lists left_end right_lists right_end left_done right_done
    by_cases uncounted : Word.narrow 32 (max inputs 1) = 0
    · -- Nothing but empty reports went through, and they changed nothing.
      obtain ⟨no_room, unit_eq⟩ := maxCount_of_create uncounted made
      have unchanged {chunks : List Chunk} {lists : List (List Chunk)} {after : AssignmentList}
          (done : list.primeAll chunks = some (lists, after)) :
          after = list ∧ lists.flatten = [] := by
        rcases primeAll_of_no_room (unit_eq ▸ positive) no_room (countAt_of_create made) chunks with
          ⟨-, refused⟩ | ⟨-, others, through, nothing⟩
        · rw [refused] at done
          cases done
        · rw [through] at done
          injection done with both
          injection both with lists_eq after_eq
          exact ⟨after_eq.symm, lists_eq ▸ nothing⟩
      obtain ⟨rfl, left_nothing⟩ := unchanged left_done
      obtain ⟨rfl, right_nothing⟩ := unchanged right_done
      rw [left_nothing, right_nothing]
      exact ⟨rfl, rfl, rfl, .refl _, .refl _, List.nodup_nil⟩
    · rw [create_narrow uncounted] at made
      obtain ⟨sized, accounts, untouched, -⟩ := create_spec positive divides expanded_lt
        (Nat.mod_lt _ (by decide)) made
      have left_run := accounts.primeAll sized left_done
      have right_run := accounts.primeAll sized right_done
      have covered (slot : Nat) : Chunk.coverage (left.reverse ++ []) slot =
          Chunk.coverage (right.reverse ++ []) slot := by
        rw [List.append_nil, List.append_nil, Chunk.coverage_perm (List.reverse_perm left),
          Chunk.coverage_perm (List.reverse_perm right), same]
      obtain ⟨counts_eq, primed_eq, waiting_perm, released_eq⟩ := left_run.accounts.alike
        right_run.accounts (left_run.fresh_eq.trans right_run.fresh_eq.symm) covered
      have none_before : list.released = [] :=
        (Fed.begin accounts untouched).released_perm.nil_eq.symm
      have left_released := left_run.released_perm
      have right_released := right_run.released_perm
      rw [none_before, List.nil_append] at left_released right_released
      have distinct := (sized.of_fresh_eq left_run.fresh_eq).nodup_all
      refine ⟨counts_eq, primed_eq, left_run.completed_eq.trans right_run.completed_eq.symm,
        waiting_perm, ?_, ?_⟩
      · rw [released_eq] at left_released
        exact left_released.symm.trans right_released
      · exact left_released.nodup_iff.mp (distinct.sublist left_end.released_sublist_all)

/-- The reports of the sample cut at slots inside assignments, and in another order. -/
def regroupedReports : List Chunk := (gatedReports.flatMap (·.pieces 3)).reverse

theorem ends_alike_sample : create 16 4 2 2 gatedThreshold = .ok gated ∧
    ∃ left_lists left_end right_lists right_end,
      gated.primeAll gatedReports = some (left_lists, left_end) ∧
      gated.primeAll regroupedReports = some (right_lists, right_end) ∧
      left_end.counts = #[2, 8, 2, 0] ∧ left_end.counts = right_end.counts ∧
      left_end.waiting.Perm right_end.waiting ∧
      left_lists.flatten.Perm right_lists.flatten := by
  have runs : ((gated.primeAll gatedReports).any fun run =>
      decide (run.2.counts = #[2, 8, 2, 0])) = true := by
    decide +kernel
  have regrouped : (gated.primeAll regroupedReports).isSome = true := by decide +kernel
  obtain ⟨⟨left_lists, left_end⟩, left_done, counted⟩ := (Option.any_eq_true _ _).mp runs
  obtain ⟨⟨right_lists, right_end⟩, right_done⟩ := Option.isSome_iff_exists.mp regrouped
  have made : create 16 4 2 2 gatedThreshold = .ok gated := by rfl
  have same (slot : Nat) :
      Chunk.coverage gatedReports slot = Chunk.coverage regroupedReports slot := by
    rw [regroupedReports, Chunk.coverage_perm (List.reverse_perm _)]
    simp only [gatedReports, List.flatMap_cons, List.flatMap_nil, Chunk.coverage_append,
      Chunk.coverage_pieces, Chunk.coverage_cons, Chunk.coverage_nil]
    omega
  obtain ⟨-, -, alike⟩ := ends_alike (by decide) (by decide) (by decide) made same
  obtain ⟨counts_eq, -, -, waiting_perm, released_perm, -⟩ := alike _ _ _ _ left_done right_done
  exact ⟨made, left_lists, left_end, right_lists, right_end, left_done, right_done,
    of_decide_eq_true counted, counts_eq, waiting_perm, released_perm⟩

end AssignmentList

end Mixnet
