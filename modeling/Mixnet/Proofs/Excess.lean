import Mixnet.Proofs.Regrouping
import Mixnet.Proofs.Withholding

/-!
# Weight beyond what an assignment takes

A report can put more weight on an assignment than its inputs are good for, or reach past the last
assignment.  Both end the report with a fault.  This file says at which assignment, with which
fault, and what is stored by then.  The weight is added before it is compared, so an assignment
that is nearly full can be given more than a word holds: then the fault is not the one of excess
weight, and what is stored is less than what had been received.

## Main definitions

* `AssignmentList.reach`: the weight of an assignment if it takes its whole share of a report
* `AssignmentList.Stopped`: where a visit has ended, why, and what it leaves
* `AssignmentList.absorbInWords`: a visit with all its arithmetic in words
* `AssignmentList.Laden`: what holds of a list between two reports
* `AssignmentList.Overloads`: a report is too much for an assignment, or for the list

## Main statements

* `AssignmentList.absorb_stopped`: a visit that ends early ends at the first assignment it overloads
* `AssignmentList.absorbInWords_eq`: nothing but the weights can leave a word
* `AssignmentList.excess_law`: what becomes of every report to a list, up to the first fault
* `AssignmentList.excess_wraps`: excess weight that is not caught as such
-/

namespace Mixnet

namespace AssignmentList

variable {list after stored : AssignmentList} {fault : Fault} {ready : List Chunk}
  {position remaining index weight edge : Nat} {filled : Bool}

/-! ## One assignment -/

/-- A list whose assignments have a size and lie inside a word, each with a weight that it takes. -/
structure Bounded (list : AssignmentList) : Prop where
  positive : 0 < list.assignmentSize
  grid_lt : list.size * list.assignmentSize < Word.limit 32
  maxCount_lt : list.maxCount < Word.limit 32
  count_le : ∀ index, list.countAt index ≤ list.maxCount

/-- A list stays bounded while it accepts weight. -/
theorem Bounded.step (bounded : list.Bounded)
    (added : list.addWeight index weight = (.ok filled, stored)) : stored.Bounded := by
  obtain ⟨size_eq, unit_eq, max_eq, -⟩ :=
    eq_of_fresh_eq (addWeight_reweighed_of_ok added).fresh_eq
  obtain ⟨-, kept, small, -⟩ := addWeight_ok added
  obtain ⟨positive, grid_lt, maxCount_lt, count_le⟩ := bounded
  constructor
  · rwa [unit_eq]
  · rwa [size_eq, unit_eq]
  · rwa [max_eq]
  · intro other
    rw [max_eq]
    by_cases same : other = index
    · rwa [same]
    · rw [kept other same]
      exact count_le other

/-- The assignments of a bounded list end inside a word. -/
theorem Bounded.edge_lt (bounded : list.Bounded) (inside : ¬ list.size ≤ index) :
    (index + 1) * list.assignmentSize < Word.limit 32 :=
  Nat.lt_of_le_of_lt (Nat.mul_le_mul_right _ (Nat.lt_of_not_le inside)) bounded.grid_lt

/-- The edge behind a position inside a list is a word. -/
theorem Bounded.edgeAfter_ne_error (bounded : list.Bounded)
    (inside : ¬ list.size ≤ position / list.assignmentSize) :
    list.edgeAfter position ≠ .error fault := by
  intro refused
  rw [edgeAfter, Word.product_eq_ok (bounded.edge_lt inside)] at refused
  cases refused

/-- So is the end of every assignment. -/
theorem Bounded.ofLength_ne_error (bounded : list.Bounded) (inside : ¬ list.size ≤ index) :
    Chunk.ofLength (index * list.assignmentSize) list.assignmentSize ≠ .error fault := by
  intro refused
  have fits := bounded.edge_lt inside
  rw [Nat.succ_mul] at fits
  rw [Chunk.ofLength_eq_ok fits] at refused
  cases refused

/-- The fault of a weight that an assignment does not take. -/
def overload (weight : Nat) : Fault :=
  if weight < Word.limit 32 then
    .violated .weightOverflow "assignment weight exceeded max count" primeContext
  else .sumOverflow

/-- The fault of a report that reaches past the last assignment. -/
def passed : Fault :=
  .violated .weightOverflow "chunk extends past the last assignment" primeContext

/-- Weight is refused beyond the maximum, and by then it has been added, as a word. -/
theorem addWeight_refused (inside : index < list.size) (word : list.maxCount < Word.limit 32)
    (refused : list.addWeight index weight = (.error fault, after)) :
    list.maxCount < list.countAt index + weight ∧ fault = overload (list.countAt index + weight) ∧
      after.countAt index = Word.narrow 32 (list.countAt index + weight) ∧
      ∀ other, other ≠ index → after.countAt other = list.countAt other := by
  have found : list.counts[index]? = some list.counts[index] := Array.getElem?_eq_getElem inside
  have before : list.countAt index = list.counts[index] := by
    rw [countAt, found, Option.getD_some]
  have written (value : Nat) :
      (list.counts.setIfInBounds index value)[index]?.getD 0 = value := by
    rw [Array.getElem?_setIfInBounds_self_of_lt inside, Option.getD_some]
  have kept (value other : Nat) (different : other ≠ index) :
      (list.counts.setIfInBounds index value)[other]?.getD 0 = list.countAt other := by
    rw [Array.getElem?_setIfInBounds_ne (Ne.symm different), countAt]
  rw [before]
  simp only [addWeight, found, Word.sum] at refused
  by_cases fits : list.counts[index] + weight < Word.limit 32
  · simp only [if_pos fits] at refused
    split_ifs at refused with bounded
    · cases refused
    injection refused with outcome same
    injection outcome with outcome
    subst outcome same
    exact ⟨Nat.lt_of_not_le bounded, by rw [overload, if_pos fits], written _, kept _⟩
  · simp only [if_neg fits] at refused
    injection refused with outcome same
    injection outcome with outcome
    subst outcome same
    exact ⟨by omega, by rw [overload, if_neg fits], written _, kept _⟩

/-- The weight of an assignment, if it takes its whole share of the `remaining` slots from
`position` on. -/
def reach (list : AssignmentList) (position remaining index : Nat) : Nat :=
  list.countAt index + list.share position remaining index

/-- What an assignment reaches does not change while the visit goes on. -/
theorem reach_step (positive : 0 < list.assignmentSize)
    (edge_eq : edge =
      position / list.assignmentSize * list.assignmentSize + list.assignmentSize)
    (added : list.addWeight (position / list.assignmentSize) (min (edge - position) remaining) =
      (.ok filled, stored)) (other : Nat) :
    stored.reach (position + min (edge - position) remaining)
      (remaining - min (edge - position) remaining) other =
        list.reach position remaining other := by
  rw [reach, reach, countAt_addWeight added, (addWeight_reweighed_of_ok added).share_eq,
    share_step positive edge_eq other, Nat.add_assoc]

/-- At the assignment that is visited, the weight added is all that it reaches. -/
theorem reach_visited (positive : 0 < list.assignmentSize)
    (edge_eq : edge =
      position / list.assignmentSize * list.assignmentSize + list.assignmentSize) :
    list.reach position remaining (position / list.assignmentSize) =
      list.countAt (position / list.assignmentSize) + min (edge - position) remaining := by
  have high := lt_edge positive edge_eq
  have low := Nat.div_mul_le_self position list.assignmentSize
  rw [reach, share, ← edge_eq, Nat.max_eq_left low]
  omega

/-! ## Where a visit ends -/

/-- A visit has ended at an assignment: those before it have taken their shares, those behind it
have not been reached, and it is the one that was overloaded, or the place behind the last. -/
structure Stopped (list after : AssignmentList) (position remaining index : Nat) (fault : Fault) :
    Prop where
  reweighed : Reweighed list after
  ahead : position / list.assignmentSize ≤ index ∨ index = list.size
  before : ∀ other < index, list.reach position remaining other ≤ list.maxCount ∧
    after.countAt other = list.reach position remaining other
  behind : ∀ other, index < other → after.countAt other = list.countAt other
  cause : index < list.size ∧ list.maxCount < list.reach position remaining index ∧
      fault = overload (list.reach position remaining index) ∧
      after.countAt index = Word.narrow 32 (list.reach position remaining index) ∨
    index = list.size ∧ remaining ≠ 0 ∧
      list.size * list.assignmentSize < position + remaining ∧ fault = passed

/-- An assignment that ends before the visit begins reaches nothing new. -/
theorem reach_of_lt (earlier : index < position / list.assignmentSize) :
    list.reach position remaining index = list.countAt index := by
  have low := Nat.div_mul_le_self position list.assignmentSize
  have apart := Nat.mul_le_mul_right list.assignmentSize earlier
  rw [Nat.succ_mul] at apart
  rw [reach, share_of_stop_le (apart.trans low), Nat.add_zero]

/-- A visit ends at the first assignment if that is overloaded. -/
theorem Stopped.here (bounded : list.Bounded) (inside : position / list.assignmentSize < list.size)
    (edge_eq : edge =
      position / list.assignmentSize * list.assignmentSize + list.assignmentSize)
    (refused : list.addWeight (position / list.assignmentSize) (min (edge - position) remaining) =
      (.error fault, after)) :
    Stopped list after position remaining (position / list.assignmentSize) fault := by
  obtain ⟨exceeds, fault_eq, stored_eq, kept⟩ :=
    addWeight_refused inside bounded.maxCount_lt refused
  have change := addWeight_reweighed list (position / list.assignmentSize)
    (min (edge - position) remaining)
  rw [refused] at change
  rw [← reach_visited bounded.positive edge_eq] at exceeds fault_eq stored_eq
  refine ⟨change, Or.inl le_rfl, ?_, fun other later => kept other later.ne',
    Or.inl ⟨inside, exceeds, fault_eq, stored_eq⟩⟩
  intro other earlier
  rw [reach_of_lt earlier]
  exact ⟨bounded.count_le other, kept other earlier.ne⟩

/-- A visit that ends later than at the first assignment ends where the rest of it does. -/
theorem Stopped.step (positive : 0 < list.assignmentSize)
    (inside : position / list.assignmentSize < list.size)
    (edge_eq : edge =
      position / list.assignmentSize * list.assignmentSize + list.assignmentSize)
    (added : list.addWeight (position / list.assignmentSize) (min (edge - position) remaining) =
      (.ok filled, stored))
    (rest : Stopped stored after (position + min (edge - position) remaining)
      (remaining - min (edge - position) remaining) index fault) :
    Stopped list after position remaining index fault := by
  have change := addWeight_reweighed_of_ok added
  obtain ⟨size_eq, unit_eq, max_eq, -⟩ := eq_of_fresh_eq change.fresh_eq
  obtain ⟨-, kept, -, -⟩ := addWeight_ok added
  obtain ⟨reweighed, ahead, before, behind, cause⟩ := rest
  simp only [reach_step positive edge_eq added, size_eq, unit_eq, max_eq] at ahead before cause
  have onward : position / list.assignmentSize ≤
      (position + min (edge - position) remaining) / list.assignmentSize :=
    Nat.div_le_div_right (Nat.le_add_right _ _)
  refine ⟨change.trans reweighed, ahead.imp_left onward.trans, before, ?_, ?_⟩
  · intro other later
    rw [behind other later]
    refine kept other fun same => ?_
    omega
  · refine cause.imp_right fun ⟨last, going, beyond, fault_eq⟩ => ⟨last, ?_, ?_, fault_eq⟩
    · omega
    · omega

/-- **A visit that ends early ends at the first assignment that it overloads**, or behind the last
one. -/
theorem absorb_stopped (bounded : list.Bounded)
    (refused : list.absorb position remaining ready = (.error fault, after)) :
    ∃ index, Stopped list after position remaining index fault := by
  -- The induction follows the visit.  No edge and no end of an assignment leaves its word.
  fun_induction absorb list position remaining ready with
  | case1 => cases refused
  | case2 list _ _ _ _ unsized => exact absurd unsized bounded.positive.ne'
  | case3 list position remaining ready going unsized index outside =>
      injection refused with outcome same
      injection outcome with outcome
      subst outcome same
      have beyond : list.size * list.assignmentSize ≤ position :=
        (Nat.le_div_iff_mul_le bounded.positive).mp outside
      refine ⟨list.size, .refl list, Or.inr rfl, ?_, fun other _ => rfl,
        Or.inr ⟨rfl, going, by omega, rfl⟩⟩
      intro other earlier
      rw [reach_of_lt (Nat.lt_of_lt_of_le earlier outside)]
      exact ⟨bounded.count_le other, rfl⟩
  | case4 list position remaining ready going unsized index inside failure failed =>
      exact absurd failed (bounded.edgeAfter_ne_error inside)
  | case5 list position remaining ready going unsized index inside edge found _ weight failure
      stored failed =>
      injection refused with outcome same
      injection outcome with outcome
      subst outcome same
      exact ⟨_, .here bounded (Nat.lt_of_not_le inside) (edgeAfter_eq found) failed⟩
  | case6 list position remaining ready going unsized index inside edge found _ weight stored
      added ih =>
      obtain ⟨last, rest⟩ := ih (bounded.step added) refused
      exact ⟨last, rest.step bounded.positive (Nat.lt_of_not_le inside) (edgeAfter_eq found) added⟩
  | case7 list position remaining ready going unsized index inside edge found _ weight stored
      added failure failed =>
      exact absurd failed (bounded.ofLength_ne_error inside)
  | case8 list position remaining ready going unsized index inside edge found _ weight stored
      added chunk made ih =>
      obtain ⟨last, rest⟩ := ih (bounded.step added) refused
      exact ⟨last, rest.step bounded.positive (Nat.lt_of_not_le inside) (edgeAfter_eq found) added⟩

/-! ## The visit in words -/

/-- The slots from `position` up to the edge of its assignment, with every operation in a word. -/
def roomInWords (list : AssignmentList) (position : Nat) : Except Fault Nat := do
  let next ← Word.sum 32 (position / list.assignmentSize) 1
  let edge ← Word.product 32 next list.assignmentSize
  Word.difference edge position

/-- What has become full together with what did before, the next position and the slots that are
left, with every operation in a word. -/
def advanceInWords (list : AssignmentList) (position remaining weight : Nat) (filled : Bool)
    (ready : List Chunk) : Except Fault (List Chunk × Nat × Nat) := do
  let ready ← collect (position / list.assignmentSize) filled
  let next ← Word.sum 32 position weight
  let left ← Word.difference remaining weight
  return (ready, next, left)
where
  /-- The assignments that have become full, the newest first. -/
  collect (index : Nat) : Bool → Except Fault (List Chunk)
    | true => return (← Chunk.ofLength (index * list.assignmentSize) list.assignmentSize) :: ready
    | false => return ready

theorem room_pos {room : Nat} (sized : list.assignmentSize ≠ 0)
    (found : list.roomInWords position = .ok room) : 0 < room := by
  obtain ⟨next, summed, found⟩ := Fault.bind_eq_ok.mp found
  obtain ⟨edge, multiplied, found⟩ := Fault.bind_eq_ok.mp found
  have next_eq : position / list.assignmentSize + 1 = next := by
    unfold Word.sum at summed
    split_ifs at summed
    exact Except.ok.inj summed
  have edge_eq : next * list.assignmentSize = edge := by
    unfold Word.product at multiplied
    split_ifs at multiplied
    exact Except.ok.inj multiplied
  have room_eq : edge - position = room := by
    unfold Word.difference at found
    split_ifs at found
    exact Except.ok.inj found
  have high := Nat.lt_mul_div_succ position (Nat.pos_of_ne_zero sized)
  rw [Nat.mul_comm, next_eq, edge_eq] at high
  omega

theorem left_lt {out : List Chunk} {next left : Nat} (going : remaining ≠ 0)
    (positive : 0 < weight)
    (advanced :
      list.advanceInWords position remaining weight filled ready = .ok (out, next, left)) :
    left < remaining := by
  obtain ⟨full, -, advanced⟩ := Fault.bind_eq_ok.mp advanced
  obtain ⟨there, -, advanced⟩ := Fault.bind_eq_ok.mp advanced
  obtain ⟨rest, subtracted, advanced⟩ := Fault.bind_eq_ok.mp advanced
  injection advanced with advanced
  injection advanced with _ advanced
  injection advanced with _ same
  unfold Word.difference at subtracted
  split_ifs at subtracted
  have rest_eq : remaining - weight = rest := Except.ok.inj subtracted
  rw [← same, ← rest_eq]
  exact Nat.sub_lt (Nat.pos_of_ne_zero going) positive

/-- The visit of the assignments that a report overlaps, with every operation in a word. -/
def absorbInWords (list : AssignmentList) (position remaining : Nat) (ready : List Chunk) :
    Except Fault (List Chunk) × AssignmentList :=
  if _ : remaining = 0 then (.ok ready.reverse, list)
  else if unsized : list.assignmentSize = 0 then (.error .zeroDivisor, list)
  else if list.size ≤ position / list.assignmentSize then (.error passed, list)
  else
    match found : list.roomInWords position with
    | .error fault => (.error fault, list)
    | .ok room =>
      match list.addWeight (position / list.assignmentSize) (min room remaining) with
      | (.error fault, stored) => (.error fault, stored)
      | (.ok filled, stored) =>
        match advanced : list.advanceInWords position remaining (min room remaining) filled
            ready with
        | .error fault => (.error fault, stored)
        | .ok (ready, next, left) =>
          have := room_pos unsized found
          have := left_lt ‹_› (by omega) advanced
          stored.absorbInWords next left ready
termination_by remaining

/-- The edge of an assignment that exists is a word, and so is the way to it. -/
theorem roomInWords_eq (bounded : list.Bounded)
    (inside : ¬ list.size ≤ position / list.assignmentSize)
    (found : list.edgeAfter position = .ok edge) :
    list.roomInWords position = .ok (edge - position) := by
  have edge_lt := bounded.edge_lt inside
  have next_lt : position / list.assignmentSize + 1 < Word.limit 32 :=
    Nat.lt_of_le_of_lt (Nat.le_mul_of_pos_right _ bounded.positive) edge_lt
  have above := lt_edge bounded.positive (edgeAfter_eq found)
  rw [edgeAfter, Word.product_eq_ok edge_lt] at found
  injection found with edge_eq
  unfold roomInWords
  rw [Word.sum_eq_ok next_lt, Fault.ok_bind, Word.product_eq_ok edge_lt, Fault.ok_bind, edge_eq,
    Word.difference, if_pos above.le]

/-- A visit goes on inside the report. -/
theorem advanceInWords_eq {out : List Chunk} (within : weight ≤ remaining)
    (word : position + remaining < Word.limit 32)
    (collected :
      advanceInWords.collect list ready (position / list.assignmentSize) filled = .ok out) :
    list.advanceInWords position remaining weight filled ready =
      .ok (out, position + weight, remaining - weight) := by
  unfold advanceInWords
  rw [collected, Fault.ok_bind, Word.sum_eq_ok (by omega), Fault.ok_bind, Word.difference,
    if_pos within, Fault.ok_bind]
  rfl

/-- A visit in words goes on behind an assignment that has taken its share. -/
theorem absorbInWords_step {out : List Chunk} (bounded : list.Bounded) (going : remaining ≠ 0)
    (inside : ¬ list.size ≤ position / list.assignmentSize)
    (word : position + remaining < Word.limit 32) (found : list.edgeAfter position = .ok edge)
    (added : list.addWeight (position / list.assignmentSize) (min (edge - position) remaining) =
      (.ok filled, stored))
    (collected : advanceInWords.collect list ready (position / list.assignmentSize) filled =
      .ok out) :
    list.absorbInWords position remaining ready =
      stored.absorbInWords (position + min (edge - position) remaining)
        (remaining - min (edge - position) remaining) out := by
  have advanced := advanceInWords_eq (Nat.min_le_right (edge - position) remaining) word collected
  rw [absorbInWords, dif_neg going, dif_neg bounded.positive.ne', if_neg inside]
  split
  case h_1 fault stuck =>
    rw [roomInWords_eq bounded inside found] at stuck
    cases stuck
  case h_2 room there =>
    rw [roomInWords_eq bounded inside found] at there
    obtain rfl : edge - position = room := Except.ok.inj there
    rw [added]
    dsimp only
    split
    case h_1 fault stuck =>
      rw [advanced] at stuck
      cases stuck
    case h_2 ready next left on =>
      rw [advanced] at on
      injection on with on
      injection on with ready_eq on
      injection on with next_eq left_eq
      rw [ready_eq, next_eq, left_eq]

/-- **Nothing but the weights can leave a word**: the arithmetic of a visit never does. -/
theorem absorbInWords_eq (bounded : list.Bounded) (word : position + remaining < Word.limit 32)
    (ready : List Chunk) :
    list.absorbInWords position remaining ready = list.absorb position remaining ready := by
  fun_induction absorb list position remaining ready with
  | case1 => rw [absorbInWords, dif_pos rfl]
  | case2 _ _ _ _ going unsized => rw [absorbInWords, dif_neg going, dif_pos unsized]
  | case3 list position remaining ready going unsized index outside =>
      rw [absorbInWords, dif_neg going, dif_neg unsized, if_pos outside]
      rfl
  | case4 list position remaining ready going unsized index inside failure failed =>
      exact absurd failed (bounded.edgeAfter_ne_error inside)
  | case5 list position remaining ready going unsized index inside edge found _ weight failure
      stored failed =>
      rw [absorbInWords, dif_neg going, dif_neg unsized, if_neg inside]
      split
      case h_1 fault stuck =>
        rw [roomInWords_eq bounded inside found] at stuck
        cases stuck
      case h_2 room there =>
        rw [roomInWords_eq bounded inside found] at there
        obtain rfl : edge - position = room := Except.ok.inj there
        have refused : list.addWeight (position / list.assignmentSize)
          (min (edge - position) remaining) = (.error failure, stored) := failed
        rw [refused]
  | case6 list position remaining ready going unsized index inside edge found _ weight stored
      added ih =>
      rw [absorbInWords_step bounded going inside word found added rfl]
      exact ih (bounded.step added) (by omega)
  | case7 list position remaining ready going unsized index inside edge found _ weight stored
      added failure failed =>
      exact absurd failed (bounded.ofLength_ne_error inside)
  | case8 list position remaining ready going unsized index inside edge found _ weight stored
      added chunk made ih =>
      have collected : advanceInWords.collect list ready index true = .ok (chunk :: ready) := by
        rw [advanceInWords.collect, made]
        rfl
      rw [absorbInWords_step bounded going inside word found added collected]
      exact ih (bounded.step added) (by omega)

/-! ## Between two reports -/

/-- A list between two reports: its weights are those received, and whatever a visit accepts passes
the gate. -/
structure Laden (list : AssignmentList) (chunks : List Chunk) : Prop extends Bounded list where
  count_eq : ∀ index < list.size, list.countAt index = list.load chunks index
  passes : ∀ (chunk : Chunk) ready stored,
    list.absorb chunk.start chunk.length [] = (.ok ready, stored) →
      ∃ released final, list.prime chunk = (.ok released, final)

variable {expanded inputs unit chunkSize : Nat} {threshold : Binary32} {chunks : List Chunk}
  {lists : List (List Chunk)} {chunk : Chunk} {final : AssignmentList}

theorem Bounded.visiting (bounded : list.Bounded) (position remaining : Nat) :
    Visiting list position remaining [] :=
  ⟨bounded.count_le, List.Pairwise.nil, Or.inr (by simp)⟩

/-- A list that agrees with the reports is laden with them. -/
theorem Accounts.laden (accounts : list.Accounts chunks) (sized : list.Sized expanded inputs) :
    list.Laden chunks where
  positive := sized.positive
  grid_lt := sized.covering ▸ sized.expanded_lt
  maxCount_lt := sized.maxCount_lt
  count_le := accounts.bounded
  count_eq := accounts.count_eq
  passes chunk ready stored absorbed := by
    have visit := absorb_spec sized.positive (accounts.visiting _ _) absorbed
    refine prime_accepts sized accounts (visit.within sized) fun index known => ?_
    rw [load_cons, ← accounts.count_eq index known, ← visit.count_eq]
    exact visit.bounded index

/-- A list without room is laden with empty reports. -/
theorem laden_of_no_room (positive : 0 < list.assignmentSize)
    (grid_lt : list.size * list.assignmentSize < Word.limit 32) (no_room : list.maxCount = 0)
    (unweighed : ∀ index, list.countAt index = 0)
    (empty : ∀ chunk ∈ chunks, chunk.start = chunk.stop) :
    list.Laden chunks := by
  have bounded : list.Bounded := by
    refine ⟨positive, grid_lt, ?_, fun index => ?_⟩
    · rw [no_room]
      decide
    · rw [unweighed]
      exact Nat.zero_le _
  refine ⟨bounded, fun index known => ?_, fun chunk ready stored absorbed => ?_⟩
  · have nothing := ((bears_iff_of_no_room positive no_room).mpr empty).fits index known
    rw [unweighed]
    omega
  · -- Nothing becomes full by such a visit.
    have visit := absorb_spec positive (bounded.visiting _ _) absorbed
    have none_full : ready = [] := by
      rw [List.eq_nil_iff_forall_not_mem]
      intro full member
      rcases (visit.mem_out full).mp member with old | ⟨index, -, -, gained, reached⟩
      · cases old
      · omega
    exact ⟨[], stored, by rw [prime, absorbed, none_full]; rfl⟩

/-- The assignments of a new list cut the batch, however many inputs it is made for. -/
theorem grid_of_create (positive : 0 < unit) (divides : unit ∣ expanded)
    (made : create expanded unit chunkSize inputs threshold = .ok list) :
    list.assignmentSize = unit ∧ list.size * list.assignmentSize = expanded := by
  unfold create at made
  obtain ⟨-, -, made⟩ := Fault.bind_eq_ok.mp made
  obtain ⟨maxCount, -, made⟩ := Fault.bind_eq_ok.mp made
  injection made with made
  subst made
  refine ⟨rfl, ?_⟩
  rw [size, Array.size_replicate]
  exact assignmentCount_mul positive divides

/-- **A list that has accepted reports is laden with them.** -/
theorem laden_of_primeAll (positive : 0 < unit) (divides : unit ∣ expanded)
    (expanded_lt : expanded < Word.limit 32)
    (made : create expanded unit chunkSize inputs threshold = .ok list)
    (accepted : list.primeAll chunks = some (lists, after)) :
    after.fresh = list.fresh ∧ after.Laden chunks := by
  obtain ⟨unit_eq, grid⟩ := grid_of_create positive divides made
  by_cases uncounted : Word.narrow 32 (max inputs 1) = 0
  · obtain ⟨no_room, -⟩ := maxCount_of_create uncounted made
    have unweighed := countAt_of_create made
    rcases primeAll_of_no_room (unit_eq ▸ positive) no_room unweighed chunks with
      ⟨-, refused⟩ | ⟨empty, others, through, -⟩
    · rw [refused] at accepted
      cases accepted
    · rw [through] at accepted
      injection accepted with both
      injection both with _ same
      subst same
      exact ⟨rfl,
        laden_of_no_room (unit_eq ▸ positive) (grid ▸ expanded_lt) no_room unweighed empty⟩
  · rw [create_narrow uncounted] at made
    obtain ⟨sized, accounts, -⟩ := create_spec positive divides expanded_lt
      (Nat.mod_lt _ (by decide)) made
    have run := accounts.primeAll sized accepted
    have laden := run.accounts.laden (sized.of_fresh_eq run.fresh_eq)
    have same := after.load_congr fun slot => (show
      Chunk.coverage (chunks.reverse ++ []) slot = Chunk.coverage chunks slot by
        rw [List.append_nil, Chunk.coverage_perm (List.reverse_perm chunks)])
    exact ⟨run.fresh_eq, laden.toBounded, same ▸ laden.count_eq, laden.passes⟩

/-! ## The next report -/

/-- A report is too much for a list that has received others: it overloads the assignment at
`index`, or, if `index` is that of the place behind the last one, reaches past it. -/
def Overloads (list : AssignmentList) (chunks : List Chunk) (chunk : Chunk) (index : Nat) : Prop :=
  index < list.size ∧ list.maxCount < list.load (chunk :: chunks) index ∨
    index = list.size ∧ chunk.start < chunk.stop ∧
      list.size * list.assignmentSize < chunk.stop

/-- The fault of a report that is too much. -/
def refusal (list : AssignmentList) (chunks : List Chunk) (chunk : Chunk) (index : Nat) : Fault :=
  if index < list.size then overload (list.load (chunk :: chunks) index) else passed

/-- The weight stored for an assignment by a report that ends at `index`. -/
def storedAt (list : AssignmentList) (chunks : List Chunk) (chunk : Chunk) (index other : Nat) :
    Nat :=
  if other < index then list.load (chunk :: chunks) other
  else if other = index then Word.narrow 32 (list.load (chunk :: chunks) other)
  else list.load chunks other

namespace Laden

theorem reach_eq (laden : list.Laden chunks) (inside : index < list.size) :
    list.reach chunk.start chunk.length index = list.load (chunk :: chunks) index := by
  rw [reach, load_cons, laden.count_eq index inside]

/-- A report that faults has ended at the first place where it is too much. -/
theorem stopped (laden : list.Laden chunks) (refused : list.prime chunk = (.error fault, final)) :
    ∃ index, Stopped list final chunk.start chunk.length index fault := by
  cases absorbed : list.absorb chunk.start chunk.length [] with
  | mk outcome stored =>
      cases outcome with
      | ok ready =>
          obtain ⟨released, primed, accepted⟩ := laden.passes chunk ready stored absorbed
          rw [accepted] at refused
          cases refused
      | error failure =>
          rw [prime, absorbed] at refused
          injection refused with outcome same
          injection outcome with outcome
          subst outcome same
          exact absorb_stopped laden.toBounded absorbed

/-- Where a report has ended, it was too much, and nowhere before. -/
theorem overloads (laden : list.Laden chunks)
    (stopped : Stopped list final chunk.start chunk.length index fault) :
    list.Overloads chunks chunk index ∧ ∀ other < index, ¬ list.Overloads chunks chunk other := by
  have ordered := chunk.start_le_stop
  have length_eq : chunk.length = chunk.stop - chunk.start := rfl
  have within : index ≤ list.size := by
    rcases stopped.cause with ⟨inside, -⟩ | ⟨last, -⟩
    · exact inside.le
    · exact last.le
  constructor
  · rcases stopped.cause with ⟨inside, exceeds, -⟩ | ⟨last, going, beyond, -⟩
    · rw [laden.reach_eq inside] at exceeds
      exact Or.inl ⟨inside, exceeds⟩
    · exact Or.inr ⟨last, by omega, by omega⟩
  · rintro other earlier (⟨inside, exceeds⟩ | ⟨last, -⟩)
    · have small := (stopped.before other earlier).1
      rw [laden.reach_eq inside] at small
      omega
    · omega

/-- The fault of a report tells where it has ended. -/
theorem fault_eq (laden : list.Laden chunks)
    (stopped : Stopped list final chunk.start chunk.length index fault) :
    fault = list.refusal chunks chunk index := by
  unfold refusal
  rcases stopped.cause with ⟨inside, -, fault_eq, -⟩ | ⟨last, -, -, fault_eq⟩
  · rw [if_pos inside, fault_eq, laden.reach_eq inside]
  · rw [if_neg (by omega), fault_eq]

/-- What a report leaves where it has ended, and before and behind that. -/
theorem countAt_eq (laden : list.Laden chunks)
    (stopped : Stopped list final chunk.start chunk.length index fault) {other : Nat}
    (inside : other < list.size) :
    final.countAt other = list.storedAt chunks chunk index other := by
  unfold storedAt
  rcases Nat.lt_trichotomy other index with before | rfl | behind
  · rw [if_pos before, (stopped.before other before).2, laden.reach_eq inside]
  · rcases stopped.cause with ⟨-, -, -, stored_eq⟩ | ⟨last, -⟩
    · rw [if_neg (Nat.lt_irrefl other), if_pos rfl, stored_eq, laden.reach_eq inside]
    · omega
  · rw [if_neg (by omega), if_neg (by omega), stopped.behind other behind,
      laden.count_eq other inside]

/-- **A report is accepted exactly if it is nowhere too much.** -/
theorem prime_ok_iff (laden : list.Laden chunks) :
    (∃ released final, list.prime chunk = (.ok released, final)) ↔
      ∀ index, ¬ list.Overloads chunks chunk index := by
  have ordered := chunk.start_le_stop
  have length_eq : chunk.length = chunk.stop - chunk.start := rfl
  constructor
  · rintro ⟨released, final, accepted⟩ index overloads
    cases absorbed : list.absorb chunk.start chunk.length [] with
    | mk outcome stored =>
        cases outcome with
        | error failure =>
            rw [prime, absorbed] at accepted
            cases accepted
        | ok ready =>
            have visit := absorb_spec laden.positive (laden.toBounded.visiting _ _) absorbed
            rcases overloads with ⟨inside, exceeds⟩ | ⟨-, filled, beyond⟩
            · have small := visit.bounded index
              have reached : list.reach chunk.start chunk.length index =
                  list.load (chunk :: chunks) index := laden.reach_eq inside
              rw [visit.count_eq, ← reach, reached] at small
              omega
            · have within := visit.inside
              omega
  · intro nowhere
    cases answer : list.prime chunk with
    | mk outcome final =>
        cases outcome with
        | ok released => exact ⟨released, final, rfl⟩
        | error fault =>
            obtain ⟨index, stopped⟩ := laden.stopped answer
            exact absurd (laden.overloads stopped).1 (nowhere index)

/-- **A report ends at the first place where it is too much**, with the fault of that place, and
with its weight stored up to there. -/
theorem prime_eq_error (laden : list.Laden chunks) (overloads : list.Overloads chunks chunk index)
    (first : ∀ other < index, ¬ list.Overloads chunks chunk other) :
    ∃ final, list.prime chunk = (.error (list.refusal chunks chunk index), final) ∧
      ∀ other < list.size, final.countAt other = list.storedAt chunks chunk index other := by
  have refused : ¬ ∃ released final, list.prime chunk = (.ok released, final) :=
    fun accepted => laden.prime_ok_iff.mp accepted index overloads
  cases answer : list.prime chunk with
  | mk outcome final =>
      cases outcome with
      | ok released => exact absurd ⟨released, final, answer⟩ refused
      | error fault =>
          obtain ⟨last, stopped⟩ := laden.stopped answer
          obtain ⟨overloads_last, first_last⟩ := laden.overloads stopped
          obtain rfl : last = index := by
            rcases Nat.lt_trichotomy last index with before | same | behind
            · exact absurd overloads_last (first last before)
            · exact same
            · exact absurd overloads (first_last index behind)
          exact ⟨final, by rw [laden.fault_eq stopped],
            fun other inside => laden.countAt_eq stopped inside⟩

end Laden

/-! ## Excess weight is caught, or it wraps -/

/-- Excess weight is always caught as such: whatever the list has received, a report that faults
does so with the fault of excess weight, and nothing that had been received is missing from what
is stored. -/
def CatchesExcess (list : AssignmentList) : Prop :=
  ∀ chunks lists after chunk fault final, list.primeAll chunks = some (lists, after) →
    after.prime chunk = (.error fault, final) →
      (∃ reason, fault = .violated .weightOverflow reason primeContext) ∧
        ∀ index < list.size, list.load chunks index ≤ final.countAt index

/-- No report puts more on an assignment than that has slots. -/
theorem load_cons_le (list : AssignmentList) (chunks : List Chunk) (chunk : Chunk) (index : Nat) :
    list.load (chunk :: chunks) index ≤ list.load chunks index + list.assignmentSize := by
  rw [load_cons, share]
  omega

theorem load_le_cons (list : AssignmentList) (chunks : List Chunk) (chunk : Chunk) (index : Nat) :
    list.load chunks index ≤ list.load (chunk :: chunks) index := by
  rw [load_cons]
  exact Nat.le_add_right _ _

/-- What is too much for a list is a matter of what reports do not change. -/
theorem overloads_congr (same : after.fresh = list.fresh) :
    after.Overloads = list.Overloads ∧ after.refusal = list.refusal ∧
      after.storedAt = list.storedAt := by
  obtain ⟨size_eq, unit_eq, max_eq, -⟩ := eq_of_fresh_eq same
  have load_eq := load_eq_of_fresh_eq same
  refine ⟨?_, ?_, ?_⟩
  · ext chunks chunk index
    simp only [Overloads, size_eq, unit_eq, max_eq, load_eq]
  · ext chunks chunk index
    simp only [refusal, size_eq, load_eq]
  · ext chunks chunk index other
    simp only [storedAt, load_eq]

/-- A list for which no weight can leave its word catches all excess. -/
theorem catchesExcess_of_room (positive : 0 < unit) (divides : unit ∣ expanded)
    (expanded_lt : expanded < Word.limit 32)
    (made : create expanded unit chunkSize inputs threshold = .ok list)
    (room : list.size = 0 ∨ list.maxCount + list.assignmentSize < Word.limit 32) :
    list.CatchesExcess := by
  intro chunks lists after chunk fault final accepted refused
  obtain ⟨same, laden⟩ := laden_of_primeAll positive divides expanded_lt made accepted
  obtain ⟨size_eq, -, max_eq, -⟩ := eq_of_fresh_eq same
  obtain ⟨-, refusal_eq, stored_eq⟩ := overloads_congr same
  obtain ⟨index, stopped⟩ := laden.stopped refused
  have word {other : Nat} (inside : other < list.size) :
      list.load (chunk :: chunks) other < Word.limit 32 := by
    have held := laden.count_le other
    rw [laden.count_eq other (size_eq ▸ inside), load_eq_of_fresh_eq same, max_eq] at held
    have more := list.load_cons_le chunks chunk other
    omega
  constructor
  · rw [laden.fault_eq stopped, refusal_eq, refusal]
    split_ifs with inside
    · exact ⟨_, by rw [overload, if_pos (word inside)]⟩
    · exact ⟨_, rfl⟩
  · intro other inside
    have more := list.load_le_cons chunks chunk other
    rw [laden.countAt_eq stopped (size_eq ▸ inside), stored_eq, storedAt]
    split_ifs
    · exact more
    · rwa [Word.narrow_of_lt (word inside)]
    · exact le_rfl

/-- One report of the first assignment from each input fills it, and then one more is more than it
takes by all its slots. -/
theorem exists_filled (positive : 0 < unit) (divides : unit ∣ expanded)
    (expanded_lt : expanded < Word.limit 32)
    (made : create expanded unit chunkSize inputs threshold = .ok list) (inside : 0 < list.size)
    (counted : Word.narrow 32 (max inputs 1) ≠ 0) :
    ∃ chunks lists after, list.primeAll chunks = some (lists, after) ∧
      list.load (list.assignment 0 :: chunks) 0 = list.maxCount + list.assignmentSize := by
  rw [create_narrow counted] at made
  obtain ⟨sized, accounts, -⟩ := create_spec positive divides expanded_lt
    (Nat.mod_lt _ (by decide)) made
  obtain ⟨times, sized⟩ : ∃ times, list.Sized expanded times := ⟨_, sized⟩
  obtain ⟨start_eq, stop_eq⟩ := sized.assignment_bounds inside
  rw [Nat.zero_mul] at start_eq
  rw [Nat.zero_mul, Nat.zero_add] at stop_eq
  have covered (slot : Nat) : Chunk.coverage
      ((List.replicate times (list.assignment 0)).reverse ++ []) slot ≤ times := by
    rw [List.append_nil, List.reverse_replicate]
    exact (List.countP_le_length).trans (List.length_replicate).le
  obtain ⟨lists, after, accepted⟩ := accounts.primeAll_accepts sized
    (fun chunk member => Or.inr <| by
      rw [List.eq_of_mem_replicate member, stop_eq]
      exact (sized.stop_le inside).trans' (by omega))
    fun index _ => sized.load_le covered index
  refine ⟨List.replicate times (list.assignment 0), lists, after, accepted, ?_⟩
  have overlap_eq : (list.assignment 0).overlap 0 list.assignmentSize = list.assignmentSize := by
    rw [Chunk.overlap, start_eq, stop_eq, max_self, min_self, Nat.sub_zero]
  calc list.load (list.assignment 0 :: List.replicate times (list.assignment 0)) 0
      = list.load (List.replicate (times + 1) (list.assignment 0)) 0 := by
        rw [List.replicate_succ]
    _ = (times + 1) * list.assignmentSize := by
        rw [load, weight_replicate, Nat.zero_mul, Nat.zero_add, overlap_eq]
    _ = list.maxCount + list.assignmentSize := by
        rw [Nat.succ_mul, sized.maxCount_eq, Nat.mul_comm]

/-- A list whose assignments may take more than a word leaves for one more of them does not: the
first is filled, and reported once more. -/
theorem not_catchesExcess (positive : 0 < unit) (divides : unit ∣ expanded)
    (expanded_lt : expanded < Word.limit 32)
    (made : create expanded unit chunkSize inputs threshold = .ok list) (inside : 0 < list.size)
    (narrow : Word.limit 32 ≤ list.maxCount + list.assignmentSize) : ¬ list.CatchesExcess := by
  intro catches
  have sized : 0 < list.assignmentSize := (grid_of_create positive divides made).1 ▸ positive
  have counted : Word.narrow 32 (max inputs 1) ≠ 0 := by
    intro uncounted
    obtain ⟨no_room, -⟩ := maxCount_of_create uncounted made
    obtain ⟨-, grid⟩ := grid_of_create positive divides made
    have := Nat.le_mul_of_pos_left list.assignmentSize inside
    omega
  obtain ⟨chunks, lists, after, accepted, full⟩ :=
    exists_filled positive divides expanded_lt made inside counted
  obtain ⟨same, laden⟩ := laden_of_primeAll positive divides expanded_lt made accepted
  obtain ⟨overloads_eq, refusal_eq, -⟩ := overloads_congr same
  have overloads : after.Overloads chunks (list.assignment 0) 0 := by
    rw [overloads_eq]
    refine Or.inl ⟨inside, ?_⟩
    rw [full]
    exact Nat.lt_add_of_pos_right sized
  obtain ⟨final, refused, -⟩ := laden.prime_eq_error overloads (by simp)
  obtain ⟨⟨reason, violated⟩, -⟩ := catches _ _ _ _ _ _ accepted refused
  rw [refusal_eq, refusal, if_pos inside, overload, full,
    if_neg (Nat.not_lt.mpr narrow)] at violated
  cases violated

/-- **What becomes of every report to a list, up to the first fault.**  As long as none has
faulted, every assignment has stored what it has received.  The next report is accepted exactly if
it is nowhere too much.  Otherwise it ends at the first assignment that it overloads, or behind
the last one: the assignments before have stored their shares, those behind have not been reached,
and this one has stored its weight as a word.  The fault is that of excess weight if the weight is
a word, and an overflow if it is not; no other arithmetic leaves its word.  So excess is always
caught as such exactly if a word holds the maximum and one assignment more. -/
theorem excess_law (positive : 0 < unit) (divides : unit ∣ expanded)
    (expanded_lt : expanded < Word.limit 32)
    (made : create expanded unit chunkSize inputs threshold = .ok list) :
    (∀ chunks lists after, list.primeAll chunks = some (lists, after) →
      (∀ index < list.size, after.countAt index = list.load chunks index ∧
        list.load chunks index ≤ list.maxCount) ∧
      ∀ chunk : Chunk,
        after.absorbInWords chunk.start chunk.length [] =
          after.absorb chunk.start chunk.length [] ∧
        ((∃ released final, after.prime chunk = (.ok released, final)) ↔
          ∀ index, ¬ list.Overloads chunks chunk index) ∧
        ∀ index, list.Overloads chunks chunk index →
          (∀ other < index, ¬ list.Overloads chunks chunk other) →
          ∃ final, after.prime chunk = (.error (list.refusal chunks chunk index), final) ∧
            ∀ other < list.size, final.countAt other = list.storedAt chunks chunk index other) ∧
      (list.CatchesExcess ↔
        list.size = 0 ∨ list.maxCount + list.assignmentSize < Word.limit 32) := by
  constructor
  · intro chunks lists after accepted
    obtain ⟨same, laden⟩ := laden_of_primeAll positive divides expanded_lt made accepted
    obtain ⟨size_eq, -, max_eq, -⟩ := eq_of_fresh_eq same
    obtain ⟨overloads_eq, refusal_eq, stored_eq⟩ := overloads_congr same
    rw [← overloads_eq, ← refusal_eq, ← stored_eq, ← load_eq_of_fresh_eq same, ← size_eq, ← max_eq]
    refine ⟨fun index inside => ?_, fun chunk => ⟨?_, laden.prime_ok_iff, fun index =>
      laden.prime_eq_error⟩⟩
    · have count_eq := laden.count_eq index inside
      exact ⟨count_eq, count_eq ▸ laden.count_le index⟩
    · refine absorbInWords_eq laden.toBounded ?_ []
      rw [Chunk.length, Nat.add_sub_cancel' chunk.start_le_stop]
      exact chunk.stop_lt
  · refine ⟨fun catches => ?_, catchesExcess_of_room positive divides expanded_lt made⟩
    by_contra wide
    rw [not_or, Nat.not_lt] at wide
    exact not_catchesExcess positive divides expanded_lt made (Nat.pos_of_ne_zero wide.1) wide.2
      catches

/-- A list of one assignment that takes half of what a word can tell apart. -/
def half : AssignmentList :=
  { counts := #[0], assignmentSize := 2147483648, chunkSize := 1, maxCount := 2147483648,
    threshold := 0, primed := 0, completed := 0, waiting := [] }

/-- The slots of that assignment. -/
def halfChunk : Chunk := { start := 0, stop := 2147483648, stop_lt := by decide }

theorem excess_law_sample : create 2147483648 2147483648 1 1 .zero = .ok half ∧
    ¬ half.CatchesExcess ∧
    create 16 4 2 2 gatedThreshold = .ok gated ∧ gated.CatchesExcess := by
  have made : create 2147483648 2147483648 1 1 .zero = .ok half := by decide +kernel
  have small : create 16 4 2 2 gatedThreshold = .ok gated := by decide +kernel
  obtain ⟨-, caught_iff⟩ := excess_law (by decide) (by decide) (by decide) made
  obtain ⟨-, small_caught_iff⟩ := excess_law (by decide) (by decide) (by decide) small
  exact ⟨made, fun catches => absurd (caught_iff.mp catches) (by decide), small,
    small_caught_iff.mpr (by decide)⟩

/-- **Excess weight that is not caught as such.**  Two reports of all slots are one too many for the
list.  The second is ended by an overflow, and of the weight received nothing is left. -/
theorem excess_wraps : create 2147483648 2147483648 1 1 .zero = .ok half ∧
    ∃ lists after, half.primeAll [halfChunk] = some (lists, after) ∧ after.counts = #[2147483648] ∧
      ∃ final, after.prime halfChunk = (.error .sumOverflow, final) ∧ final.counts = #[0] := by
  have made : create 2147483648 2147483648 1 1 .zero = .ok half := by decide +kernel
  have runs : ((half.primeAll [halfChunk]).any fun run =>
      decide (run.2.counts = #[2147483648] ∧
        (run.2.prime halfChunk).1 = .error .sumOverflow ∧
        (run.2.prime halfChunk).2.counts = #[0])) = true := by
    decide +kernel
  obtain ⟨⟨lists, after⟩, accepted, ends⟩ := (Option.any_eq_true _ _).mp runs
  obtain ⟨stored, refused, wrapped⟩ := of_decide_eq_true ends
  exact ⟨made, lists, after, accepted, stored, _, Prod.ext refused rfl, wrapped⟩

end AssignmentList

end Mixnet
