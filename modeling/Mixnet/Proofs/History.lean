import Mixnet.Proofs.Conservation

/-!
# What must have happened before

Every observation of a run has a past that explains it: a kernel is called on part of an assignment
that was queued, a piece is reported where the kernel has returned, and an assignment is queued when
all inputs have returned on all of it.  The last of these is what counting weights is for, and it
holds because no input reports a slot twice.

## Main definitions

* `Dispatch.Justified`: what the past of an observation has to contain
* `Dispatch.Causal`: a journal in which every observation is justified
* `Worker.Sound`: a worker whose next reports are justified
* `Dispatch.Sparing`: no input has reported a slot twice

## Main statements

* `Dispatch.Causal.coverage_le`: a module has received no slot more often than it has inputs
* `Dispatch.Causal.returned_of_full`: the slots of a full assignment were returned by every input
* `Dispatch.Causal.deliver`: a report with the assignments it releases is justified
* `Dispatch.Causal.returned_input`: where a module has returned, its inputs have
-/

namespace Mixnet

open Journal

namespace Dispatch

variable {origin dispatch : Dispatch} {first expanded : Nat} {rank : Nat → Nat}
  {journal past : List Observation}

/-! ## Justified observations -/

/-- What the past of an observation has to contain. -/
def Justified (origin : Dispatch) (first : Nat) (past : List Observation) : Observation → Prop
  | .called id chunk =>
      id < origin.sink ∧ ∃ assignment, .queued id assignment ∈ past ∧
        assignment.start ≤ chunk.start ∧ chunk.stop ≤ assignment.stop
  | .returned id chunk _ => .called id chunk ∈ past
  | .reported none target _ => target = first
  | .reported (some source) target piece =>
      (∃ module, origin.modules[target]? = some module ∧ source ∈ module.inputs) ∧
        ∀ slot, piece.covers slot = true → Returned past source slot
  | .queued id chunk =>
      ∃ module, origin.modules[id]? = some module ∧ chunk ∈ module.assignments.all ∧
        ∀ input ∈ module.inputs, ∀ slot, chunk.covers slot = true → Returned past input slot

theorem Justified.mono {more : List Observation} (within : past ⊆ more) {observation : Observation}
    (justified : Justified origin first past observation) :
    Justified origin first more observation := by
  match observation, justified with
  | .called id chunk, ⟨wired, assignment, queued, bounds⟩ =>
      exact ⟨wired, assignment, within queued, bounds⟩
  | .returned id chunk result, called => exact within called
  | .reported none target piece, entrance => exact entrance
  | .reported (some source) target piece, ⟨wired, returned⟩ =>
      exact ⟨wired, fun slot covered => (returned slot covered).mono within⟩
  | .queued id chunk, ⟨module, found, assigned, returned⟩ =>
      exact ⟨module, found, assigned,
        fun input input_mem slot covered => (returned input input_mem slot covered).mono within⟩

/-- Every observation of a journal is justified by what was observed before it. -/
def Causal (origin : Dispatch) (first : Nat) (journal : List Observation) : Prop :=
  ∀ observation past, observation :: past <:+ journal → Justified origin first past observation

namespace Causal

theorem nil : Causal origin first [] := by
  intro observation past suffix
  exact absurd (List.suffix_nil.mp suffix) (List.cons_ne_nil _ _)

theorem cons (causal : Causal origin first journal) {observation : Observation}
    (justified : Justified origin first journal observation) :
    Causal origin first (observation :: journal) := by
  intro other past suffix
  rcases List.suffix_cons_iff.mp suffix with same | earlier
  · injection same with same_head same_tail
    subst same_head same_tail
    exact justified
  · exact causal other past earlier

/-- What is justified by a journal can be observed in any order. -/
theorem append (causal : Causal origin first journal) {newer : List Observation}
    (justified : ∀ observation ∈ newer, Justified origin first journal observation) :
    Causal origin first (newer ++ journal) := by
  induction newer with
  | nil => exact causal
  | cons observation newer ih =>
      refine (ih fun other member => justified other (List.mem_cons_of_mem _ member)).cons ?_
      exact (justified observation List.mem_cons_self).mono fun other member =>
        List.mem_append_right newer member

theorem justified (causal : Causal origin first journal) {observation : Observation}
    (member : observation ∈ journal) : Justified origin first journal observation := by
  obtain ⟨newer, past, split⟩ := List.append_of_mem member
  have suffix : observation :: past <:+ journal := ⟨newer, split.symm⟩
  refine (causal observation past suffix).mono ?_
  intro other other_mem
  exact suffix.subset (List.mem_cons_of_mem _ other_mem)

/-! ## How often a slot is received -/

/-- A piece reported to a module other than the first comes from one of its inputs. -/
theorem sourced (causal : Causal origin first journal) {target : Nat}
    {module : Module} (found : origin.modules[target]? = some module) (inner : target ≠ first)
    {source : Option Nat} {piece : Chunk}
    (member : .reported source target piece ∈ journal) :
    ∃ input ∈ module.inputs, source = some input := by
  have known := causal.justified member
  cases source with
  | none => exact absurd known inner
  | some input =>
      obtain ⟨⟨other, other_found, wired⟩, -⟩ := known
      rw [found] at other_found
      injection other_found with same
      exact ⟨input, same ▸ wired, rfl⟩

end Causal

/-- No input of a module has reported a slot to it twice. -/
def Sparing (journal : List Observation) (module : Module) (target : Nat) : Prop :=
  ∀ input ∈ module.inputs, ∀ slot,
    Chunk.coverage (reportsFrom journal (some input) target) slot ≤ 1

section Received

variable {target : Nat} {module : Module}

/-- Numbers that are at most one, and add up to how many they are, are one each. -/
theorem eq_one_of_sum_eq {inputs : List Nat} {value : Nat → Nat}
    (bounded : ∀ input ∈ inputs, value input ≤ 1)
    (whole : (inputs.map value).sum = inputs.length) : ∀ input ∈ inputs, value input = 1 := by
  induction inputs with
  | nil => simp
  | cons head rest ih =>
      have rest_bounded : ∀ input ∈ rest, value input ≤ 1 :=
        fun input member => bounded input (List.mem_cons_of_mem _ member)
      have head_bound := bounded head List.mem_cons_self
      have rest_bound := List.sum_le_card_nsmul (rest.map value) 1 (by simpa using rest_bounded)
      rw [List.map_cons, List.sum_cons, List.length_cons] at whole
      rw [List.length_map, smul_eq_mul, Nat.mul_one] at rest_bound
      intro input member
      rcases List.mem_cons.mp member with rfl | later
      · omega
      · exact ih rest_bounded (by omega) input later

/-- **A module has received no slot more often than it has inputs.** -/
theorem Causal.coverage_le (causal : Causal origin first journal)
    (laid : origin.Laid first expanded rank) (found : origin.modules[target]? = some module)
    (inner : target ≠ first) (sparing : Sparing journal module target) (slot : Nat) :
    Chunk.coverage (reportsTo journal target) slot ≤ module.inputs.length := by
  rw [coverage_reportsTo (laid.distinct target module found)
    fun source piece member => causal.sourced found inner member]
  have bound := List.sum_le_card_nsmul (module.inputs.map fun input =>
    Chunk.coverage (reportsFrom journal (some input) target) slot) 1 (by
      intro count member
      obtain ⟨input, input_mem, rfl⟩ := List.mem_map.mp member
      exact sparing input input_mem slot)
  rwa [List.length_map, smul_eq_mul, Nat.mul_one] at bound

/-- The slots of a full assignment were returned by every input. -/
theorem Causal.returned_of_full (causal : Causal origin first journal)
    (laid : origin.Laid first expanded rank) (found : origin.modules[target]? = some module)
    (inner : target ≠ first) (sparing : Sparing journal module target)
    {list : AssignmentList} (sized : list.Sized expanded module.inputs.length)
    (accounts : list.Accounts (reportsTo journal target)) {chunk : Chunk}
    (full : chunk ∈ list.full) {slot : Nat} (covered : chunk.covers slot = true)
    {input : Nat} (input_mem : input ∈ module.inputs) : Returned journal input slot := by
  have often := accounts.coverage_of_full sized
    (causal.coverage_le laid found inner sparing) full covered
  rw [coverage_reportsTo (laid.distinct target module found)
    fun source piece member => causal.sourced found inner member] at often
  -- No input has contributed the slot twice, so a full count has a contribution of each.
  have once := eq_one_of_sum_eq (fun input member => sparing input member slot) often input
    input_mem
  obtain ⟨piece, piece_mem, piece_covers⟩ := Chunk.coverage_pos_iff.mp (Nat.lt_of_lt_of_eq
    Nat.one_pos once.symm)
  exact (causal.justified (mem_reportsFrom.mp piece_mem)).2 slot piece_covers

/-- **A report is justified together with the assignments it releases.** -/
theorem Causal.deliver (causal : Causal origin first journal)
    (laid : origin.Laid first expanded rank) (found : origin.modules[target]? = some module)
    {source : Option Nat} {piece : Chunk} {released : List Chunk}
    (report : Justified origin first journal (.reported source target piece))
    (sparing : target ≠ first → Sparing (.reported source target piece :: journal) module target)
    {list : AssignmentList} (sized : list.Sized expanded (max module.inputs.length 1))
    (all_eq : list.all = module.assignments.all)
    (accounts : list.Accounts (piece :: reportsTo journal target))
    (full : ∀ chunk ∈ released, chunk ∈ list.full) :
    Causal origin first (Journal.deliver journal source target piece released) := by
  have reported := causal.cons report
  refine reported.append ?_
  intro observation member
  obtain ⟨chunk, chunk_mem, rfl⟩ := List.mem_map.mp member
  have chunk_full := full chunk (List.mem_reverse.mp chunk_mem)
  refine ⟨module, found, all_eq ▸ list.full_sublist_all.subset chunk_full, ?_⟩
  intro input input_mem slot covered
  have inputs_ne : module.inputs ≠ [] := List.ne_nil_of_mem input_mem
  have inner : target ≠ first := fun same =>
    inputs_ne ((laid.entrance target module found).mpr same)
  have several : max module.inputs.length 1 = module.inputs.length :=
    Nat.max_eq_left (List.length_pos_iff.mpr inputs_ne)
  refine reported.returned_of_full laid found inner (sparing inner) (several ▸ sized) ?_ chunk_full
    covered input_mem
  simpa using accounts

end Received

/-- **Where a module has returned, its inputs have.** -/
theorem Causal.returned_input (causal : Causal origin first journal) {id input : Nat}
    {module : Module} (found : origin.modules[id]? = some module)
    (input_mem : input ∈ module.inputs) {slot : Nat} (returned : Returned journal id slot) :
    Returned journal input slot := by
  -- Back through the call, the assignment it belongs to, and the reports that filled that one.
  obtain ⟨chunk, member, covered⟩ := returned
  obtain ⟨-, assignment, queued, start_le, stop_le⟩ := causal.justified (causal.justified member)
  obtain ⟨other, other_found, -, inputs_returned⟩ := causal.justified queued
  rw [found] at other_found
  injection other_found with same
  subst same
  refine inputs_returned input input_mem slot ?_
  rw [Chunk.covers_iff] at covered ⊢
  omega

end Dispatch

/-! ## Workers -/

/-- The next reports of a worker are justified, and it has met no fault. -/
def Worker.Sound (journal : List Observation) (worker : Worker) : Prop :=
  match worker.activity with
  | .working tasks => Grounded (Returned journal worker.module) tasks
  | .calling chunk tasks =>
      Grounded (fun slot => Returned journal worker.module slot ∨ chunk.covers slot = true) tasks
  | .crashed _ => False
  | _ => True

theorem Worker.Sound.mono {journal more : List Observation} (within : journal ⊆ more)
    {worker : Worker} (sound : worker.Sound journal) : worker.Sound more := by
  unfold Worker.Sound at sound ⊢
  cases activity : worker.activity with
  | idle => trivial
  | working tasks =>
      simp only [activity] at sound
      exact sound.mono fun slot returned => returned.mono within
  | calling chunk tasks =>
      simp only [activity] at sound
      exact sound.mono fun slot => Or.imp_left fun returned => returned.mono within
  | exited => trivial
  | crashed fault => simp only [activity] at sound

namespace Dispatch

variable {origin dispatch : Dispatch} {first expanded : Nat} {rank : Nat → Nat}
  {journal : List Observation}

/-- Every worker belongs to a module of the wiring, and is sound. -/
def Staffed (dispatch : Dispatch) : Prop :=
  ∀ (position : Nat) worker, dispatch.workers[position]? = some worker →
    worker.module < dispatch.sink ∧ worker.Sound dispatch.journal

theorem getElem?_setActivity {position : Nat} {worker : Worker}
    (here : dispatch.workers[position]? = some worker) (activity : Activity) (other : Nat) :
    (dispatch.setActivity position activity).workers[other]? =
      if other = position then some { worker with activity } else dispatch.workers[other]? := by
  show (dispatch.workers.modify position _)[other]? = _
  rw [Array.getElem?_modify]
  by_cases same : position = other
  · rw [if_pos same, if_pos same.symm, ← same, here, Option.map_some]
  · rw [if_neg same, if_neg (Ne.symm same)]

/-- A place of workers one of which has changed holds that one, or the worker it held before. -/
theorem of_getElem?_setActivity {position other : Nat} {worker there : Worker}
    {activity : Activity} (here : dispatch.workers[position]? = some worker)
    (found : (dispatch.setActivity position activity).workers[other]? = some there) :
    other = position ∧ there = { worker with activity } ∨
      other ≠ position ∧ dispatch.workers[other]? = some there := by
  rw [getElem?_setActivity here] at found
  split at found
  case isTrue same =>
    injection found with found
    exact Or.inl ⟨same, found.symm⟩
  case isFalse different => exact Or.inr ⟨different, found⟩

/-- One worker goes on, soundly, while the journal grows. -/
theorem Staffed.setActivity (staffed : dispatch.Staffed) {after : Dispatch} {position : Nat}
    {worker : Worker} (here : dispatch.workers[position]? = some worker) {activity : Activity}
    (workers_eq : after.workers = (dispatch.setActivity position activity).workers)
    (sink_eq : after.sink = dispatch.sink) (grown : dispatch.journal ⊆ after.journal)
    (sound : Worker.Sound after.journal { worker with activity }) : after.Staffed := by
  intro other there found
  rw [workers_eq] at found
  rw [sink_eq]
  rcases of_getElem?_setActivity here found with ⟨-, rfl⟩ | ⟨-, found⟩
  · exact ⟨(staffed position worker here).1, sound⟩
  · obtain ⟨wired, known⟩ := staffed other there found
    exact ⟨wired, known.mono grown⟩

/-- Nobody else moves while the journal grows. -/
theorem Staffed.of_same (staffed : dispatch.Staffed) {after : Dispatch}
    (workers_eq : after.workers = dispatch.workers) (sink_eq : after.sink = dispatch.sink)
    (grown : dispatch.journal ⊆ after.journal) : after.Staffed := by
  intro position worker found
  rw [workers_eq] at found
  obtain ⟨wired, known⟩ := staffed position worker found
  exact ⟨sink_eq ▸ wired, known.mono grown⟩

/-! ## Reports that fit -/

section Fits

variable {target : Nat} {module : Module}

/-- No input of a module has reported a slot to it twice. -/
theorem Conserved.sparing (conserved : dispatch.Conserved) (accounted : Accounted origin dispatch)
    (laid : origin.Laid first expanded rank) (found : origin.modules[target]? = some module) :
    Sparing dispatch.journal module target := by
  intro input input_mem slot
  obtain ⟨-, wired, before, before_found, output⟩ :=
    laid.backward target module found input input_mem
  obtain ⟨here, here_found, rfl⟩ := accounted.exists_of_origin before_found
  have once := conserved.reports_once accounted laid here_found (accounted.sink_eq ▸ wired)
    (Multiset.zero_le _) output slot
  simpa using once

/-- A report in the hands of a worker keeps it so. -/
theorem Conserved.sparing_report (conserved : dispatch.Conserved)
    (accounted : Accounted origin dispatch) (laid : origin.Laid first expanded rank)
    (found : origin.modules[target]? = some module) {position : Nat} {worker : Worker}
    (here : dispatch.workers[position]? = some worker) {piece : Chunk} {rest : List Task}
    (next : worker.activity = .working (.report target piece :: rest)) :
    Sparing (.reported (some worker.module) target piece :: dispatch.journal) module target := by
  intro input input_mem slot
  by_cases same : worker.module = input
  · subst same
    obtain ⟨-, wired, before, before_found, output⟩ :=
      laid.backward target module found worker.module input_mem
    obtain ⟨there, there_found, rfl⟩ := accounted.exists_of_origin before_found
    have once := conserved.reports_once accounted laid there_found (accounted.sink_eq ▸ wired)
      (pending_le_inHand here) output slot
    rw [next, Activity.pending, countP_duties rfl, List.countP_cons] at once
    have concerns : Task.reportsSlot target slot (.report target piece) = piece.covers slot := by
      simp [Task.reportsSlot]
    rw [concerns] at once
    rw [reportsFrom_cons, Observation.reportFrom, if_pos ⟨rfl, rfl⟩, Option.toList_some,
      List.singleton_append, Chunk.coverage_cons]
    omega
  · have once := conserved.sparing accounted laid found input input_mem slot
    simpa [same] using once

end Fits

end Dispatch

end Mixnet
