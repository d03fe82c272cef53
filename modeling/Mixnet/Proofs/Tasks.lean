import Mathlib.Data.Multiset.Count
import Mixnet.Module
import Mixnet.Proofs.Release

/-!
# The work on an assignment

The work on one assignment is a list of tasks.  Two facts about that list carry everything that is
proved about runs: the calls and the reports each cover the slots of the assignment once, and a
piece is reported only behind the calls on its slots.

## Main definitions

* `Task.callsSlot`, `Task.reportsSlot`: the tasks that concern a slot
* `duties`: the calls and reports among tasks
* `Grounded`: every report comes behind the calls on its slots
* `Module.WorkOn`: the tasks that work on an assignment consists of
* `Module.Cuts`: a module whose sizes fit into each other
* `Module.Fits`: a module whose sizes fit into the batch as well, and whose account counts every
  input

## Main statements

* `Module.countP_calls`, `Module.countP_reports`: each slot of an assignment is called once, and
  reported once to each output
* `Module.grounded_tasks`: the work on an assignment is grounded
* `Module.Fits.call_length`: every call has the call size of the module
-/

namespace Mixnet

/-! ## Tasks that concern a slot -/

namespace Task

/-- Whether a task calls the kernel on a slot. -/
def callsSlot (slot : Nat) : Task → Bool
  | .call chunk => chunk.covers slot
  | _ => false

/-- Whether a task reports a slot to a module. -/
def reportsSlot (target slot : Nat) : Task → Bool
  | .report module piece => module = target && piece.covers slot
  | _ => false

/-- Whether a task is a call or a report. -/
def isDuty : Task → Bool
  | .checkpoint => false
  | _ => true

end Task

/-- The calls and reports among tasks. -/
def duties (tasks : List Task) : Multiset Task := (tasks.filter Task.isDuty : List Task)

@[simp] theorem duties_nil : duties [] = 0 := rfl

theorem duties_append (left right : List Task) :
    duties (left ++ right) = duties left + duties right := by
  simp [duties]

theorem duties_cons_of_duty {task : Task} (duty : task.isDuty = true) (tasks : List Task) :
    duties (task :: tasks) = {task} + duties tasks := by
  rw [duties, List.filter_cons_of_pos duty, Multiset.singleton_add]
  rfl

theorem duties_checkpoint (tasks : List Task) : duties (.checkpoint :: tasks) = duties tasks := by
  rw [duties, List.filter_cons_of_neg (by simp [Task.isDuty])]
  rfl

/-- A predicate that holds of duties only counts tasks and duties alike. -/
theorem countP_duties {concerns : Task → Bool} (only : concerns .checkpoint = false)
    (tasks : List Task) :
    (duties tasks).countP (fun task => concerns task = true) = tasks.countP concerns := by
  rw [duties, Multiset.coe_countP, List.countP_filter]
  apply List.countP_congr
  intro task _
  cases task <;> simp [Task.isDuty, only]

/-! ## Each slot once -/

/-- What concerns each chunk's own slots, concerns a slot as often as the chunks cover it. -/
theorem countP_flatMap_eq_coverage (slot : Nat) {concerns : Task → Bool}
    {work : Chunk → List Task} {chunks : List Chunk}
    (each : ∀ chunk ∈ chunks, (work chunk).countP concerns = if chunk.covers slot then 1 else 0) :
    (chunks.flatMap work).countP concerns = Chunk.coverage chunks slot := by
  induction chunks with
  | nil => rfl
  | cons chunk chunks ih =>
      rw [List.flatMap_cons, List.countP_append, each chunk List.mem_cons_self,
        ih (fun other member => each other (List.mem_cons_of_mem _ member)), Chunk.coverage_cons,
        Nat.add_comm]

theorem countP_callsSlot_map (chunks : List Chunk) (slot : Nat) :
    (chunks.map Task.call).countP (Task.callsSlot slot) = Chunk.coverage chunks slot := by
  rw [List.countP_map]
  rfl

namespace Module

variable {module : Module}

theorem countP_callsSlot_reports (module : Module) (piece : Chunk) (slot : Nat) :
    (module.reports piece).countP (Task.callsSlot slot) = 0 := by
  simp [reports, List.countP_eq_zero, Task.callsSlot]

theorem countP_reportsSlot_reports (distinct : module.outputs.Nodup) (piece : Chunk)
    (target slot : Nat) :
    (module.reports piece).countP (Task.reportsSlot target slot) =
      if target ∈ module.outputs ∧ piece.covers slot = true then 1 else 0 := by
  have as_count : (module.reports piece).countP (Task.reportsSlot target slot) =
      if piece.covers slot = true then module.outputs.count target else 0 := by
    rw [reports, List.countP_map]
    by_cases covered : piece.covers slot = true
    · rw [if_pos covered, List.count]
      apply List.countP_congr
      intro output _
      simp [Task.reportsSlot, Chunk.covers_iff.mp covered]
    · rw [if_neg covered, List.countP_eq_zero]
      simp [Task.reportsSlot, covered]
  rw [as_count]
  by_cases covered : piece.covers slot = true
  · by_cases member : target ∈ module.outputs
    · rw [if_pos covered, if_pos ⟨member, covered⟩, List.count_eq_one_of_mem distinct member]
    · rw [if_pos covered, if_neg (fun both => member both.1), List.count_eq_zero_of_not_mem member]
  · rw [if_neg covered, if_neg (fun both => covered both.2)]

/-- **The work on an assignment calls the kernel on each of its slots once.** -/
theorem countP_calls (module : Module) (chunk : Chunk) (slot : Nat) :
    (module.tasks chunk).countP (Task.callsSlot slot) = if chunk.covers slot then 1 else 0 := by
  have whole_pieces : ((chunk.pieces module.chunkSize).flatMap module.reports).countP
      (Task.callsSlot slot) = 0 := by
    rw [List.countP_flatMap, List.sum_eq_zero]
    simp [countP_callsSlot_reports]
  have by_pieces : ((chunk.pieces module.chunkSize).flatMap fun piece =>
      (piece.pieces module.callSize).map Task.call ++ .checkpoint :: module.reports piece).countP
        (Task.callsSlot slot) = if chunk.covers slot then 1 else 0 := by
    rw [countP_flatMap_eq_coverage slot, Chunk.coverage_pieces]
    intro piece _
    rw [List.countP_append, countP_callsSlot_map, Chunk.coverage_pieces,
      List.countP_cons_of_neg (by simp [Task.callsSlot]), countP_callsSlot_reports, Nat.add_zero]
  unfold tasks
  cases module.inputSize with
  | assignment =>
      rw [List.countP_cons, whole_pieces, Nat.zero_add]
      rfl
  | chunk => exact by_pieces
  | custom slots => exact by_pieces

/-- **The work on an assignment reports each of its slots once to each output.** -/
theorem countP_reports (distinct : module.outputs.Nodup) (chunk : Chunk) {target : Nat}
    (output : target ∈ module.outputs) (slot : Nat) :
    (module.tasks chunk).countP (Task.reportsSlot target slot) =
      if chunk.covers slot then 1 else 0 := by
  have each (piece : Chunk) : (module.reports piece).countP (Task.reportsSlot target slot) =
      if piece.covers slot then 1 else 0 := by
    rw [countP_reportsSlot_reports distinct]
    simp [output]
  unfold tasks
  cases module.inputSize with
  | assignment =>
      rw [List.countP_cons_of_neg (by simp [Task.reportsSlot]),
        countP_flatMap_eq_coverage slot (fun piece _ => each piece), Chunk.coverage_pieces]
  | _ =>
      rw [countP_flatMap_eq_coverage slot, Chunk.coverage_pieces]
      intro piece _
      rw [List.countP_append, List.countP_cons_of_neg (by simp [Task.reportsSlot]), each,
        List.countP_eq_zero.mpr (by simp [Task.reportsSlot]), Nat.zero_add]

/-! ## What the tasks are -/

/-- The tasks that work on an assignment consists of: calls of the whole of it or of parts of its
pieces, looks whether to go on, and reports of its pieces. -/
inductive WorkOn (module : Module) (chunk : Chunk) : Task → Prop
  /-- A look whether to go on. -/
  | checkpoint : WorkOn module chunk .checkpoint
  /-- The one call of a kernel that takes assignments. -/
  | whole (mode : module.inputSize = .assignment) : WorkOn module chunk (.call chunk)
  /-- A call of a part of a piece. -/
  | part {piece part : Chunk} (mode : module.inputSize ≠ .assignment)
      (piece_mem : piece ∈ chunk.pieces module.chunkSize)
      (part_mem : part ∈ piece.pieces module.callSize) : WorkOn module chunk (.call part)
  /-- A report of a piece to an output. -/
  | report {output : Nat} {piece : Chunk} (output_mem : output ∈ module.outputs)
      (piece_mem : piece ∈ chunk.pieces module.chunkSize) :
      WorkOn module chunk (.report output piece)

/-- The work on a piece is work on its assignment. -/
theorem workOn_of_reports {chunk piece : Chunk} {task : Task}
    (piece_mem : piece ∈ chunk.pieces module.chunkSize) (member : task ∈ module.reports piece) :
    module.WorkOn chunk task := by
  obtain ⟨output, output_mem, rfl⟩ := List.mem_map.mp member
  exact .report output_mem piece_mem

/-- All tasks on an assignment are of these kinds. -/
theorem mem_tasks {chunk : Chunk} {task : Task} (member : task ∈ module.tasks chunk) :
    module.WorkOn chunk task := by
  have by_pieces (mode : module.inputSize ≠ .assignment)
      (member : task ∈ (chunk.pieces module.chunkSize).flatMap fun piece =>
        (piece.pieces module.callSize).map Task.call ++ .checkpoint :: module.reports piece) :
      module.WorkOn chunk task := by
    obtain ⟨piece, piece_mem, in_work⟩ := List.mem_flatMap.mp member
    rcases List.mem_append.mp in_work with called | behind
    · obtain ⟨part, part_mem, rfl⟩ := List.mem_map.mp called
      exact .part mode piece_mem part_mem
    · rcases List.mem_cons.mp behind with rfl | report
      · exact .checkpoint
      · exact workOn_of_reports piece_mem report
  unfold tasks at member
  cases mode : module.inputSize with
  | assignment =>
      simp only [mode] at member
      rcases List.mem_cons.mp member with rfl | later
      · exact .whole mode
      · obtain ⟨piece, piece_mem, report⟩ := List.mem_flatMap.mp later
        exact workOn_of_reports piece_mem report
  | chunk =>
      simp only [mode] at member
      exact by_pieces (by simp [mode]) member
  | custom slots =>
      simp only [mode] at member
      exact by_pieces (by simp [mode]) member

/-- A call is a call of a part of the assignment. -/
theorem bounds_of_call {chunk part : Chunk} (member : .call part ∈ module.tasks chunk) :
    chunk.start ≤ part.start ∧ part.stop ≤ chunk.stop := by
  cases mem_tasks member with
  | whole => exact ⟨Nat.le_refl _, Nat.le_refl _⟩
  | part _ piece_mem part_mem =>
      obtain ⟨piece_start, -, piece_stop⟩ := Chunk.bounds_of_mem_pieces piece_mem
      obtain ⟨part_start, -, part_stop⟩ := Chunk.bounds_of_mem_pieces part_mem
      exact ⟨piece_start.trans part_start, part_stop.trans piece_stop⟩

/-- A report is a report of a part of the assignment to an output. -/
theorem bounds_of_report {chunk piece : Chunk} {target : Nat}
    (member : .report target piece ∈ module.tasks chunk) :
    target ∈ module.outputs ∧ chunk.start ≤ piece.start ∧ piece.start < piece.stop ∧
      piece.stop ≤ chunk.stop := by
  cases mem_tasks member with
  | report output_mem piece_mem => exact ⟨output_mem, Chunk.bounds_of_mem_pieces piece_mem⟩

end Module

/-! ## Calls before reports -/

/-- Every report comes behind the calls on its slots, or its slots are `done` already. -/
def Grounded (done : Nat → Prop) : List Task → Prop
  | [] => True
  | .call chunk :: rest => Grounded (fun slot => done slot ∨ chunk.covers slot = true) rest
  | .checkpoint :: rest => Grounded done rest
  | .report _ piece :: rest =>
      (∀ slot, piece.covers slot = true → done slot) ∧ Grounded done rest

/-- What is grounded stays so if more has been done. -/
theorem Grounded.mono {done more : Nat → Prop} (weaker : ∀ slot, done slot → more slot)
    {tasks : List Task} (grounded : Grounded done tasks) : Grounded more tasks := by
  induction tasks generalizing done more with
  | nil => trivial
  | cons task rest ih =>
      cases task with
      | call chunk => exact ih (fun slot => Or.imp_left (weaker slot)) grounded
      | checkpoint => exact ih weaker grounded
      | report target piece =>
          exact ⟨fun slot covered => weaker slot (grounded.1 slot covered), ih weaker grounded.2⟩

/-- Calls in front ground what comes behind them. -/
theorem grounded_calls_append {done : Nat → Prop} {chunks : List Chunk} {rest : List Task}
    (grounded : Grounded
      (fun slot => done slot ∨ ∃ chunk ∈ chunks, chunk.covers slot = true) rest) :
    Grounded done (chunks.map Task.call ++ rest) := by
  induction chunks generalizing done with
  | nil => exact grounded.mono (fun slot => by simp)
  | cons chunk chunks ih =>
      apply ih
      apply grounded.mono
      rintro slot (before | ⟨other, member, covered⟩)
      · exact Or.inl (Or.inl before)
      · rcases List.mem_cons.mp member with rfl | later
        · exact Or.inl (Or.inr covered)
        · exact Or.inr ⟨other, later, covered⟩

namespace Module

variable {module : Module}

theorem grounded_reports_append {done : Nat → Prop} {piece : Chunk} {rest : List Task}
    (covered : ∀ slot, piece.covers slot = true → done slot) (grounded : Grounded done rest) :
    Grounded done (module.reports piece ++ rest) := by
  unfold reports
  induction module.outputs with
  | nil => exact grounded
  | cons output outputs ih => exact ⟨covered, ih⟩

/-- What lies in a piece of a chunk lies in the chunk. -/
theorem covers_of_mem_pieces {chunk piece : Chunk} {size slot : Nat}
    (member : piece ∈ chunk.pieces size) (covered : piece.covers slot = true) :
    chunk.covers slot = true := by
  obtain ⟨start_le, -, stop_le⟩ := Chunk.bounds_of_mem_pieces member
  rw [Chunk.covers_iff] at covered ⊢
  omega

/-- **The work on an assignment is grounded**, whatever has been done before. -/
theorem grounded_tasks (module : Module) (chunk : Chunk) (done : Nat → Prop) :
    Grounded done (module.tasks chunk) := by
  have reports_after (pieces : List Chunk) (finished : Nat → Prop)
      (covered : ∀ piece ∈ pieces, ∀ slot, piece.covers slot = true → finished slot) :
      Grounded finished (pieces.flatMap module.reports) := by
    induction pieces with
    | nil => trivial
    | cons piece pieces ih =>
        exact grounded_reports_append (covered piece List.mem_cons_self)
          (ih fun other member => covered other (List.mem_cons_of_mem _ member))
  have by_pieces (pieces : List Chunk) (finished : Nat → Prop) :
      Grounded finished (pieces.flatMap fun piece =>
        (piece.pieces module.callSize).map Task.call ++ .checkpoint :: module.reports piece) := by
    induction pieces generalizing finished with
    | nil => trivial
    | cons piece pieces ih =>
        rw [List.flatMap_cons, List.append_assoc]
        refine grounded_calls_append (grounded_reports_append ?_ (ih _))
        intro slot covered
        -- The calls on a piece cover it, so behind them all its slots are done.
        have once := Chunk.coverage_pieces piece module.callSize slot
        rw [if_pos covered] at once
        exact Or.inr (Chunk.coverage_pos_iff.mp (by omega))
  unfold tasks
  cases module.inputSize with
  | assignment =>
      exact reports_after _ _ fun piece member slot covered =>
        Or.inr (covers_of_mem_pieces member covered)
  | chunk => exact by_pieces _ done
  | custom slots => exact by_pieces _ done

/-! ## Sizes that fit -/

/-- The sizes of a module fit into each other, and nobody hears twice of a piece. -/
structure Cuts (module : Module) : Prop where
  chunk_pos : 0 < module.chunkSize
  chunk_dvd : module.chunkSize ∣ module.assignmentSize
  call_pos : 0 < module.callSize
  call_dvd : module.inputSize ≠ .assignment → module.callSize ∣ module.chunkSize
  distinct : module.outputs.Nodup

/-- The sizes of a module fit into each other and into a batch of `expanded` slots, and its account
counts every input. -/
structure Fits (module : Module) (expanded : Nat) : Prop extends module.Cuts where
  unit_eq : module.assignments.assignmentSize = module.assignmentSize
  sized : module.assignments.Sized expanded (max module.inputs.length 1)
  roomy : module.assignments.size ≤ module.queue.capacity

/-- **Every call has the call size of the module.** -/
theorem Fits.call_length {expanded : Nat} (fits : module.Fits expanded) {chunk part : Chunk}
    (assigned : chunk ∈ module.assignments.all) (member : .call part ∈ module.tasks chunk) :
    part.length = module.callSize := by
  obtain ⟨index, inside, rfl⟩ := AssignmentList.mem_all.mp assigned
  have whole : (module.assignments.assignment index).length = module.assignmentSize := by
    rw [fits.sized.assignment_length inside, fits.unit_eq]
  cases mem_tasks member with
  | whole mode => rw [whole, callSize, mode]
  | @part piece _ mode piece_mem part_mem =>
      have piece_length : piece.length = module.chunkSize :=
        Chunk.length_of_mem_pieces fits.chunk_pos (whole ▸ fits.chunk_dvd) piece_mem
      exact Chunk.length_of_mem_pieces fits.call_pos (piece_length ▸ fits.call_dvd mode) part_mem

end Module

end Mixnet
