import Mixnet.Proofs.Planning

/-!
# Walking along the edges in place

Whether every module is reached, and in which order modules can be worked on, is found out by two
walks over rows of neighbours.  Both take a module off a queue and come to each of its outputs in
turn; they differ in what they do to the cell of an output, and in when they queue it.  This file
carries the walks out with every cell looked up and every count taken down in place, and shows that
no cell is missing, no count falls below zero, and the results are those of the wiring itself.

## Main definitions

* `Cells.read`, `Cells.write`: cells that may be missing
* `Touch`, `Touch.walk`: what differs between the walks, and what they share
* `Touch.marking`, `Touch.counting`: the search for modules, and the search for an order
* `Wiring.rows`: the neighbours of every module, from the edges
* `Wiring.reachedFrom`, `Wiring.orderOf`: what is found out by walking along them

## Main statements

* `Wiring.rows_eq`: the rows are the inputs and the outputs of every module
* `Wiring.reachedFrom_exact`: the search marks what there is a path to
* `Wiring.orderOf_eq`: the search for an order finds the execution order

## Design notes

A touch comes with a measure of what is left to be queued.  It pays for every module that the touch
queues, which makes the walk end on every wiring, whether it has a cycle or not.
-/

namespace Mixnet

open Graph (Feeds)

/-! ## Cells -/

namespace Cells

variable {α : Type} {cells : Array α} {index : Nat} {value : α}

/-- The cell at an index, if there is one. -/
def read (cells : Array α) (index : Nat) : Except Fault α :=
  match cells[index]? with
  | some value => .ok value
  | none => .error (.indexOutOfBounds cells.size index)

/-- The cells with a new value at an index, if there is a cell. -/
def write (cells : Array α) (index : Nat) (value : α) : Except Fault (Array α) :=
  if index < cells.size then .ok (cells.setIfInBounds index value)
  else .error (.indexOutOfBounds cells.size index)

theorem read_eq_ok : read cells index = .ok value ↔ cells[index]? = some value := by
  unfold read
  split
  case h_1 found => simp [found]
  case h_2 missing => simp [missing]

theorem write_eq_ok {after : Array α} :
    write cells index value = .ok after ↔
      index < cells.size ∧ after = cells.setIfInBounds index value := by
  unfold write
  split <;> simp_all [eq_comm]

/-- A cell that is read can be written. -/
theorem write_of_getElem? {before : α} (found : cells[index]? = some before) :
    write cells index value = .ok (cells.setIfInBounds index value) :=
  write_eq_ok.mpr ⟨(Array.getElem?_eq_some_iff.mp found).1, rfl⟩

/-- The sum of some weights of the cells. -/
def total (weight : α → Nat) (cells : Array α) : Nat := (cells.toList.map weight).sum

/-- A new value of a cell counts in the place of the old one. -/
theorem total_setIfInBounds (weight : α → Nat) {before : α} (value : α)
    (found : cells[index]? = some before) :
    total weight (cells.setIfInBounds index value) + weight before =
      total weight cells + weight value := by
  obtain ⟨list⟩ := cells
  rw [List.getElem?_toArray] at found
  unfold total
  rw [Array.toList_setIfInBounds]
  induction list generalizing index with
  | nil => simp at found
  | cons head rest ih =>
      cases index with
      | zero =>
          injection found with found
          subst found
          simp only [List.set_cons_zero, List.map_cons, List.sum_cons]
          omega
      | succ index =>
          have behind := ih found
          simp only [List.set_cons_succ, List.map_cons, List.sum_cons] at behind ⊢
          omega

end Cells

/-! ## Walks -/

/-- What a walk does to the cell of a module that it comes to, and whether it queues the module: the
weight of the cell goes down by one for a module that is queued. -/
structure Touch (α : Type) where
  alter : α → Except Fault (Bool × α)
  weight : α → Nat
  weight_le : ∀ {before queues after}, alter before = .ok (queues, after) →
    weight after + queues.toNat ≤ weight before

namespace Touch

variable {α : Type} {action : Touch α} {nexts queue queued : List Nat} {cells after : Array α}

/-- Comes to one module after the other. -/
def visit (action : Touch α) : List Nat → Array α → List Nat → Except Fault (List Nat × Array α)
  | [], cells, queue => .ok (queue, cells)
  | next :: rest, cells, queue => do
    let (queues, value) ← action.alter (← Cells.read cells next)
    let after ← Cells.write cells next value
    action.visit rest after (if queues then queue ++ [next] else queue)

/-- One module is come to. -/
theorem visit_cons {next : Nat} {before value : α} {queues : Bool}
    (found : cells[next]? = some before) (altered : action.alter before = .ok (queues, value)) :
    action.visit (next :: nexts) cells queue =
      action.visit nexts (cells.setIfInBounds next value)
        (if queues then queue ++ [next] else queue) := by
  rw [visit, Cells.read_eq_ok.mpr found, Fault.ok_bind, altered, Fault.ok_bind]
  dsimp only
  rw [Cells.write_of_getElem? found, Fault.ok_bind]

/-- What is queued on the way is paid for by the cells. -/
theorem total_visit_le (visited : action.visit nexts cells queue = .ok (queued, after)) :
    Cells.total action.weight after + queued.length ≤
      Cells.total action.weight cells + queue.length := by
  induction nexts generalizing cells queue with
  | nil =>
      injection visited with visited
      injection visited with queue_eq cells_eq
      rw [queue_eq, cells_eq]
  | cons next rest ih =>
      obtain ⟨before, found, touched⟩ := Fault.bind_eq_ok.mp visited
      obtain ⟨⟨queues, value⟩, altered, -⟩ := Fault.bind_eq_ok.mp touched
      rw [Cells.read_eq_ok] at found
      rw [visit_cons found altered] at visited
      have behind := ih visited
      have paid := action.weight_le altered
      have replaced := Cells.total_setIfInBounds action.weight value found
      cases queues <;> simp at paid behind <;> omega

/-- Takes modules off the queue, and comes to the outputs of each, until none is left. -/
def walk (action : Touch α) (outputs : Array (List Nat)) (taken queue : List Nat)
    (cells : Array α) : Except Fault (List Nat × Array α) :=
  match queue with
  | [] => .ok (taken, cells)
  | module :: queue =>
    match Cells.read outputs module with
    | .error fault => .error fault
    | .ok nexts =>
      match visited : action.visit nexts cells queue with
      | .error fault => .error fault
      | .ok (queued, after) =>
        have := total_visit_le visited
        action.walk outputs (taken ++ [module]) queued after
termination_by Cells.total action.weight cells + queue.length
decreasing_by
  simp only [List.length_cons]
  omega

/-- A walk whose first module can be read and visited goes on behind it. -/
theorem walk_cons {outputs : Array (List Nat)} {taken : List Nat} {module : Nat}
    (found : outputs[module]? = some nexts)
    (visited : action.visit nexts cells queue = .ok (queued, after)) :
    action.walk outputs taken (module :: queue) cells =
      action.walk outputs (taken ++ [module]) queued after := by
  rw [walk]
  split
  case h_1 refused =>
    rw [Cells.read_eq_ok.mpr found] at refused
    cases refused
  case h_2 others read =>
    rw [Cells.read_eq_ok.mpr found] at read
    injection read with read
    subst read
    split
    case h_1 refused =>
      rw [visited] at refused
      cases refused
    case h_2 otherQueued otherCells done =>
      rw [visited] at done
      injection done with done
      injection done with queued_eq after_eq
      rw [queued_eq, after_eq]

/-- The search for modules: a module is marked, and queued if it was not marked before. -/
def marking : Touch Bool where
  alter marked := .ok (!marked, true)
  weight marked := (!marked).toNat
  weight_le := by
    intro before queues after altered
    injection altered with altered
    injection altered with queues_eq after_eq
    subst queues_eq after_eq
    simp

/-- The search for an order: one input of a module has been taken, and the module is queued if that
was the last. -/
def counting : Touch Nat where
  alter inputs := do
    let fewer ← Word.difference inputs 1
    return (fewer = 0, fewer)
  weight inputs := inputs
  weight_le := by
    intro before queues after altered
    obtain ⟨fewer, taken, altered⟩ := Fault.bind_eq_ok.mp altered
    injection altered with altered
    injection altered with queues_eq after_eq
    subst queues_eq after_eq
    unfold Word.difference at taken
    split at taken
    case isFalse => cases taken
    case isTrue some_left =>
      injection taken with taken
      have single := Bool.toNat_le (decide (fewer = 0))
      omega

/-- A count that is not zero goes down by one. -/
theorem counting_alter {inputs : Nat} (positive : 0 < inputs) :
    counting.alter inputs = .ok (decide (inputs - 1 = 0), inputs - 1) := by
  simp [counting, Word.difference, Nat.succ_le_of_lt positive, Fault.ok_bind, pure, Except.pure]

end Touch

namespace Wiring

variable {wiring : Wiring} {inputs outputs : Array (List Nat)} {module : Nat}

/-! ## Rows of neighbours -/

/-- The rows with one more neighbour of a module. -/
def pushTo (rows : Array (List Nat)) (module neighbour : Nat) :
    Except Fault (Array (List Nat)) := do
  Cells.write rows module ((← Cells.read rows module) ++ [neighbour])

/-- The rows with the neighbours that some edges make. -/
def rowsFrom : List (Nat × Nat) → Array (List Nat) → Array (List Nat) →
    Except Fault (Array (List Nat) × Array (List Nat))
  | [], inputs, outputs => .ok (inputs, outputs)
  | edge :: rest, inputs, outputs => do
    let outputs ← pushTo outputs edge.1 edge.2
    let inputs ← pushTo inputs edge.2 edge.1
    rowsFrom rest inputs outputs

/-- The inputs and the outputs of every module. -/
def rows (wiring : Wiring) : Except Fault (Array (List Nat) × Array (List Nat)) :=
  rowsFrom wiring.edges (Array.replicate wiring.size []) (Array.replicate wiring.size [])

/-- A row for each module. -/
def table (wiring : Wiring) (row : Nat → List Nat) : Array (List Nat) :=
  (Array.range wiring.size).map row

@[simp]
theorem getElem?_table {row : Nat → List Nat} (known : module < wiring.size) :
    (wiring.table row)[module]? = some (row module) := by
  simp [table, known]

theorem pushTo_spec {rows : Array (List Nat)} (neighbour : Nat) (known : module < rows.size) :
    ∃ after, pushTo rows module neighbour = .ok after ∧ after.size = rows.size ∧
      ∀ other : Nat, after[other]? = rows[other]?.map fun row =>
        if module = other then row ++ [neighbour] else row := by
  have found : rows[module]? = some rows[module] := Array.getElem?_eq_getElem known
  refine ⟨rows.setIfInBounds module (rows[module] ++ [neighbour]), ?_, by simp, fun other => ?_⟩
  · rw [pushTo, Cells.read_eq_ok.mpr found, Fault.ok_bind, Cells.write_of_getElem? found]
  · rw [Array.getElem?_setIfInBounds]
    by_cases same : module = other
    · subst same
      simp [known]
    · simp [same]

theorem rowsFrom_spec {edges : List (Nat × Nat)}
    (bounded : ∀ edge ∈ edges, edge.1 < outputs.size ∧ edge.2 < inputs.size) :
    ∃ allInputs allOutputs, rowsFrom edges inputs outputs = .ok (allInputs, allOutputs) ∧
      (∀ module : Nat, allInputs[module]? = inputs[module]?.map
        (· ++ (edges.filter (·.2 = module)).map (·.1))) ∧
      ∀ module : Nat, allOutputs[module]? = outputs[module]?.map
        (· ++ (edges.filter (·.1 = module)).map (·.2)) := by
  induction edges generalizing inputs outputs with
  | nil => exact ⟨inputs, outputs, rfl, by simp, by simp⟩
  | cons edge rest ih =>
      obtain ⟨⟨source_known, target_known⟩, others⟩ := List.forall_mem_cons.mp bounded
      obtain ⟨moreOutputs, pushed_output, outputs_size, outputs_eq⟩ :=
        pushTo_spec edge.2 source_known
      obtain ⟨moreInputs, pushed_input, inputs_size, inputs_eq⟩ :=
        pushTo_spec edge.1 target_known
      have still : ∀ edge ∈ rest, edge.1 < moreOutputs.size ∧ edge.2 < moreInputs.size := by
        rwa [outputs_size, inputs_size]
      obtain ⟨allInputs, allOutputs, done, all_inputs_eq, all_outputs_eq⟩ := ih still
      refine ⟨allInputs, allOutputs, ?_, fun module => ?_, fun module => ?_⟩
      · rw [rowsFrom, pushed_output, Fault.ok_bind, pushed_input, Fault.ok_bind, done]
      · rw [all_inputs_eq, inputs_eq, Option.map_map, List.filter_cons]
        congr 1
        funext row
        by_cases same : edge.2 = module <;> simp [same]
      · rw [all_outputs_eq, outputs_eq, Option.map_map, List.filter_cons]
        congr 1
        funext row
        by_cases same : edge.1 = module <;> simp [same]

/-- Rows that were empty and have got some neighbours are those neighbours. -/
theorem eq_table {rows : Array (List Nat)} {row : Nat → List Nat}
    (filled : ∀ module : Nat,
      rows[module]? = (Array.replicate wiring.size [])[module]?.map (· ++ row module)) :
    rows = wiring.table row := by
  apply Array.ext_getElem?
  intro module
  rw [filled, table]
  by_cases known : module < wiring.size <;> simp [known]

/-- **The rows are the inputs and the outputs of every module**, in the order of the edges. -/
theorem rows_eq (valid : wiring.Valid) :
    wiring.rows = .ok (wiring.table wiring.inputsOf, wiring.table wiring.outputsOf) := by
  have bounded : ∀ edge ∈ wiring.edges,
      edge.1 < (Array.replicate wiring.size ([] : List Nat)).size ∧
        edge.2 < (Array.replicate wiring.size ([] : List Nat)).size := by
    simpa using valid.bounds
  obtain ⟨inputs, outputs, done, inputs_eq, outputs_eq⟩ := rowsFrom_spec bounded
  rw [rows, done, eq_table inputs_eq, eq_table outputs_eq]
  rfl

/-! ## The search for modules -/

section Marking

variable {first : Nat} {taken queue nexts : List Nat} {seen : Array Bool}

/-- What coming to modules does to the marks: all are marked, and those newly marked are queued. -/
theorem visit_marking (known : ∀ next ∈ nexts, next < seen.size) (queue : List Nat) :
    ∃ queued after, Touch.marking.visit nexts seen queue = .ok (queued, after) ∧
      after.size = seen.size ∧
      (∀ module : Nat, after[module]? = some true ↔ seen[module]? = some true ∨ module ∈ nexts) ∧
      ∀ module, module ∈ queued ↔
        module ∈ queue ∨ module ∈ nexts ∧ seen[module]? ≠ some true := by
  induction nexts generalizing seen queue with
  | nil => exact ⟨queue, seen, rfl, rfl, by simp, by simp⟩
  | cons next rest ih =>
      obtain ⟨here, others⟩ := List.forall_mem_cons.mp known
      have found : seen[next]? = some seen[next] := Array.getElem?_eq_getElem here
      have still : ∀ other ∈ rest, other < (seen.setIfInBounds next true).size := by
        simpa using others
      obtain ⟨queued, after, visited, size_eq, marks, queues⟩ :=
        ih still (if !seen[next] then queue ++ [next] else queue)
      refine ⟨queued, after, ?_, size_eq.trans Array.size_setIfInBounds, fun module => ?_,
        fun module => ?_⟩
      · rw [Touch.visit_cons found rfl, visited]
      · rw [marks, Array.getElem?_setIfInBounds]
        by_cases same : next = module
        · simp [same, same ▸ here]
        · simp [same, Ne.symm same]
      · rw [queues, Array.getElem?_setIfInBounds]
        by_cases same : next = module
        · subst same
          cases marked : seen[next] <;> simp [here, marked]
        · cases marked : seen[next] <;> simp [same, Ne.symm same]

/-- The state of the search: what is marked can be reached, and the outputs of what is marked are
marked, too, unless it is queued. -/
structure Marked (wiring : Wiring) (first : Nat) (queue : List Nat) (seen : Array Bool) : Prop where
  size_eq : seen.size = wiring.size
  origin : seen[first]? = some true
  queued : ∀ module ∈ queue, seen[module]? = some true
  reached : ∀ module : Nat, seen[module]? = some true → Feeds wiring first module
  outputs : ∀ module : Nat, seen[module]? = some true → module ∉ queue →
    ∀ next, (module, next) ∈ wiring.edges → seen[next]? = some true

namespace Marked

theorem step (valid : wiring.Valid) (marked : Marked wiring first (module :: queue) seen) :
    ∃ queued after,
      Touch.marking.visit (wiring.outputsOf module) seen queue = .ok (queued, after) ∧
        Marked wiring first queued after := by
  have known : ∀ next ∈ wiring.outputsOf module, next < seen.size := by
    intro next member
    rw [marked.size_eq]
    exact (valid.bounds _ (mem_outputsOf.mp member)).2
  obtain ⟨queued, after, visited, size_eq, marks, queues⟩ := visit_marking known queue
  have here := marked.queued module List.mem_cons_self
  refine ⟨queued, after, visited, size_eq.trans marked.size_eq, (marks first).mpr
    (Or.inl marked.origin), fun other member => ?_, fun other sign => ?_, fun other sign free next
      edge => ?_⟩
  · rw [marks]
    rcases (queues other).mp member with old | ⟨new, -⟩
    · exact Or.inl (marked.queued other (List.mem_cons_of_mem module old))
    · exact Or.inr new
  · rcases (marks other).mp sign with old | new
    · exact marked.reached other old
    · exact (marked.reached module here).tail (mem_outputsOf.mp new)
  · rw [marks]
    rw [queues, not_or, not_and] at free
    obtain ⟨unqueued, unseen⟩ := free
    -- A module that has just been marked is queued, so this one was marked before.
    have before : seen[other]? = some true := by
      by_contra fresh
      rcases (marks other).mp sign with old | new
      · exact fresh old
      · exact unseen new fresh
    by_cases same : other = module
    · exact Or.inr (mem_outputsOf.mpr (same ▸ edge))
    · exact Or.inl (marked.outputs other before (by simp [same, unqueued]) next edge)

/-- The search ends, and then nothing is queued. -/
theorem run (valid : wiring.Valid) (marked : Marked wiring first queue seen) (taken : List Nat) :
    ∃ order after,
      Touch.marking.walk (wiring.table wiring.outputsOf) taken queue seen = .ok (order, after) ∧
        Marked wiring first [] after := by
  induction left : Cells.total Touch.marking.weight seen + queue.length using Nat.strongRecOn
    generalizing taken queue seen with
  | ind steps ih =>
    cases queue with
    | nil =>
        refine ⟨taken, seen, ?_, marked⟩
        rw [Touch.walk]
    | cons module queue =>
        obtain ⟨queued, after, visited, next⟩ := marked.step valid
        obtain ⟨inside, -⟩ :=
          Array.getElem?_eq_some_iff.mp (marked.queued module List.mem_cons_self)
        rw [Touch.walk_cons (getElem?_table (marked.size_eq ▸ inside)) visited]
        refine ih _ ?_ next (taken ++ [module]) rfl
        have paid := Touch.total_visit_le visited
        rw [List.length_cons] at left
        omega

end Marked

/-- Whether each module is reached from another one. -/
def reachedFrom (outputs : Array (List Nat)) (first : Nat) : Except Fault (Array Bool) := do
  let marked ← Cells.write (Array.replicate outputs.size false) first true
  let (_, seen) ← Touch.marking.walk outputs [] [first] marked
  return seen

/-- **The search marks what there is a path to.** -/
theorem reachedFrom_exact (valid : wiring.Valid) (known : first < wiring.size) :
    ∃ seen, reachedFrom (wiring.table wiring.outputsOf) first = .ok seen ∧
      seen.size = wiring.size ∧
      ∀ module : Nat, seen[module]? = some true ↔ Feeds wiring first module := by
  have size_eq : (wiring.table wiring.outputsOf).size = wiring.size := by simp [table]
  let start := (Array.replicate wiring.size false).setIfInBounds first true
  have sign (module : Nat) : start[module]? = some true ↔ module = first := by
    rw [Array.getElem?_setIfInBounds, Array.getElem?_replicate]
    by_cases same : first = module
    · simp [same, same ▸ known]
    · simp [same, Ne.symm same]
  have initial : Marked wiring first [first] start := by
    refine ⟨by simp [start], (sign first).mpr rfl, ?_, ?_, ?_⟩
    · exact fun module member => (sign module).mpr (List.mem_singleton.mp member)
    · intro module marked
      rw [(sign module).mp marked]
      exact .refl
    · intro module marked free
      exact absurd (List.mem_singleton.mpr ((sign module).mp marked)) free
  obtain ⟨order, after, walked, marked⟩ := initial.run valid []
  refine ⟨after, ?_, marked.size_eq, fun module => ⟨marked.reached module, fun feeds => ?_⟩⟩
  · rw [reachedFrom, size_eq, Cells.write_eq_ok.mpr ⟨by simpa using known, rfl⟩, Fault.ok_bind,
      walked]
    rfl
  · -- Nothing is queued any more, so the marks go on along the edges.
    induction feeds with
    | refl => exact marked.origin
    | tail _ edge ih => exact marked.outputs _ ih List.not_mem_nil _ edge

end Marking

/-! ## The search for an order -/

section Counting

variable {ordered queue nexts : List Nat} {degrees : Array Nat}

/-- How many inputs of a module have not been ordered. -/
def missing (wiring : Wiring) (ordered : List Nat) (module : Nat) : Nat :=
  (wiring.inputsOf module).countP (· ∉ ordered)

/-- A module that is ordered is missing no more from those that it feeds. -/
theorem missing_concat (valid : wiring.Valid) (fresh : module ∉ ordered) (next : Nat) :
    wiring.missing (ordered ++ [module]) next + (if module ∈ wiring.inputsOf next then 1 else 0) =
      wiring.missing ordered next := by
  rw [← (valid.nodup_inputsOf next).count, missing, missing]
  induction wiring.inputsOf next with
  | nil => rfl
  | cons input rest ih =>
      rw [List.countP_cons, List.countP_cons, List.count_cons]
      by_cases same : input = module
      · simp [same, fresh] at ih ⊢
        omega
      · simp [same] at ih ⊢
        omega

/-- No input is missing exactly if all of them have been ordered. -/
theorem missing_eq_zero :
    wiring.missing ordered module = 0 ↔ (wiring.inputsOf module).all ordered.contains = true := by
  simp [missing, List.countP_eq_zero]

/-- What coming to modules does to the counts: each of them loses one input, and those are queued
that had only that one left. -/
theorem visit_counting (distinct : nexts.Nodup)
    (some_left : ∀ next ∈ nexts, ∃ inputs, degrees[next]? = some inputs ∧ 0 < inputs)
    (queue : List Nat) :
    ∃ after, Touch.counting.visit nexts degrees queue =
        .ok (queue ++ nexts.filter (degrees[·]? = some 1), after) ∧
      ∀ module : Nat, after[module]? =
        if module ∈ nexts then degrees[module]?.map (· - 1) else degrees[module]? := by
  induction nexts generalizing degrees queue with
  | nil => exact ⟨degrees, by simp [Touch.visit], by simp⟩
  | cons next rest ih =>
      obtain ⟨apart, distinct⟩ := List.nodup_cons.mp distinct
      obtain ⟨⟨inputs, found, positive⟩, others⟩ := List.forall_mem_cons.mp some_left
      obtain ⟨inside, value⟩ := Array.getElem?_eq_some_iff.mp found
      have unchanged {other : Nat} (member : other ∈ rest) :
          (degrees.setIfInBounds next (inputs - 1))[other]? = degrees[other]? := by
        have different : next ≠ other := fun same => apart (same ▸ member)
        simp [different]
      have still : ∀ other ∈ rest, ∃ inputs',
          (degrees.setIfInBounds next (inputs - 1))[other]? = some inputs' ∧ 0 < inputs' := by
        intro other member
        rw [unchanged member]
        exact others other member
      obtain ⟨after, visited, counts⟩ :=
        ih distinct still (if decide (inputs - 1 = 0) then queue ++ [next] else queue)
      refine ⟨after, ?_, fun module => ?_⟩
      · rw [Touch.visit_cons found (Touch.counting_alter positive), visited, List.filter_cons]
        have same_filter : rest.filter
            (fun other => (degrees.setIfInBounds next (inputs - 1))[other]? = some 1) =
              rest.filter (degrees[·]? = some 1) := by
          refine List.filter_congr fun other member => ?_
          rw [unchanged member]
        rw [same_filter, found]
        have last_iff : inputs - 1 = 0 ↔ inputs = 1 := by omega
        by_cases last : inputs = 1 <;> simp [last_iff, last]
      · rw [counts]
        by_cases same : next = module
        · subst same
          simp [apart, inside, value]
        · simp [same, Ne.symm same]

/-- What is ordered and what is queued are modules, none of them twice. -/
theorem Ordering.length_le (ordering : Ordering wiring ordered queue) :
    ordered.length + queue.length ≤ wiring.size := by
  have within := List.subperm_of_subset ordering.distinct fun module member =>
    List.mem_range.mpr (ordering.inside module member)
  rw [← List.length_append]
  exact within.length_le.trans_eq List.length_range

/-- The state of the search: the count of every module is how many of its inputs are missing. -/
def Counted (wiring : Wiring) (ordered : List Nat) (degrees : Array Nat) : Prop :=
  ∀ module < wiring.size, degrees[module]? = some (wiring.missing ordered module)

namespace Counted

theorem step (valid : wiring.Valid) (counted : Counted wiring ordered degrees)
    (fresh : module ∉ ordered) (queue : List Nat) :
    ∃ after, Touch.counting.visit (wiring.outputsOf module) degrees queue =
        .ok (queue ++ wiring.readyAfter (ordered ++ [module]) module, after) ∧
      Counted wiring (ordered ++ [module]) after := by
  have known {next : Nat} (member : next ∈ wiring.outputsOf module) : next < wiring.size :=
    (valid.bounds _ (mem_outputsOf.mp member)).2
  have fed {next : Nat} (member : next ∈ wiring.outputsOf module) :
      wiring.missing (ordered ++ [module]) next + 1 = wiring.missing ordered next := by
    rw [← missing_concat valid fresh, if_pos (mem_inputsOf.mpr (mem_outputsOf.mp member))]
  have some_left : ∀ next ∈ wiring.outputsOf module,
      ∃ inputs, degrees[next]? = some inputs ∧ 0 < inputs := by
    intro next member
    have one_less := fed member
    exact ⟨_, counted next (known member), by omega⟩
  obtain ⟨after, visited, counts⟩ :=
    visit_counting (valid.nodup_outputsOf module) some_left queue
  have ready : (wiring.outputsOf module).filter (degrees[·]? = some 1) =
      wiring.readyAfter (ordered ++ [module]) module := by
    refine List.filter_congr fun next member => ?_
    have one_less := fed member
    rw [counted next (known member), Bool.eq_iff_iff, ← missing_eq_zero, decide_eq_true_eq,
      Option.some.injEq]
    omega
  refine ⟨after, ready ▸ visited, fun other inside => ?_⟩
  rw [counts, counted other inside]
  have one_less := missing_concat valid fresh other
  by_cases member : other ∈ wiring.outputsOf module
  · rw [if_pos member, Option.map_some, ← fed member, Nat.add_sub_cancel]
  · rw [if_neg (mt (mem_outputsOf.mpr ∘ mem_inputsOf.mp) member)] at one_less
    rw [if_neg member, ← one_less, Nat.add_zero]

/-- **The search for an order finds it**, with as many steps as there are modules. -/
theorem run (valid : wiring.Valid) (counted : Counted wiring ordered degrees)
    (ordering : Ordering wiring ordered queue) {steps : Nat}
    (steps_eq : ordered.length + steps = wiring.size) :
    ∃ after, Touch.counting.walk (wiring.table wiring.outputsOf) ordered queue degrees =
      .ok (wiring.orderFrom steps ordered queue, after) := by
  induction steps generalizing ordered queue degrees with
  | zero =>
      have bound := ordering.length_le
      obtain rfl : queue = [] := List.eq_nil_of_length_eq_zero (by omega)
      exact ⟨degrees, by rw [Touch.walk, orderFrom]⟩
  | succ steps ih =>
      cases queue with
      | nil => exact ⟨degrees, by rw [Touch.walk, orderFrom]⟩
      | cons module queue =>
          have known := ordering.inside module (by simp)
          have fresh : module ∉ ordered := fun member =>
            (List.nodup_append'.mp ordering.distinct).2.2 member List.mem_cons_self
          obtain ⟨after, visited, counted⟩ := counted.step valid fresh queue
          rw [Touch.walk_cons (getElem?_table known) visited, orderFrom]
          refine ih counted (ordering.step valid) ?_
          rw [List.length_append, List.length_singleton]
          omega

end Counted

/-- The modules in an order in which every module stands behind its inputs. -/
def orderOf (inputs outputs : Array (List Nat)) : Except Fault (List Nat) := do
  let degrees := inputs.map List.length
  let sources := (List.range degrees.size).filter (degrees[·]? = some 0)
  let (order, _) ← Touch.counting.walk outputs [] sources degrees
  return order

/-- **The order that is found is the execution order**, and no count ever falls below zero. -/
theorem orderOf_eq (valid : wiring.Valid) :
    orderOf (wiring.table wiring.inputsOf) (wiring.table wiring.outputsOf) =
      .ok wiring.executionOrder := by
  have found {module : Nat} (known : module < wiring.size) :
      ((wiring.table wiring.inputsOf).map List.length)[module]? =
        some (wiring.inputsOf module).length := by
    rw [Array.getElem?_map, getElem?_table known, Option.map_some]
  have counted : Counted wiring [] ((wiring.table wiring.inputsOf).map List.length) := by
    intro module known
    rw [found known]
    simp [missing]
  have sources : (List.range ((wiring.table wiring.inputsOf).map List.length).size).filter
      (((wiring.table wiring.inputsOf).map List.length)[·]? = some 0) =
        (List.range wiring.size).filter fun module => (wiring.inputsOf module).isEmpty := by
    rw [Array.size_map, table, Array.size_map, Array.size_range, ← table]
    refine List.filter_congr fun module member => ?_
    rw [found (List.mem_range.mp member), Bool.eq_iff_iff]
    simp
  obtain ⟨after, walked⟩ := counted.run valid (.initial wiring) (Nat.zero_add wiring.size)
  rw [orderOf, sources, walked]
  rfl

end Counting

end Wiring

end Mixnet
