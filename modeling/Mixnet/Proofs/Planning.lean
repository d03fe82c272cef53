import Mixnet.Proofs.Blueprint
import Mixnet.Proofs.Reachability

/-!
# Which wirings have a plan

A wiring is compiled if it obeys a list of rules: on its shape, on the batch, and on the sizes of
its modules.  This file states the rules without the computation, and shows that compiling
succeeds exactly where they hold, and what the plan is then worth.  That a wiring has no cycle is
not one of the rules, because no wired graph has one.

## Main definitions

* `Wiring.Waiting`: what the search for an execution order has left out
* `Expansion.Holding`: the sizes that a batch may be expanded to
* `Plan.Shaped`, `Plan.Plannable`: the rules, beside those on single modules
* `Plan.Resolves`, `Plan.Faithful`: what a plan says

## Main statements

* `Wiring.Valid.executionOrder_perm`: the execution order of an acyclic wiring is complete
* `expandBatchSize_eq_ok_iff`: a batch is expanded to the least size that holds it
* `Plan.compile_exact`: a plan is made exactly if the rules hold, and it is faithful
-/

namespace Mixnet

open Graph (Feeds)

/-! ## The execution order is complete -/

namespace Wiring

variable {wiring : Wiring} {ordered queue : List Nat} {module : Nat}

/-- A module that the search has neither ordered nor queued waits for an input. -/
def Waiting (wiring : Wiring) (ordered queue : List Nat) : Prop :=
  ∀ module < wiring.size, module ∉ ordered ++ queue →
    ∃ input ∈ wiring.inputsOf module, input ∉ ordered

theorem Waiting.initial (wiring : Wiring) :
    wiring.Waiting []
      ((List.range wiring.size).filter fun module => (wiring.inputsOf module).isEmpty) := by
  intro module known left_out
  rw [List.nil_append, List.mem_filter, List.mem_range, List.isEmpty_iff, not_and] at left_out
  obtain ⟨input, member⟩ := List.exists_mem_of_ne_nil _ (left_out known)
  exact ⟨input, member, List.not_mem_nil⟩

/-- Ordering a module leaves out none that waited for it alone. -/
theorem Waiting.step (waiting : wiring.Waiting ordered (module :: queue)) :
    wiring.Waiting (ordered ++ [module])
      (queue ++ wiring.readyAfter (ordered ++ [module]) module) := by
  intro other known left_out
  simp only [List.mem_append, List.mem_singleton, not_or] at left_out
  obtain ⟨⟨unordered, different⟩, unqueued, unready⟩ := left_out
  obtain ⟨input, member, missing⟩ := waiting other known
    (by simp [unordered, different, unqueued])
  by_contra none_missing
  push Not at none_missing
  -- All inputs are ordered now, and one was not before: the module has made it ready.
  have last_input : input = module := by
    simpa [missing] using none_missing input member
  subst last_input
  refine unready (List.mem_filter.mpr ⟨mem_outputsOf.mpr (mem_inputsOf.mp member), ?_⟩)
  simpa using none_missing

/-- The search ends with an empty queue, or has ordered one module in each step. -/
theorem Waiting.run (waiting : wiring.Waiting ordered queue) (steps : Nat) :
    wiring.Waiting (wiring.orderFrom steps ordered queue) [] ∨
      (wiring.orderFrom steps ordered queue).length = ordered.length + steps := by
  fun_induction orderFrom wiring steps ordered queue with
  | case1 => exact Or.inr rfl
  | case2 => exact Or.inl waiting
  | case3 ordered steps module queue extended ih =>
      refine (ih waiting.step).imp_right fun length_eq => ?_
      rw [length_eq, List.length_append, List.length_singleton]
      omega

/-- If no queue is left and the wiring is acyclic, nothing waits: a module of least rank that is not
ordered would have all its inputs ordered. -/
theorem Waiting.mem_of_acyclic (waiting : wiring.Waiting ordered []) (valid : wiring.Valid)
    (acyclic : wiring.Acyclic) (known : module < wiring.size) : module ∈ ordered := by
  obtain ⟨rank, rises⟩ := acyclic
  induction rank_eq : rank module using Nat.strongRecOn generalizing module with
  | ind height ih =>
    subst rank_eq
    by_contra unordered
    obtain ⟨input, member, missing⟩ := waiting module known (by simpa using unordered)
    have edge := mem_inputsOf.mp member
    exact missing (ih _ (rises input module edge) (valid.bounds _ edge).1 rfl)

/-- **The execution order of an acyclic wiring is complete**: it lists every module once. -/
theorem Valid.executionOrder_perm (valid : wiring.Valid) (acyclic : wiring.Acyclic) :
    wiring.executionOrder.Perm (List.range wiring.size) := by
  obtain ⟨distinct, known⟩ := valid.executionOrder_subperm
  rcases (Waiting.initial wiring).run wiring.size with waiting | length_eq
  · refine (List.perm_ext_iff_of_nodup distinct List.nodup_range).mpr fun module => ⟨?_, ?_⟩
    · exact fun member => known.subset member
    · exact fun inside => waiting.mem_of_acyclic valid acyclic (List.mem_range.mp inside)
  · rw [List.length_nil, Nat.zero_add] at length_eq
    exact valid.executionOrder_perm_of_length length_eq

/-- An execution order begins with a module that has no inputs. -/
theorem Valid.head_executionOrder (valid : wiring.Valid) {rest : List Nat}
    (begins : wiring.executionOrder = module :: rest) : wiring.inputsOf module = [] := by
  obtain ⟨_, state⟩ := (Ordering.initial wiring).run valid wiring.size
  rw [List.eq_nil_iff_forall_not_mem]
  intro input member
  exact List.not_mem_nil (state.closed [] module rest begins input member)

end Wiring

/-! ## The expanded batch is the least one -/

namespace Expansion

variable {start multiple other value step : Nat} {sizes : List Nat}

/-- A common multiple divides every other one. -/
theorem commonMultiple_least (found : commonMultiple start sizes = some multiple)
    (start_dvd : start ∣ other) (each : ∀ size ∈ sizes, size ≠ 0 → size ∣ other) :
    multiple ∣ other := by
  induction sizes generalizing start with
  | nil =>
      injection found with found
      exact found ▸ start_dvd
  | cons size rest ih =>
      obtain ⟨here, later⟩ := List.forall_mem_cons.mp each
      rw [commonMultiple] at found
      by_cases zero : size = 0
      · rw [if_pos zero] at found
        exact ih found start_dvd later
      · rw [if_neg zero] at found
        dsimp only at found
        split at found
        case isFalse => cases found
        case isTrue => exact ih found (Nat.lcm_dvd start_dvd (here zero)) later

/-- Where some common multiple is a word, the least one is found. -/
theorem exists_commonMultiple (start_dvd : start ∣ other)
    (each : ∀ size ∈ sizes, size ≠ 0 → size ∣ other) (positive : 0 < other)
    (fits : other < Word.limit 32) : ∃ multiple, commonMultiple start sizes = some multiple := by
  induction sizes generalizing start with
  | nil => exact ⟨start, rfl⟩
  | cons size rest ih =>
      obtain ⟨here, later⟩ := List.forall_mem_cons.mp each
      rw [commonMultiple]
      by_cases zero : size = 0
      · rw [if_pos zero]
        exact ih start_dvd later
      · have lcm_dvd : Nat.lcm start size ∣ other := Nat.lcm_dvd start_dvd (here zero)
        have lcm_lt := Nat.lt_of_le_of_lt (Nat.le_of_dvd positive lcm_dvd) fits
        rw [if_neg zero]
        dsimp only
        rw [if_pos lcm_lt]
        exact ih lcm_dvd later

/-- Rounding up goes no further than the next multiple. -/
theorem roundUp_least (positive : 0 < step) (divides : step ∣ other) (holds : value ≤ other) :
    roundUp value step ≤ other := by
  obtain ⟨times, rfl⟩ := divides
  have rounds : (value + step - 1) / step ≤ times := by
    rw [← Nat.lt_succ_iff, Nat.div_lt_iff_lt_mul positive, Nat.succ_mul, Nat.mul_comm times]
    omega
  calc roundUp value step = step * ((value + step - 1) / step) := Nat.mul_comm _ _
    _ ≤ step * times := Nat.mul_le_mul_left step rounds

/-- The sizes that a batch may be expanded to: they hold it, and the minimum slot size and every
size declared divides them. -/
def Holding (batch : Nat) (declared : List Nat) (minSlot : Nat) : Set Nat :=
  {expanded | batch ≤ expanded ∧ max minSlot 1 ∣ expanded ∧
    ∀ size ∈ declared, size ≠ 0 → size ∣ expanded}

end Expansion

open Expansion in
/-- **A batch is expanded to the least size that holds it**, and that exactly if this size is a
word. -/
theorem expandBatchSize_eq_ok_iff {batch minSlot expanded : Nat} {declared : List Nat}
    (positive : 0 < batch) :
    expandBatchSize batch declared minSlot = .ok expanded ↔
      IsLeast (Holding batch declared minSlot) expanded ∧ expanded < Word.limit 32 := by
  have start_pos : 0 < max minSlot 1 := Nat.lt_of_lt_of_le Nat.one_pos (Nat.le_max_right _ _)
  have least {multiple : Nat} (found : commonMultiple (max minSlot 1) declared = some multiple) :
      IsLeast (Holding batch declared minSlot) (roundUp batch multiple) := by
    obtain ⟨multiple_pos, start_dvd, each⟩ := commonMultiple_dvd found start_pos
    have grid : multiple ∣ roundUp batch multiple := Nat.dvd_mul_left _ _
    refine ⟨⟨le_roundUp multiple_pos, start_dvd.trans grid, ?_⟩, ?_⟩
    · exact fun size member nonzero => (each size member nonzero).trans grid
    · rintro other ⟨holds, other_start, other_each⟩
      exact roundUp_least multiple_pos (commonMultiple_least found other_start other_each) holds
  constructor
  · intro expands
    obtain ⟨-, fits, -, -⟩ := expandBatchSize_dvd expands
    unfold expandBatchSize at expands
    split at expands
    case h_2 => cases expands
    case h_1 rounded found =>
      obtain ⟨multiple, common, rfl⟩ := Option.map_eq_some_iff.mp found
      split at expands
      case isFalse => cases expands
      case isTrue =>
        injection expands with expands
        exact ⟨expands ▸ least common, fits⟩
  · rintro ⟨expanded_least, fits⟩
    obtain ⟨⟨holds, start_dvd, each⟩, -⟩ := id expanded_least
    obtain ⟨multiple, common⟩ :=
      exists_commonMultiple start_dvd each (Nat.lt_of_lt_of_le positive holds) fits
    have same : roundUp batch multiple = expanded := (least common).unique expanded_least
    rw [expandBatchSize, common, Option.map_some]
    dsimp only
    rw [same, if_pos fits]

namespace Plan

variable {name : String} {settings : GraphSettings} {wiring : Wiring} {batch expanded id : Nat}
  {spec : ModuleSpec}

/-- Modules are resolved exactly if each of them fits. -/
theorem resolveFrom_eq_ok_iff {specs : List ModuleSpec} {list : List ResolvedModule} :
    resolveFrom settings wiring expanded id specs = .ok list ↔
      (∀ spec ∈ specs, spec.Fits settings expanded) ∧
        list = specs.mapIdx fun index => resolution settings wiring expanded (id + index) := by
  induction specs generalizing id list with
  | nil => simp [resolveFrom, eq_comm]
  | cons spec rest ih =>
      simp only [resolveFrom, Fault.bind_eq_ok, resolve_eq_ok_iff, ih, List.forall_mem_cons,
        List.mapIdx_cons, Nat.add_zero, Nat.add_assoc, Nat.add_comm 1]
      constructor
      · rintro ⟨head, ⟨fits, rfl⟩, tail, ⟨rest_fit, rfl⟩, made⟩
        injection made with made
        exact ⟨⟨fits, rest_fit⟩, made.symm⟩
      · rintro ⟨⟨fits, rest_fit⟩, rfl⟩
        exact ⟨_, ⟨fits, rfl⟩, _, ⟨rest_fit, rfl⟩, rfl⟩

/-! ## The rules on the shape -/

/-- The rules on the shape of a wiring: nothing leads to the first module, nothing leads away from
the last one, and every module can be reached from the first. -/
structure Shaped (wiring : Wiring) (first last : Nat) : Prop where
  first_eq : wiring.first = some first
  last_eq : wiring.last = some last
  unfed : ∀ source, (source, first) ∉ wiring.edges
  unread : ∀ target, (last, target) ∉ wiring.edges
  reached : ∀ module < wiring.size, Feeds wiring first module

/-- The check of the shape succeeds exactly if the rules on it hold. -/
theorem checkShape_eq_ok_iff {order : List Nat} (valid : wiring.Valid) (acyclic : wiring.Acyclic) :
    checkShape name wiring batch = .ok order ↔
      0 < batch ∧ wiring.modules ≠ [] ∧ (∃ first last, Shaped wiring first last) ∧
        order = wiring.executionOrder := by
  have whole := (valid.executionOrder_perm acyclic).length_eq
  rw [List.length_range] at whole
  have unfed_iff (module : Nat) :
      wiring.inputsOf module = [] ↔ ∀ source, (source, module) ∉ wiring.edges := by
    simp [List.eq_nil_iff_forall_not_mem, Wiring.mem_inputsOf]
  have unread_iff (module : Nat) :
      wiring.outputsOf module = [] ↔ ∀ target, (module, target) ∉ wiring.edges := by
    simp [List.eq_nil_iff_forall_not_mem, Wiring.mem_outputsOf]
  have reached_iff (first : Nat) (known : first < wiring.size) :
      (∀ module < wiring.size, module ∈ wiring.reachableFrom first) ↔
        ∀ module < wiring.size, Feeds wiring first module :=
    forall₂_congr fun _ _ => valid.mem_reachableFrom known
  unfold checkShape
  simp only [Invariant.require_bind_eq_ok, Bool.not_eq_true', List.isEmpty_eq_false_iff,
    decide_eq_true_eq]
  refine and_congr_right fun _ => and_congr_right fun _ => ?_
  constructor
  · intro checked
    split at checked
    case h_2 => cases checked
    case h_1 first last first_eq last_eq =>
      simp only [Invariant.require_bind_eq_ok, List.isEmpty_iff, List.all_eq_true, List.mem_range,
        List.contains_iff_mem, unfed_iff, unread_iff, reached_iff first
          (valid.first_lt first first_eq)] at checked
      obtain ⟨unfed, unread, reached, -, made⟩ := checked
      injection made with made
      exact ⟨⟨first, last, first_eq, last_eq, unfed, unread, reached⟩, made.symm⟩
  · rintro ⟨⟨first, last, first_eq, last_eq, unfed, unread, reached⟩, rfl⟩
    rw [first_eq, last_eq]
    simp only [Invariant.require_bind_eq_ok, List.isEmpty_iff, List.all_eq_true, List.mem_range,
      List.contains_iff_mem, unfed_iff, unread_iff, reached_iff first
        (valid.first_lt first first_eq), decide_eq_true_eq]
    exact ⟨unfed, unread, reached, whole, rfl⟩

/-! ## No cycle is ever found -/

/-- A module is refused for its workers or its sizes. -/
theorem resolve_refused {fault : Fault}
    (refused : resolve settings wiring expanded id spec = .error fault) :
    ∃ reason context, fault = .violated .threadBounds reason context ∨
      fault = .violated .chunkDividesAssignment reason context := by
  unfold resolve at refused
  rcases Invariant.require_bind_eq_error.mp refused with ⟨-, threads⟩ | ⟨-, accepted⟩
  · exact ⟨_, _, Or.inl threads.symm⟩
  · rcases Invariant.require_bind_eq_error.mp accepted with ⟨-, sizes⟩ | ⟨-, divided⟩
    · exact ⟨_, _, Or.inr sizes.symm⟩
    · dsimp only at divided
      split at divided
      · rcases Invariant.require_bind_eq_error.mp divided with ⟨-, custom⟩ | ⟨-, resolved⟩
        · exact ⟨_, _, Or.inr custom.symm⟩
        · cases resolved
      · cases divided

theorem resolveFrom_refused {specs : List ModuleSpec} {fault : Fault}
    (refused : resolveFrom settings wiring expanded id specs = .error fault) :
    ∃ reason context, fault = .violated .threadBounds reason context ∨
      fault = .violated .chunkDividesAssignment reason context := by
  induction specs generalizing id with
  | nil => cases refused
  | cons spec rest ih =>
      rcases Fault.bind_eq_error.mp refused with head | ⟨_, -, tail⟩
      · exact resolve_refused head
      · rcases Fault.bind_eq_error.mp tail with others | ⟨_, -, resolved⟩
        · exact ih others
        · cases resolved

/-- Where the execution order is complete, no check of the shape finds a cycle. -/
theorem checkShape_ne_cycle (whole : wiring.executionOrder.length = wiring.size)
    (context : Option String) :
    checkShape name wiring batch ≠
      .error (.violated .graphShape "graph contains a cycle" context) := by
  intro refused
  unfold checkShape at refused
  simp only [Invariant.require_bind_eq_error] at refused
  rcases refused with ⟨-, text⟩ | ⟨-, ⟨-, text⟩ | ⟨-, refused⟩⟩
  · simp at text
  · simp at text
  · split at refused
    · simp [Invariant.require_bind_eq_error, whole, Invariant.graphShape,
        Invariant.graphReachable, pure, Except.pure] at refused
    · simp [throw, throwThe, MonadExceptOf.throw] at refused

/-- **The fault of a wiring with a cycle is never raised** on a wiring without one. -/
theorem compile_ne_cycle (valid : wiring.Valid) (acyclic : wiring.Acyclic)
    (context : Option String) :
    compile name settings wiring batch ≠
      .error (.violated .graphShape "graph contains a cycle" context) := by
  have whole := (valid.executionOrder_perm acyclic).length_eq
  rw [List.length_range] at whole
  intro refused
  unfold compile at refused
  rcases Fault.bind_eq_error.mp refused with shape | ⟨_, -, shaped⟩
  · exact checkShape_ne_cycle whole context shape
  · rcases Fault.bind_eq_error.mp shaped with expansion | ⟨_, -, sized⟩
    · unfold expandBatchSize expandBatchSize.overflow at expansion
      split at expansion
      · split at expansion <;> simp at expansion
      · simp at expansion
    · rcases Fault.bind_eq_error.mp sized with modules | ⟨_, -, resolved⟩
      · obtain ⟨reason, place, raised⟩ := resolveFrom_refused modules
        simp [Invariant.graphShape, Invariant.threadBounds, Invariant.chunkDividesAssignment]
          at raised
      · cases resolved

/-! ## What a plan is worth -/

/-- The rules on a wiring and a batch. -/
structure Plannable (settings : GraphSettings) (wiring : Wiring) (batch : Nat) : Prop where
  batch_pos : 0 < batch
  inhabited : wiring.modules ≠ []
  shaped : ∃ first last, Shaped wiring first last
  sized : ∃ expanded,
    IsLeast (Expansion.Holding batch (declaredSizes wiring) settings.minSlotSize) expanded ∧
      expanded < Word.limit 32 ∧ ∀ spec ∈ wiring.modules, spec.Fits settings expanded

/-- What a plan says of the module at position `id`: its sizes divide each other and the batch, and
its neighbours are those that edges lead from and to, each listed once. -/
structure Resolves (settings : GraphSettings) (wiring : Wiring) (expanded id : Nat)
    (spec : ModuleSpec) (resolved : ResolvedModule) : Prop where
  assignment_eq : resolved.assignmentSize = spec.assignmentIn expanded
  chunk_eq : resolved.chunkSize = spec.chunkIn expanded
  threads_eq : resolved.threads = spec.threadsIn settings
  mem_inputs : ∀ source, source ∈ resolved.inputs ↔ (source, id) ∈ wiring.edges
  mem_outputs : ∀ target, target ∈ resolved.outputs ↔ (id, target) ∈ wiring.edges
  nodup_inputs : resolved.inputs.Nodup
  nodup_outputs : resolved.outputs.Nodup
  chunk_dvd : resolved.chunkSize ∣ resolved.assignmentSize
  assignment_dvd : resolved.assignmentSize ∣ expanded

/-- What a plan says of a wiring and a batch. -/
structure Faithful (settings : GraphSettings) (wiring : Wiring) (batch : Nat) (plan : Plan) :
    Prop where
  each_once : plan.executionOrder.Perm (List.range wiring.size)
  forward : ∀ source target, (source, target) ∈ wiring.edges →
    plan.executionOrder.idxOf source < plan.executionOrder.idxOf target
  begins : plan.executionOrder.head? = wiring.first
  least : IsLeast (Expansion.Holding batch (declaredSizes wiring) settings.minSlotSize)
    plan.expandedSize
  expanded_lt : plan.expandedSize < Word.limit 32
  batch_le : batch ≤ plan.expandedSize
  grain_dvd : settings.minSlotSize ∣ plan.expandedSize
  length_eq : plan.modules.length = wiring.size
  resolves : ∀ (id : Nat) spec resolved, wiring.modules[id]? = some spec →
    plan.modules[id]? = some resolved →
      Resolves settings wiring plan.expandedSize id spec resolved

/-- A wiring is compiled exactly if the rules hold, to the plan that they describe. -/
theorem compile_eq_ok_iff {plan : Plan} (valid : wiring.Valid) (acyclic : wiring.Acyclic) :
    compile name settings wiring batch = .ok plan ↔
      (0 < batch ∧ wiring.modules ≠ [] ∧ ∃ first last, Shaped wiring first last) ∧
        ∃ expanded,
          IsLeast (Expansion.Holding batch (declaredSizes wiring) settings.minSlotSize) expanded ∧
            expanded < Word.limit 32 ∧ (∀ spec ∈ wiring.modules, spec.Fits settings expanded) ∧
            plan = {
              expandedSize := expanded
              executionOrder := wiring.executionOrder
              modules := wiring.modules.mapIdx (resolution settings wiring expanded) } := by
  unfold compile
  simp only [Fault.bind_eq_ok, checkShape_eq_ok_iff valid acyclic, resolveFrom_eq_ok_iff,
    Nat.zero_add]
  constructor
  · rintro ⟨order, ⟨batch_pos, inhabited, shaped, rfl⟩, expanded, expands, modules,
      ⟨fits, rfl⟩, made⟩
    obtain ⟨least, expanded_lt⟩ := (expandBatchSize_eq_ok_iff batch_pos).mp expands
    injection made with made
    exact ⟨⟨batch_pos, inhabited, shaped⟩, expanded, least, expanded_lt, fits, made.symm⟩
  · rintro ⟨⟨batch_pos, inhabited, shaped⟩, expanded, least, expanded_lt, fits, rfl⟩
    exact ⟨_, ⟨batch_pos, inhabited, shaped, rfl⟩, expanded,
      (expandBatchSize_eq_ok_iff batch_pos).mpr ⟨least, expanded_lt⟩, _, ⟨fits, rfl⟩, rfl⟩

/-- The first module is the only one that no edge leads to, so the order begins with it. -/
theorem Shaped.begins {first last : Nat} (shaped : Shaped wiring first last)
    (valid : wiring.Valid) (acyclic : wiring.Acyclic) :
    wiring.executionOrder.head? = some first := by
  have complete := valid.executionOrder_perm acyclic
  have known : first ∈ wiring.executionOrder :=
    complete.mem_iff.mpr (List.mem_range.mpr (valid.first_lt first shaped.first_eq))
  obtain ⟨head, rest, order_eq⟩ := List.exists_cons_of_ne_nil (List.ne_nil_of_mem known)
  have head_known : head ∈ wiring.executionOrder := order_eq ▸ List.mem_cons_self
  rw [complete.mem_iff, List.mem_range] at head_known
  have no_inputs := valid.head_executionOrder order_eq
  rw [order_eq, List.head?_cons]
  rcases (shaped.reached head head_known).cases_tail with same | ⟨input, -, edge⟩
  · exact congrArg some same
  · -- The last edge of a path to the head would lead to it.
    rw [← Wiring.mem_inputsOf, no_inputs] at edge
    cases edge

/-- A module that fits resolves to sizes that divide each other and the batch. -/
theorem resolves_resolution (valid : wiring.Valid) (fits : spec.Fits settings expanded)
    (declared : spec.assignmentSize ≠ 0 → spec.assignmentSize ∣ expanded) :
    Resolves settings wiring expanded id spec (resolution settings wiring expanded id spec) := by
  refine ⟨rfl, rfl, rfl, fun _ => Wiring.mem_inputsOf, fun _ => Wiring.mem_outputsOf,
    valid.nodup_inputsOf id, valid.nodup_outputsOf id, fits.chunk_dvd, ?_⟩
  change spec.assignmentIn expanded ∣ expanded
  rw [ModuleSpec.assignmentIn]
  split
  · exact Nat.dvd_refl expanded
  · exact declared ‹_›

/-- **A plan is made exactly if the rules hold**, and never refused for a cycle.  It lists every
module once, each behind its inputs and the first module at its head, and every size that it
resolves divides the ones above it up to the expanded batch. -/
theorem compile_exact {graph : Graph} (wired : graph.Wired) (batch : Nat) :
    ((∃ plan, compile graph.name graph.settings graph.wiring batch = .ok plan) ↔
        Plannable graph.settings graph.wiring batch) ∧
      (∀ context, compile graph.name graph.settings graph.wiring batch ≠
        .error (.violated .graphShape "graph contains a cycle" context)) ∧
      ∀ plan, compile graph.name graph.settings graph.wiring batch = .ok plan →
        Faithful graph.settings graph.wiring batch plan := by
  obtain ⟨valid, grain⟩ := wired.valid
  have acyclic := wired.acyclic
  refine ⟨⟨?_, ?_⟩, compile_ne_cycle valid acyclic, ?_⟩
  · rintro ⟨plan, compiled⟩
    obtain ⟨⟨batch_pos, inhabited, shaped⟩, expanded, least, expanded_lt, fits, -⟩ :=
      (compile_eq_ok_iff valid acyclic).mp compiled
    exact ⟨batch_pos, inhabited, shaped, expanded, least, expanded_lt, fits⟩
  · rintro ⟨batch_pos, inhabited, shaped, expanded, least, expanded_lt, fits⟩
    exact ⟨_, (compile_eq_ok_iff valid acyclic).mpr
      ⟨⟨batch_pos, inhabited, shaped⟩, expanded, least, expanded_lt, fits, rfl⟩⟩
  · intro plan compiled
    obtain ⟨⟨-, -, first, last, shaped⟩, expanded, least, expanded_lt, fits, rfl⟩ :=
      (compile_eq_ok_iff valid acyclic).mp compiled
    obtain ⟨⟨batch_le, grain_dvd, each⟩, -⟩ := id least
    have complete := valid.executionOrder_perm acyclic
    have whole := complete.length_eq
    rw [List.length_range] at whole
    refine ⟨complete, ?_, ?_, least, expanded_lt, batch_le, ?_, List.length_mapIdx, ?_⟩
    · exact fun source target edge => Wiring.rank_lt valid whole (Wiring.mem_inputsOf.mpr edge)
    · exact (shaped.begins valid acyclic).trans shaped.first_eq.symm
    · rwa [Nat.max_eq_left grain] at grain_dvd
    · intro id spec resolved found planned
      have member := List.mem_of_getElem? found
      rw [List.getElem?_mapIdx, found, Option.map_some] at planned
      injection planned with planned
      subst planned
      refine resolves_resolution valid (fits spec member) (each _ ?_)
      exact List.mem_flatMap.mpr ⟨spec, member, List.mem_cons_self⟩

/-- A module of the sample, which computes nothing. -/
def crossedModule (name : String) (assignmentSize chunkSize : Nat) : ModuleSpec :=
  { ModuleSpec.plain name .idle with assignmentSize, chunkSize }

/-- A graph whose modules were added in another order than its edges point. -/
def crossed : Graph :=
  { Graph.create "crossed" { minSlotSize := 2, defaultThreads := 3, outputThreshold := .zero,
                             handled := false } (.blank "nothing") with
    wiring := {
      modules := [
        crossedModule "left" 4 2,
        { crossedModule "last" 0 4 with inputSize := .custom 2 },
        crossedModule "first" 0 0,
        { crossedModule "right" 6 0 with threads := some 64 }]
      edges := [(3, 1), (2, 0), (0, 1), (2, 3)]
      first := some 2
      last := some 1 } }

theorem crossed_wired : crossed.Wired := by
  have empty : (Graph.create "crossed" crossed.settings (.blank "nothing")).Wired :=
    .create (show GraphSettings.create 2 3 .zero = .ok crossed.settings from rfl)
  have left := empty.addModule (show Graph.addModule _ (crossedModule "left" 4 2) =
    .ok (0, _) from rfl)
  have last := left.addModule (show Graph.addModule _
    { crossedModule "last" 0 4 with inputSize := .custom 2 } = .ok (1, _) from rfl)
  have first := last.addModule (show Graph.addModule _ (crossedModule "first" 0 0) =
    .ok (2, _) from rfl)
  have right := first.addModule (show Graph.addModule _
    { crossedModule "right" 6 0 with threads := some 64 } = .ok (3, _) from rfl)
  have right_last := right.connect (show Graph.connect _ 3 1 = .ok _ from rfl)
  have first_left := right_last.connect (show Graph.connect _ 2 0 = .ok _ from rfl)
  have left_last := first_left.connect (show Graph.connect _ 0 1 = .ok _ from rfl)
  have first_right := left_last.connect (show Graph.connect _ 2 3 = .ok _ from rfl)
  have entrance := first_right.setFirst (show Graph.setFirst _ 2 = .ok _ from rfl)
  exact entrance.setLast (show Graph.setLast _ 1 = .ok crossed from rfl)

/-- Its plan for a batch of thirteen slots. -/
def crossedPlan : Plan where
  expandedSize := 24
  executionOrder := [2, 0, 3, 1]
  modules := [
    { assignmentSize := 4, chunkSize := 2, threads := 3, inputs := [2], outputs := [1] },
    { assignmentSize := 24, chunkSize := 4, threads := 3, inputs := [3, 0], outputs := [] },
    { assignmentSize := 24, chunkSize := 24, threads := 3, inputs := [], outputs := [0, 3] },
    { assignmentSize := 6, chunkSize := 6, threads := 64, inputs := [2], outputs := [1] }]

theorem compile_exact_sample : crossed.Wired ∧
    compile crossed.name crossed.settings crossed.wiring 13 = .ok crossedPlan ∧
      Plannable crossed.settings crossed.wiring 13 ∧
      Faithful crossed.settings crossed.wiring 13 crossedPlan := by
  have compiled : compile crossed.name crossed.settings crossed.wiring 13 = .ok crossedPlan := by
    decide +kernel
  obtain ⟨exactly, -, faithful⟩ := compile_exact crossed_wired 13
  exact ⟨crossed_wired, compiled, exactly.mp ⟨crossedPlan, compiled⟩, faithful crossedPlan compiled⟩

end Plan

end Mixnet
