import Mixnet.Proofs.Causality
import Mixnet.Proofs.Completion
import Mixnet.Proofs.Construction
import Mixnet.Proofs.Processing

/-!
# Modules with more inputs than a word can count

A full assignment weighs its slots once for each input, and the number of inputs enters the product
as a word.  Nothing in wiring or building bounds the number of modules, so a module can have inputs
that this word does not count.  This file builds a graph of that kind for every number of inputs,
the fan, and runs it up to the first report to the crowded module.  With as many inputs as a word
has values the module has no room for any weight, so the report is a fault; with one more input the
report of a single input is taken for all of them.

## Main definitions

* `Graph.fan`: a graph whose last module has any number of inputs
* `Graph.made`: the module that building makes of its description

## Main statements

* `Graph.fan_wired`, `Graph.fan_build`: every fan can be wired and built
* `Graph.build_made`: building makes every module of its description
* `Graph.fan_play`: a fan runs up to the first report of its first module
* `Graph.fan_stuck`: if the inputs of the last module are counted as none, the report is a fault,
  and nobody moves any more
* `Graph.fan_ahead`: if they are counted as one, the report is enough to call its kernel
-/

namespace Mixnet

open Journal

namespace Graph

/-! ## Fans -/

/-- The edges of a fan: the first module feeds the last one, also by way of any number of
others. -/
def fanEdges : Nat → List (Nat × Nat)
  | 0 => [(0, 1)]
  | ways + 1 => fanEdges ways ++ [(0, ways + 2), (ways + 2, 1)]

/-- Every module of a fan works on the whole batch. -/
def fanSpec : ModuleSpec := .plain "module" .idle

/-- A graph with a number of modules and a list of edges. -/
def fanStage (size : Nat) (edges : List (Nat × Nat)) : Graph :=
  { Graph.create "fan" sample.settings (.blank "nothing") with
    wiring := { modules := List.replicate size fanSpec, edges, first := none, last := none } }

/-- A fan. -/
def fan (ways : Nat) : Graph :=
  { fanStage (ways + 2) (fanEdges ways) with
    wiring := { (fanStage (ways + 2) (fanEdges ways)).wiring with
      first := some 0
      last := some 1 } }

variable {ways size source target : Nat}

theorem mem_fanEdges : (source, target) ∈ fanEdges ways ↔
    source = 0 ∧ 0 < target ∧ target < ways + 2 ∨
      target = 1 ∧ 2 ≤ source ∧ source < ways + 2 := by
  induction ways with
  | zero => simp [fanEdges]; omega
  | succ ways ih =>
      simp only [fanEdges, List.mem_append, ih, List.mem_cons, Prod.mk.injEq, List.not_mem_nil,
        or_false]
      omega

/-- The first module of a fan comes before the others, and the last one behind them. -/
def fanRank : Nat → Nat
  | 0 => 0
  | 1 => 2
  | _ => 1

theorem fanRank_lt (edge : (source, target) ∈ fanEdges ways) :
    fanRank source < fanRank target := by
  rcases mem_fanEdges.mp edge with ⟨rfl, positive, -⟩ | ⟨rfl, above, -⟩
  · match target, positive with
    | 1, _ => decide
    | _ + 2, _ => exact Nat.one_pos
  · match source, above with
    | _ + 2, _ => exact Nat.lt_succ_self 1

theorem fanStage_wired_nil (size : Nat) : (fanStage size []).Wired := by
  induction size with
  | zero =>
      exact .create (show GraphSettings.create 1 1 .zero = .ok sample.settings from rfl)
  | succ size ih =>
      have added : (fanStage size []).addModule fanSpec = .ok (size, fanStage (size + 1) []) := by
        rw [addModule]
        simp only [fanStage, Wiring.size, Wiring.add, List.length_replicate, List.replicate_succ']
        rfl
      exact ih.addModule added

/-- An edge that leads up in a fan can be added to fewer edges of it. -/
theorem Wired.connect_fan {edges : List (Nat × Nat)} (wired : (fanStage size edges).Wired)
    (source target : Nat)
    (rises : ∀ source target, (source, target) ∈ edges → fanRank source < fanRank target)
    (source_lt : source < size) (target_lt : target < size) (fresh : (source, target) ∉ edges)
    (up : fanRank source < fanRank target) :
    (fanStage size (edges ++ [(source, target)])).Wired := by
  have size_eq : (fanStage size edges).wiring.size = size := List.length_replicate
  have connected : (fanStage size edges).connect source target =
      .ok (fanStage size (edges ++ [(source, target)])) := by
    refine ((connects_of_valid rfl wired.valid.1 source target).added _).mpr ⟨?_, fresh, ?_, rfl⟩
    · rw [size_eq]
      exact ⟨source_lt, target_lt⟩
    · intro feeds
      exact Nat.not_le_of_lt up (Wiring.rank_le_of_feeds rises feeds)
  exact wired.connect connected

theorem fanStage_wired (inside : ways + 2 ≤ size) : (fanStage size (fanEdges ways)).Wired := by
  induction ways with
  | zero =>
      exact (fanStage_wired_nil size).connect_fan 0 1 (by simp) (by omega) (by omega) (by simp)
        (by decide)
  | succ ways ih =>
      have before := ih (by omega)
      have out := before.connect_fan 0 (ways + 2) (fun _ _ => fanRank_lt)
        (by omega) (by omega) (by rw [mem_fanEdges]; omega) Nat.one_pos
      have rises : ∀ source target, (source, target) ∈ fanEdges ways ++ [(0, ways + 2)] →
          fanRank source < fanRank target := by
        intro source target edge
        refine fanRank_lt (show (source, target) ∈ fanEdges (ways + 1) from mem_fanEdges.mpr ?_)
        simp only [List.mem_append, mem_fanEdges, List.mem_singleton, Prod.mk.injEq] at edge
        omega
      have back := out.connect_fan (ways + 2) 1 rises (by omega) (by omega)
        (by simp only [List.mem_append, mem_fanEdges, List.mem_singleton, Prod.mk.injEq]; omega)
        (Nat.lt_succ_self 1)
      rwa [List.append_assoc] at back

theorem fan_wired (ways : Nat) : (fan ways).Wired := by
  have laid := fanStage_wired (le_refl (ways + 2))
  have marked : ((fanStage (ways + 2) (fanEdges ways)).setFirst 0 >>= (·.setLast 1)) =
      .ok (fan ways) := by
    simp [setFirst, setLast, Wiring.setFirst, Wiring.setLast, fanStage, fan, Wiring.size,
      Invariant.require, bind, Except.bind, pure, Except.pure]
  obtain ⟨entered, first, last⟩ := Fault.bind_eq_ok.mp marked
  exact (laid.setFirst first).setLast last

/-- The last module of a fan has an input for each way and one more. -/
theorem length_inputsOf_fan (ways : Nat) : ((fan ways).wiring.inputsOf 1).length = ways + 1 := by
  have counted (ways : Nat) :
      (((fanEdges ways).filter (·.2 = 1)).map (·.1)).length = ways + 1 := by
    induction ways with
    | zero => rfl
    | succ ways ih => simpa [fanEdges] using ih
  exact counted ways

/-- The first module of a fan is fed from outside. -/
theorem inputsOf_fan (ways : Nat) : (fan ways).wiring.inputsOf 0 = [] := by
  simp only [Wiring.inputsOf, List.map_eq_nil_iff, List.filter_eq_nil_iff, decide_eq_true_eq]
  rintro ⟨source, target⟩ edge
  have := mem_fanEdges.mp edge
  show ¬ target = 0
  omega

/-- The first module of a fan reports to the last one first. -/
theorem outputsOf_fan (ways : Nat) : ∃ others, (fan ways).wiring.outputsOf 0 = 1 :: others := by
  have begins (ways : Nat) :
      ∃ others, ((fanEdges ways).filter (·.1 = 0)).map (·.2) = 1 :: others := by
    induction ways with
    | zero => exact ⟨[], rfl⟩
    | succ ways ih =>
        obtain ⟨others, outputs_eq⟩ := ih
        refine ⟨others ++ [ways + 2], ?_⟩
        simp [fanEdges, outputs_eq]
  exact begins ways

/-- A batch of one slot is not expanded in a fan. -/
theorem fan_least (ways : Nat) :
    IsLeast (Expansion.Holding 1 (Plan.declaredSizes (fan ways).wiring)
      (fan ways).settings.minSlotSize) 1 := by
  refine ⟨⟨le_refl 1, one_dvd _, ?_⟩, ?_⟩
  · intro size declared nonzero
    simp [Plan.declaredSizes, fan, fanStage, fanSpec, ModuleSpec.plain] at declared
    omega
  · rintro other ⟨holds, -⟩
    exact holds

/-- **Every fan has a plan**, for a batch of one slot. -/
theorem fan_plannable (ways : Nat) : Plan.Plannable (fan ways).settings (fan ways).wiring 1 := by
  refine ⟨Nat.one_pos, by simp [fan, fanStage], ⟨0, 1, rfl, rfl, ?_, ?_, ?_⟩, 1,
    fan_least ways, by decide, ?_⟩
  · intro source edge
    have := mem_fanEdges.mp edge
    omega
  · intro target edge
    have := mem_fanEdges.mp edge
    omega
  · intro module known
    have known : module < ways + 2 := by simpa [fan, fanStage, Wiring.size] using known
    cases module with
    | zero => exact .refl
    | succ module => exact .single (mem_fanEdges.mpr (by omega))
  · intro spec member
    obtain rfl : spec = fanSpec := List.eq_of_mem_replicate member
    show fanSpec.Fits sample.settings 1
    exact ⟨by decide, by decide, by decide, by decide, by simp [fanSpec, ModuleSpec.plain]⟩

/-! ## What building makes of a module -/

/-- The module that building makes of its description, with the account that it has made. -/
def made (graph : Graph) (expanded id : Nat) (spec : ModuleSpec) (assignments : AssignmentList) :
    Module where
  name := spec.name
  assignmentSize := spec.assignmentIn expanded
  chunkSize := spec.chunkIn expanded
  inputSize := spec.inputSize
  threads := spec.threadsIn graph.settings
  inputs := graph.wiring.inputsOf id
  outputs := graph.wiring.outputsOf id ++
    if graph.wiring.last = some id then [graph.wiring.size] else []
  assignments := assignments
  queue := .create assignments.size

/-- **Building makes every module of its description**, and puts the sink behind them. -/
theorem build_made {graph built : Graph} {batch : Nat} (ordered : graph.wiring.Ordered)
    (done : graph.build batch = .ok built) :
    ∃ plan modules sink, Plan.compile graph.name graph.settings graph.wiring batch = .ok plan ∧
      built.dispatch = some (.create (modules ++ [sink]).toArray graph.wiring.size) ∧
      built.state = .built ∧ built.wiring = graph.wiring ∧ built.stream = graph.stream ∧
      built.expandedSize = plan.expandedSize ∧ modules.length = graph.wiring.size ∧
      (∀ module ∈ modules ++ [sink], module.queue = .create module.assignments.size) ∧
      ∀ (id : Nat) spec, graph.wiring.modules[id]? = some spec → ∃ assignments,
        AssignmentList.create plan.expandedSize (spec.assignmentIn plan.expandedSize)
          (spec.chunkIn plan.expandedSize) (graph.wiring.inputsOf id).length spec.startThreshold =
            .ok assignments ∧
        modules[id]? = some (graph.made plan.expandedSize id spec assignments) := by
  obtain ⟨-, plan, modules, sink, planned, placed, sinks, rfl⟩ := build_ok done
  obtain ⟨-, -, sizes_eq⟩ := of_compile ordered planned
  rw [sizes_eq] at placed
  obtain ⟨length_eq, each⟩ := buildModules_getElem? placed length_sizesIn
  have unworked : ∀ module ∈ modules ++ [sink],
      module.queue = .create module.assignments.size := by
    intro module member
    rcases List.mem_append.mp member with inner | last
    · obtain ⟨id, found⟩ := List.mem_iff_getElem?.mp inner
      obtain ⟨_, _, -, -, builds⟩ := each id module found
      obtain ⟨_, -, builds⟩ := Fault.bind_eq_ok.mp builds
      injection builds with builds
      rw [← builds]
    · obtain rfl := List.mem_singleton.mp last
      obtain ⟨_, -, sinks⟩ := Fault.bind_eq_ok.mp sinks
      injection sinks with sinks
      rw [← sinks]
  refine ⟨plan, modules, sink, planned, rfl, rfl, rfl, rfl, rfl, length_eq, unworked, ?_⟩
  intro id spec found
  obtain ⟨inside, -⟩ := List.getElem?_eq_some_iff.mp found
  have there := List.getElem?_eq_getElem (length_eq ▸ inside)
  obtain ⟨other, sizes, other_found, resolves, builds⟩ := each id _ there
  obtain rfl : other = spec := Option.some.inj (other_found.symm.trans found)
  rw [sizesIn, withSink, List.getElem?_modify, List.getElem?_mapIdx, found] at resolves
  obtain ⟨assignments, created, builds⟩ := Fault.bind_eq_ok.mp builds
  injection resolves with resolves
  injection builds with builds
  -- Behind the outputs of the last module, and of no other, stands the sink.
  have at_last : graph.wiring.last.getD graph.wiring.size = id ↔ graph.wiring.last = some id := by
    have known : id ≠ graph.wiring.modules.length := inside.ne
    cases graph.wiring.last with
    | none => simpa [Wiring.size] using known.symm
    | some last => simp
  have sizes_eq : sizes =
      { Plan.resolution graph.settings graph.wiring plan.expandedSize id other with
        outputs := graph.wiring.outputsOf id ++
          if graph.wiring.last = some id then [graph.wiring.size] else [] } := by
    rw [← resolves]
    simp only [at_last]
    split <;> simp [Plan.resolution]
  subst sizes_eq
  exact ⟨assignments, created, there.trans (congrArg some builds.symm)⟩

/-! ## What building makes of a fan -/

/-- The account of a module for a batch of one slot. -/
def tally (inputs : Nat) : AssignmentList where
  counts := #[0]
  assignmentSize := 1
  chunkSize := 1
  maxCount := Word.narrow 32 (max inputs 1)
  threshold := 0
  primed := 0
  completed := 0
  waiting := []

theorem create_tally (inputs : Nat) :
    AssignmentList.create 1 1 1 inputs .zero = .ok (tally inputs) := by
  have word : 1 * Word.narrow 32 (max inputs 1) < Word.limit 32 := by
    rw [Nat.one_mul]
    exact Nat.mod_lt _ (by decide)
  have fraction : Binary32.zero.isFraction = true := by decide
  simp only [AssignmentList.create, Invariant.require, fraction, if_true]
  rw [Word.product_eq_ok word, Nat.one_mul]
  have count : AssignmentList.assignmentCount 1 1 = 1 := rfl
  have threshold : AssignmentList.thresholdCount .zero 1 = 0 := by decide
  rw [count, threshold]
  rfl

/-- A module of a fan, as it is built. -/
def spoke (ways id : Nat) : Module :=
  (fan ways).made 1 id fanSpec (tally ((fan ways).wiring.inputsOf id).length)

/-- **Every fan can be built.**  Its first and its last module come before the others, and no work
waits anywhere. -/
theorem fan_build (ways : Nat) : ∃ built modules, (fan ways).build 1 = .ok built ∧
    built.dispatch =
      some (.create (spoke ways 0 :: spoke ways 1 :: modules).toArray (ways + 2)) ∧
    built.state = .built ∧ built.wiring = (fan ways).wiring ∧
    built.stream = .blank "nothing" ∧ built.expandedSize = 1 ∧
    ∀ module ∈ modules, module.queue = .create module.assignments.size := by
  have wired := fan_wired ways
  have ordered : (fan ways).wiring.Ordered := ⟨wired.valid.1, wired.acyclic⟩
  have size_eq : (fan ways).wiring.size = ways + 2 := List.length_replicate
  obtain ⟨plan, planned⟩ := (Plan.compile_exact wired 1).1.mpr (fan_plannable ways)
  have expanded_eq : plan.expandedSize = 1 :=
    ((Plan.compile_exact wired 1).2.2 plan planned).least.unique (fan_least ways)
  have buildable : (fan ways).Buildable 1 := by
    refine ⟨rfl, plan, planned, ?_, show Binary32.zero.isFraction = true by decide⟩
    intro id spec found
    obtain rfl : spec = fanSpec := List.eq_of_mem_replicate (List.mem_of_getElem? found)
    rw [expanded_eq]
    refine ⟨show Binary32.zero.isFraction = true by decide, ?_⟩
    rw [weightAt, AssignmentList.fullWeight, show fanSpec.assignmentIn 1 = 1 from rfl, Nat.one_mul]
    exact Nat.mod_lt _ (by decide)
  obtain ⟨built, done⟩ := (exists_build_ok_iff ordered).mpr buildable
  obtain ⟨other, modules, sink, compiled, dispatch_eq, state_eq, wiring_eq, stream_eq, expands,
    length_eq, unworked, each⟩ := build_made ordered done
  obtain rfl := Except.ok.inj (planned.symm.trans compiled)
  rw [expanded_eq] at each expands
  rw [size_eq] at dispatch_eq length_eq
  have position (id : Nat) (known : id < ways + 2) : modules[id]? = some (spoke ways id) := by
    have found : (fan ways).wiring.modules[id]? = some fanSpec := by
      simp [fan, fanStage, known]
    obtain ⟨assignments, created, made_eq⟩ := each id fanSpec found
    obtain rfl := Except.ok.inj (created.symm.trans (create_tally _))
    exact made_eq
  obtain ⟨first, behind, rfl, behind_eq⟩ := List.length_eq_succ_iff.mp length_eq
  obtain ⟨last, others, rfl, -⟩ := List.length_eq_succ_iff.mp behind_eq
  obtain rfl : first = spoke ways 0 := Option.some.inj (position 0 (by omega))
  obtain rfl : last = spoke ways 1 := Option.some.inj (position 1 (by omega))
  exact ⟨built, others ++ [sink], done, dispatch_eq, state_eq, wiring_eq, stream_eq, expands,
    fun module member => unworked module (.tail _ (.tail _ member))⟩

/-! ## The first piece of a fan -/

/-- The whole batch of one slot, as the only assignment of a module. -/
def whole : Chunk := (tally 0).assignment 0

/-- The first module reports a piece to the last module before any other. -/
theorem outputs_spoke (ways : Nat) : ∃ others, (spoke ways 0).outputs = 1 :: others := by
  obtain ⟨others, outputs_eq⟩ := outputsOf_fan ways
  have inner : (fan ways).wiring.last ≠ some 0 := show some 1 ≠ some 0 by decide
  exact ⟨others, by rw [spoke, made, outputs_eq, if_neg inner, List.append_nil]⟩

/-- A state that is described by its first two modules and their workers. -/
def opening (sink : Nat) (modules : List Module) (workers : List Worker) (first last : Module)
    (source target : Activity) (journal : List Observation) : Dispatch :=
  { Dispatch.create (first :: last :: modules).toArray sink with
    workers := (⟨0, 0, source⟩ :: ⟨1, 0, target⟩ :: workers).toArray
    journal }

section Opening

variable {sink : Nat} {modules : List Module} {workers : List Worker} {first last : Module}
  {source target : Activity} {journal : List Observation}

/-- The steps of the worker of the first module. -/
theorem opening_take {chunk : Chunk} {rest : List Chunk}
    (waiting : first.queue.chunks = chunk :: rest) :
    (opening sink modules workers first last .idle target journal).step (.take 0) =
      some (opening sink modules workers (first.withWaiting rest) last
        (.working (first.tasks chunk)) target journal) := by
  simp [opening, Dispatch.step, Dispatch.takeStep, Dispatch.setActivity, Dispatch.setModule,
    Dispatch.create, ChunkQueue.take, waiting, Module.withWaiting]

theorem opening_enter {chunk : Chunk} {rest : List Task} :
    (opening sink modules workers first last (.working (.call chunk :: rest)) target journal).step
      (.enter 0) = some (opening sink modules workers first last (.calling chunk rest) target
        (.called 0 chunk :: journal)) := by
  simp [opening, Dispatch.step, Dispatch.enterStep, Dispatch.setActivity, Dispatch.observe,
    Dispatch.create]

theorem opening_leave {chunk : Chunk} {rest : List Task} :
    (opening sink modules workers first last (.calling chunk rest) target journal).step
      (.leave 0 (.ok ())) = some (opening sink modules workers first last (.working rest) target
        (.returned 0 chunk (.ok ()) :: journal)) := by
  simp [opening, Dispatch.step, Dispatch.leaveStep, Dispatch.setActivity, Dispatch.observe,
    Dispatch.create]

theorem opening_pass {rest : List Task} :
    (opening sink modules workers first last (.working (.checkpoint :: rest)) target
      journal).step (.proceed 0) =
        some (opening sink modules workers first last (.working rest) target journal) := by
  simp [opening, Dispatch.step, Dispatch.proceedStep, Dispatch.setActivity, Dispatch.create]

theorem opening_refuse {piece : Chunk} {rest : List Task} {fault : Fault}
    {account : AssignmentList} (refused : last.assignments.prime piece = (.error fault, account)) :
    (opening sink modules workers first last (.working (.report 1 piece :: rest)) target
      journal).step (.proceed 0) = some (opening sink modules workers first
        { last with assignments := account } (.crashed fault) target
        (.reported (some 0) 1 piece :: journal)) := by
  simp [opening, Dispatch.step, Dispatch.proceedStep, Dispatch.setActivity, Dispatch.setModule,
    Dispatch.observe, Dispatch.create, Dispatch.prime, refused]

/-- The report that fills the account of the last module, and the call that follows it. -/
theorem opening_report {piece : Chunk} {rest : List Task} {released : List Chunk}
    {account counted : AssignmentList}
    (filled : last.assignments.prime piece = (.ok released, account))
    (all : account.complete released.length = (.ok true, counted))
    (unused : last.queue.closed = false) (inner : 1 ≠ sink) :
    (opening sink modules workers first last (.working (.report 1 piece :: rest)) target
      journal).step (.proceed 0) = some (opening sink modules workers first
        { last with
          assignments := counted
          queue := { last.queue with chunks := last.queue.chunks ++ released, closed := true } }
        (.working rest) target
        (released.reverse.map (.queued 1) ++ .reported (some 0) 1 piece :: journal)) := by
  simp [opening, Dispatch.step, Dispatch.proceedStep, Dispatch.setActivity, Dispatch.setModule,
    Dispatch.observe, Dispatch.observeQueued, Dispatch.create, Dispatch.prime, Dispatch.enqueue,
    ChunkQueue.close, filled, all, unused, inner]

theorem opening_take_last {chunk : Chunk} {rest : List Chunk}
    (waiting : last.queue.chunks = chunk :: rest) :
    (opening sink modules workers first last source .idle journal).step (.take 1) =
      some (opening sink modules workers first (last.withWaiting rest) source
        (.working (last.tasks chunk)) journal) := by
  simp [opening, Dispatch.step, Dispatch.takeStep, Dispatch.setActivity, Dispatch.setModule,
    Dispatch.create, ChunkQueue.take, waiting, Module.withWaiting]

theorem opening_enter_last {chunk : Chunk} {rest : List Task} :
    (opening sink modules workers first last source (.working (.call chunk :: rest))
      journal).step (.enter 1) = some (opening sink modules workers first last source
        (.calling chunk rest) (.called 1 chunk :: journal)) := by
  simp [opening, Dispatch.step, Dispatch.enterStep, Dispatch.setActivity, Dispatch.observe,
    Dispatch.create]

end Opening

/-- The run in which the first module works on its only assignment, up to its first report. -/
def fanRun : List Event :=
  [.link (.create ⟨7, 2⟩ 1 1), .start, .send whole] ++
  [Dispatch.Step.take 0, .enter 0, .leave 0 (.ok ()), .proceed 0].map .work

/-- With one input, a report of the batch fills the account. -/
theorem prime_tally {inputs : Nat} (one : Word.narrow 32 (max inputs 1) = 1) :
    (tally inputs).prime whole = (.ok [whole], { tally 0 with counts := #[1], primed := 1 }) := by
  have same : tally inputs = tally 0 :=
    congrArg (fun weight => { tally 0 with maxCount := weight }) one
  rw [same]
  decide +kernel

/-- The fault of a report that weighs too much. -/
def tooMuch : Fault :=
  .violated .weightOverflow "assignment weight exceeded max count" AssignmentList.primeContext

/-- With no room at all, the account refuses a report of the batch. -/
theorem prime_tally_of_no_room {inputs : Nat} (none : Word.narrow 32 (max inputs 1) = 0) :
    (tally inputs).prime whole =
      (.error tooMuch, { tally 0 with counts := #[1], maxCount := 0 }) := by
  have same : tally inputs = { tally 0 with maxCount := 0 } :=
    congrArg (fun weight => { tally 0 with maxCount := weight }) none
  rw [same]
  decide +kernel

/-- A module of a fan that has queued its only assignment. -/
def busySpoke (ways id : Nat) (waiting : List Chunk) : Module :=
  { spoke ways id with
    assignments := { tally 0 with counts := #[1], primed := 1, completed := 1 }
    queue := { chunks := waiting, closed := true, capacity := 1 } }

/-- A module that works slot by slot has one call to make on the batch, and then reports it. -/
theorem tasks_whole {module : Module} (mode : module.inputSize = .chunk)
    (unit_eq : module.chunkSize = 1) :
    module.tasks whole = .call whole :: .checkpoint :: module.reports whole := by
  have piece : whole.pieces 1 = [whole] :=
    Chunk.pieces_length (show whole.start < whole.stop by decide)
  simp [Module.tasks, Module.callSize, mode, unit_eq, piece]

/-- What the first module has to do: a call, and then reports, of which the last module gets the
first. -/
theorem tasks_busySpoke (ways : Nat) (waiting : List Chunk) : ∃ others,
    (busySpoke ways 0 waiting).tasks whole =
      .call whole :: .checkpoint :: .report 1 whole :: others := by
  obtain ⟨others, outputs_eq⟩ := outputs_spoke ways
  refine ⟨others.map (Task.report · whole), (tasks_whole rfl rfl).trans ?_⟩
  show .call whole :: .checkpoint :: (spoke ways 0).outputs.map (Task.report · whole) = _
  rw [outputs_eq]
  rfl

/-- A graph whose workers have been started. -/
def launched (built : Graph) (dispatch : Dispatch) : Graph :=
  { built with state := .running, dispatch := some dispatch }

/-- What has been observed of a fan when the first module has returned. -/
def fanJournal : List Observation :=
  [.returned 0 whole (.ok ()), .called 0 whole, .queued 0 whole, .reported none 0 whole]

/-- **The first module of a fan calls its kernel on the batch and returns**, and is about to report
to the last module, while everyone else waits. -/
theorem fan_play (ways : Nat) : ∃ built modules others,
    (fan ways).build 1 = .ok built ∧ built.expandedSize = 1 ∧
    built.play fanRun = some (built.launched (opening (ways + 2) modules (workersFrom 2 modules)
      (busySpoke ways 0 []) (spoke ways 1) (.working (.report 1 whole :: others)) .idle
      fanJournal)) ∧
    ∀ module ∈ modules, module.queue = .create module.assignments.size := by
  obtain ⟨built, modules, done, dispatch_eq, state_eq, wiring_eq, stream_eq, expands, unworked⟩ :=
    fan_build ways
  obtain ⟨others, tasks_eq⟩ := tasks_busySpoke ways [whole]
  refine ⟨built, modules, others, done, expands, ?_, unworked⟩
  have linked : built.act (.link (.create ⟨7, 2⟩ 1 1)) = some { built with state := .linked } := by
    simp [act, link, expect, Invariant.require, state_eq, expands, stream_eq, Stream.link, bind,
      Except.bind, pure, Except.pure, Except.toOption, RoundBuffer.create]
  have started : act { built with state := .linked } .start =
      some (built.launched (opening (ways + 2) modules (workersFrom 2 modules) (spoke ways 0)
        (spoke ways 1) .idle .idle [])) := by
    simp only [act, run, expect, Invariant.require, dispatched, dispatch_eq, bind, Except.bind,
      pure, Except.pure, Except.toOption]
    rfl
  have fed : (built.launched (opening (ways + 2) modules (workersFrom 2 modules) (spoke ways 0)
      (spoke ways 1) .idle .idle [])).act (.send whole) =
        some (built.launched (opening (ways + 2) modules (workersFrom 2 modules)
          (busySpoke ways 0 [whole]) (spoke ways 1) .idle .idle
          [.queued 0 whole, .reported none 0 whole])) := by
    have account : (spoke ways 0).assignments = tally 0 := by
      rw [spoke, made, inputsOf_fan]
      rfl
    have entrance : built.wiring.first = some 0 := by rw [wiring_eq]; rfl
    have unused : (spoke ways 0).queue = .create 1 := rfl
    have filled := prime_tally (show Word.narrow 32 (max 0 1) = 1 from rfl)
    simp only [launched, act, send, dispatched, opening, Dispatch.create, entrance,
      Option.getD_some, Dispatch.prime, Dispatch.observe, List.getElem?_toArray,
      List.getElem?_cons_zero, account, filled, Dispatch.enqueue, Dispatch.observeQueued, unused]
    rfl
  have waiting : (busySpoke ways 0 [whole]).queue.chunks = [whole] := rfl
  rw [fanRun, play_append, play, linked, Option.bind_some, play, started, Option.bind_some, play,
    fed]
  simp only [List.map_cons, play, act, launched, Option.bind_some, Option.map_some,
    opening_take waiting, tasks_eq, opening_enter, opening_leave, opening_pass]
  rfl

/-! ## No room -/

/-- The run in which the first module of a fan reports to the last one, too. -/
def fanReport : List Event := fanRun ++ [.work (.proceed 0)]

theorem fanReport_calm : Calm fanReport := by
  simp [Calm, fanReport, fanRun, Event.Calm]

/-- A report to the last module of a fan is a step of the first. -/
theorem play_fanReport {built : Graph} {before after : Dispatch}
    (played : built.play fanRun = some (built.launched before))
    (stepped : before.step (.proceed 0) = some after) :
    built.play fanReport = some (built.launched after) := by
  rw [fanReport, play_append, played, Option.bind_some, play, act, launched, Option.bind_some,
    stepped]
  rfl

theorem account_spoke (ways : Nat) : (spoke ways 1).assignments = tally (ways + 1) := by
  rw [spoke, made, length_inputsOf_fan]

/-- What the first report leaves behind if the account of the last module has no room. -/
def fanRefused (ways : Nat) (modules : List Module) : Dispatch :=
  opening (ways + 2) modules (workersFrom 2 modules) (busySpoke ways 0 [])
    { spoke ways 1 with assignments := { tally 0 with counts := #[1], maxCount := 0 } }
    (.crashed tooMuch) .idle (.reported (some 0) 1 whole :: fanJournal)

theorem launched_atRest {built : Graph} {dispatch : Dispatch} (atRest : dispatch.AtRest) :
    (built.launched dispatch).AtRest := by
  intro step
  rw [act, launched, Option.bind_some, atRest, Option.map_none]

/-- **If the account of the last module has no room, the first report is a fault**, and nobody can
take a step any more. -/
theorem fan_stuck {ways : Nat} (uncounted : Word.narrow 32 (ways + 1) = 0) : ∃ built modules,
    (fan ways).build 1 = .ok built ∧ built.expandedSize = 1 ∧
    built.play fanReport = some (built.launched (fanRefused ways modules)) ∧
    (built.launched (fanRefused ways modules)).AtRest := by
  obtain ⟨built, modules, others, done, expands, played, unworked⟩ := fan_play ways
  rw [← Nat.max_eq_left (Nat.le_add_left 1 ways)] at uncounted
  have refused := prime_tally_of_no_room uncounted
  rw [← account_spoke] at refused
  refine ⟨built, modules, done, expands, play_fanReport played (opening_refuse refused), ?_⟩
  apply launched_atRest
  apply Dispatch.atRest_of_stuck
  intro worker member
  rcases List.mem_cons.mp (Array.mem_def.mp member) with rfl | member
  · trivial
  rcases List.mem_cons.mp member with rfl | member
  · refine ⟨rfl, ?_⟩
    intro module found
    injection found with found
    rw [← found]
    exact ⟨rfl, rfl⟩
  · -- Behind the first two stand the workers of the modules behind the first two.
    obtain ⟨idle, index, _, module_found, module_eq, -⟩ := mem_workersFrom member
    simp only [Dispatch.Stuck, idle]
    refine ⟨rfl, ?_⟩
    intro module found
    have behind : modules[index]? = some module := by
      rw [module_eq, Nat.add_comm] at found
      simpa [fanRefused, opening, Dispatch.create] using found
    rw [unworked module (List.mem_of_getElem? behind)]
    exact ⟨rfl, rfl⟩

/-- A fan whose last module has as many inputs as a word has values. -/
def crowded : Graph := fan (Word.limit 32 - 1)

theorem crowded_uncounted : Word.narrow 32 (Word.limit 32 - 1 + 1) = 0 := by decide

/-- The one chunk that is sent to a fan is the whole batch. -/
theorem portions_fanReport : Portions 1 (sent fanReport) := by
  refine ⟨?_, ?_, List.pairwise_singleton _ _⟩ <;>
  · intro chunk member
    obtain rfl := List.mem_singleton.mp member
    decide

/-- A worker meets a fault of accounting in a calm run that sends the batch as one chunk. -/
theorem crowded_worker_crashes : ∃ built after dispatch, crowded.Wired ∧
    crowded.build 1 = .ok built ∧ Calm fanReport ∧
    Portions built.expandedSize (sent fanReport) ∧ built.play fanReport = some after ∧
    after.dispatch = some dispatch ∧ ∃ worker ∈ dispatch.workers,
      worker.activity = .crashed (.violated .weightOverflow
        "assignment weight exceeded max count" AssignmentList.primeContext) := by
  obtain ⟨built, modules, done, expands, played, -⟩ := fan_stuck crowded_uncounted
  refine ⟨built, _, _, fan_wired _, done, fanReport_calm, ?_, played, rfl,
    ⟨0, 0, .crashed tooMuch⟩, ?_, rfl⟩
  · rw [expands]
    exact portions_fanReport
  · exact Array.mem_of_getElem? (i := 0) rfl

/-- A calm run that has sent the whole batch is stuck before the last module was called, so the
graph never completes. -/
theorem crowded_graph_stuck : ∃ built after dispatch, crowded.Wired ∧
    crowded.build 1 = .ok built ∧ built.play fanReport = some after ∧ Calm fanReport ∧
    (∀ slot < built.expandedSize, Chunk.coverage (sent fanReport) slot = 1) ∧
    after.state = .running ∧ after.AtRest ∧ after.dispatch = some dispatch ∧
    calledOn dispatch.journal 1 = [] ∧ after.isComplete = false := by
  obtain ⟨built, modules, done, expands, played, atRest⟩ := fan_stuck crowded_uncounted
  refine ⟨built, _, _, fan_wired _, done, played, fanReport_calm, ?_, rfl, atRest, rfl, rfl, rfl⟩
  rw [expands]
  decide

/-- The first module has called its kernel on its assignment, but another one of its outputs is not
reported the piece, and never will be: nothing has ended the work, and nobody can move. -/
theorem crowded_piece_unreported : ∃ built after dispatch module, crowded.Wired ∧
    crowded.build 1 = .ok built ∧ built.play fanReport = some after ∧ Calm fanReport ∧
    after.isTerminated = false ∧ after.AtRest ∧ after.dispatch = some dispatch ∧
    dispatch.modules[0]? = some module ∧ queuedOn dispatch.journal 0 = [whole] ∧
    Returned dispatch.journal 0 0 ∧ 2 ∈ module.outputs ∧
    whole.pieces module.chunkSize = [whole] ∧ reportsFrom dispatch.journal (some 0) 2 = [] := by
  obtain ⟨built, modules, done, expands, played, atRest⟩ := fan_stuck crowded_uncounted
  refine ⟨built, _, _, _, fan_wired _, done, played, fanReport_calm, rfl, atRest, rfl, rfl, rfl,
    ?_, ?_, ?_, rfl⟩
  · exact ⟨whole, by simp [fanRefused, opening, fanJournal], rfl⟩
  · have edge : (0, 2) ∈ (fan (Word.limit 32 - 1)).wiring.edges :=
      mem_fanEdges.mpr (Or.inl (by decide))
    exact List.mem_append_left _ (Wiring.mem_outputsOf.mpr edge)
  · exact Chunk.pieces_length (show whole.start < whole.stop by decide)

/-! ## Too little weight -/

/-- The run in which the last module of a fan goes on to work after the first report. -/
def fanAhead : List Event := fanReport ++ [.work (.take 1), .work (.enter 1)]

/-- **If the account of the last module has room for one report only, the first report is enough to
call its kernel.** -/
theorem fan_ahead {ways : Nat} (one : Word.narrow 32 (ways + 1) = 1) :
    ∃ built after dispatch, (fan ways).build 1 = .ok built ∧ built.play fanAhead = some after ∧
    after.dispatch = some dispatch ∧ dispatch.journal =
      .called 1 whole :: .queued 1 whole :: .reported (some 0) 1 whole :: fanJournal := by
  obtain ⟨built, modules, others, done, -, played, -⟩ := fan_play ways
  have reported : built.play fanReport = some (built.launched (opening (ways + 2) modules
      (workersFrom 2 modules) (busySpoke ways 0 []) (busySpoke ways 1 [whole]) (.working others)
      .idle (.queued 1 whole :: .reported (some 0) 1 whole :: fanJournal))) := by
    rw [← Nat.max_eq_left (Nat.le_add_left 1 ways)] at one
    have filled := prime_tally one
    rw [← account_spoke] at filled
    exact play_fanReport played (opening_report filled rfl rfl (by omega))
  have waiting : (busySpoke ways 1 [whole]).queue.chunks = [whole] := rfl
  have tasks_eq : (busySpoke ways 1 [whole]).tasks whole =
      .call whole :: .checkpoint :: (spoke ways 1).reports whole := tasks_whole rfl rfl
  refine ⟨built, built.launched (opening (ways + 2) modules (workersFrom 2 modules)
    (busySpoke ways 0 []) (busySpoke ways 1 []) (.working others)
    (.calling whole (.checkpoint :: (spoke ways 1).reports whole))
    (.called 1 whole :: .queued 1 whole :: .reported (some 0) 1 whole :: fanJournal)), _, done, ?_,
    rfl, rfl⟩
  rw [fanAhead, play_append, reported]
  simp only [play, act, launched, Option.bind_some, Option.map_some, opening_take_last waiting,
    tasks_eq, opening_enter_last]
  rfl

/-- A fan whose last module has one more input than a word has values. -/
def overcrowded : Graph := fan (Word.limit 32)

/-- The kernel of the last module is called when only one of its inputs has returned. -/
theorem overcrowded_called_ahead : ∃ built after dispatch past, overcrowded.Wired ∧
    overcrowded.build 1 = .ok built ∧ built.play fanAhead = some after ∧
    after.dispatch = some dispatch ∧ dispatch.journal = .called 1 whole :: past ∧
    (2, 1) ∈ overcrowded.wiring.edges ∧ ¬ Returned past 2 0 := by
  obtain ⟨built, after, dispatch, done, played, dispatch_eq, journal_eq⟩ :=
    fan_ahead (show Word.narrow 32 (Word.limit 32 + 1) = 1 by decide)
  refine ⟨built, after, dispatch, _, fan_wired _, done, played, dispatch_eq, journal_eq,
    mem_fanEdges.mpr (Or.inr (by decide)), ?_⟩
  rintro ⟨chunk, returned, -⟩
  simp [fanJournal] at returned

end Graph

end Mixnet
