import Mixnet.Proofs.Connecting
import Mixnet.Proofs.Multiples
import Mixnet.Proofs.Walking

/-!
# Building in place

Building a graph divides sizes, numbers assignments, and looks up rows of neighbours.  This file
carries it out with each of these steps checked: a remainder by zero, a number that is no word and a
row that does not exist end it with a fault of their own.  On a wiring in order, and with sizes that
are words, none of these faults is ever raised: what is left is building itself.

## Main definitions

* `Plan.compileInPlace`: compiling with every step checked
* `AssignmentList.createInPlace`: an account with every number in a word
* `Graph.buildInPlace`: building with both, which stores what it has made only in the end
* `Graph.Worded`: the sizes of a graph and of a batch are words

## Main statements

* `Plan.compileInPlace_eq`, `AssignmentList.createInPlace_eq`: no check fails
* `Graph.buildInPlace_eq`: building in place is building
-/

namespace Mixnet

namespace Word

/-- The remainder of two words, if the divisor is not zero. -/
def remainder (left right : Nat) : Except Fault Nat :=
  if right = 0 then .error .zeroRing else .ok (left % right)

/-- Whether a step of a least size divides a number.  A step that is too small is not divided by. -/
def stepsIn (least step value : Nat) : Except Fault Bool :=
  if least ≤ step then (remainder value step).map (· = 0) else .ok false

theorem stepsIn_eq {least step value : Nat} (positive : least ≤ step → 0 < step) :
    stepsIn least step value = .ok (least ≤ step && value % step = 0) := by
  unfold stepsIn remainder
  by_cases enough : least ≤ step
  · simp [enough, (positive enough).ne', Except.map]
  · simp [enough]

theorem stepsIn_one (step value : Nat) :
    stepsIn 1 step value = .ok (0 < step && value % step = 0) :=
  stepsIn_eq Nat.lt_of_succ_le

end Word

namespace Plan

variable {name : String} {settings : GraphSettings} {wiring : Wiring} {batch expanded id : Nat}
  {spec : ModuleSpec}

/-! ## The shape -/

/-- Checks the shape of a wiring along rows of neighbours, and answers them with the execution
order. -/
def checkShapeInPlace (name : String) (wiring : Wiring) (batch : Nat) :
    Except Fault (Array (List Nat) × Array (List Nat) × List Nat) := do
  let context := some name
  Invariant.graphShape.require (0 < batch) "batch size must be positive" context
  Invariant.graphShape.require (!wiring.modules.isEmpty) "graph has no modules" context
  match wiring.first, wiring.last with
  | some first, some last =>
    let (inputs, outputs) ← wiring.rows
    Invariant.graphShape.require (← Cells.read inputs first).isEmpty
      "first module cannot have inputs" context
    Invariant.graphShape.require (← Cells.read outputs last).isEmpty
      "last module cannot have outputs" context
    let seen ← Wiring.reachedFrom outputs first
    Invariant.graphReachable.require (seen.all fun marked => marked)
      "every module must be reachable from the first module" context
    let order ← Wiring.orderOf inputs outputs
    Invariant.graphShape.require (order.length = wiring.size) "graph contains a cycle" context
    return (inputs, outputs, order)
  | _, _ =>
    throw (.violated .graphShape "graph needs exactly one first and one last module" context)

/-- **The shape is checked in place**, with the rows of the wiring beside the answer. -/
theorem checkShapeInPlace_eq (valid : wiring.Valid) :
    checkShapeInPlace name wiring batch =
      (fun order => (wiring.table wiring.inputsOf, wiring.table wiring.outputsOf, order)) <$>
        checkShape name wiring batch := by
  unfold checkShapeInPlace checkShape
  simp only [map_bind]
  refine bind_congr fun _ => bind_congr fun _ => ?_
  cases first_eq : wiring.first with
  | none => rfl
  | some first =>
      cases last_eq : wiring.last with
      | none => rfl
      | some last =>
          have first_known := valid.first_lt first first_eq
          have last_known := valid.last_lt last last_eq
          obtain ⟨seen, searched, size_eq, marks⟩ :=
            Wiring.reachedFrom_exact valid first_known
          have all_eq : (seen.all fun marked => marked) =
              (List.range wiring.size).all (wiring.reachableFrom first).contains := by
            rw [Bool.eq_iff_iff, Array.all_eq_true, List.all_eq_true]
            simp only [List.mem_range, List.contains_iff_mem, valid.mem_reachableFrom first_known,
              ← marks, ← size_eq]
            exact forall₂_congr fun module inside => by simp [inside]
          simp only [Wiring.rows_eq valid, Fault.ok_bind,
            Cells.read_eq_ok.mpr (Wiring.getElem?_table first_known),
            Cells.read_eq_ok.mpr (Wiring.getElem?_table last_known), searched,
            Wiring.orderOf_eq valid, map_bind, all_eq]
          rfl

/-! ## The sizes -/

/-- Resolves the sizes of one module, with every remainder checked, and looks up its neighbours. -/
def resolveInPlace (settings : GraphSettings) (inputs outputs : Array (List Nat))
    (expanded id : Nat)
    (spec : ModuleSpec) : Except Fault ResolvedModule := do
  let context := some spec.name
  let threads := spec.threads.getD settings.defaultThreads
  Invariant.threadBounds.require (1 ≤ threads && threads ≤ Module.maxThreads)
    "module thread count must be between 1 and 64" context
  let assignmentSize := if spec.assignmentSize = 0 then expanded else spec.assignmentSize
  let chunkSize := if spec.chunkSize = 0 then assignmentSize else spec.chunkSize
  Invariant.chunkDividesAssignment.require
    (← Word.stepsIn settings.minSlotSize chunkSize assignmentSize)
    "chunk size must divide assignment size and cover the minimum slot size" context
  match spec.inputSize with
  | .custom slots =>
    Invariant.chunkDividesAssignment.require (← Word.stepsIn 1 slots chunkSize)
      "custom input size must divide chunk size" context
  | _ => pure ()
  return { assignmentSize, chunkSize, threads,
           inputs := ← Cells.read inputs id, outputs := ← Cells.read outputs id }

/-- **A module is resolved in place**: no remainder is taken by zero, and its neighbours are
there. -/
theorem resolveInPlace_eq (positive : 0 < expanded) (known : id < wiring.size) :
    resolveInPlace settings (wiring.table wiring.inputsOf) (wiring.table wiring.outputsOf) expanded
      id spec = resolve settings wiring expanded id spec := by
  have chunk_pos : 0 < if spec.chunkSize = 0 then
      if spec.assignmentSize = 0 then expanded else spec.assignmentSize else spec.chunkSize := by
    split
    · split <;> omega
    · omega
  unfold resolveInPlace resolve
  dsimp only
  rw [Word.stepsIn_eq fun _ => chunk_pos]
  simp only [Fault.ok_bind, Cells.read_eq_ok.mpr (Wiring.getElem?_table known)]
  refine bind_congr fun _ => bind_congr fun _ => ?_
  cases spec.inputSize with
  | custom slots =>
      simp only [Word.stepsIn_one, Fault.ok_bind]
  | _ => rfl

/-- Resolves modules one after the other, from position `id` on. -/
def resolveFromInPlace (settings : GraphSettings) (inputs outputs : Array (List Nat))
    (expanded : Nat) : Nat → List ModuleSpec → Except Fault (List ResolvedModule)
  | _, [] => .ok []
  | id, spec :: rest => do
    let resolved ← resolveInPlace settings inputs outputs expanded id spec
    return resolved :: (← resolveFromInPlace settings inputs outputs expanded (id + 1) rest)

theorem resolveFromInPlace_eq {specs : List ModuleSpec} (positive : 0 < expanded)
    (known : id + specs.length ≤ wiring.size) :
    resolveFromInPlace settings (wiring.table wiring.inputsOf) (wiring.table wiring.outputsOf)
      expanded id specs = resolveFrom settings wiring expanded id specs := by
  induction specs generalizing id with
  | nil => rfl
  | cons spec rest ih =>
      rw [List.length_cons] at known
      rw [resolveFromInPlace, resolveFrom, resolveInPlace_eq positive (by omega), ih (by omega)]

/-- Compiles a wiring, with every step checked. -/
def compileInPlace (name : String) (settings : GraphSettings) (wiring : Wiring) (batch : Nat) :
    Except Fault Plan := do
  let (inputs, outputs, executionOrder) ← checkShapeInPlace name wiring batch
  let expandedSize ← expandInWords batch (declaredSizes wiring) settings.minSlotSize
  let modules ← resolveFromInPlace settings inputs outputs expandedSize 0 wiring.modules
  return { expandedSize, executionOrder, modules }

/-- **A wiring is compiled in place**, if its sizes and the batch are words. -/
theorem compileInPlace_eq (valid : wiring.Valid) (batch_word : batch < Word.limit 32)
    (slot_word : settings.minSlotSize < Word.limit 32)
    (words : ∀ size ∈ declaredSizes wiring, size < Word.limit 32) :
    compileInPlace name settings wiring batch = compile name settings wiring batch := by
  unfold compileInPlace compile
  rw [checkShapeInPlace_eq valid, expandInWords_eq batch_word slot_word words]
  cases checked : checkShape name wiring batch with
  | error fault => rfl
  | ok order =>
      show (expandBatchSize batch (declaredSizes wiring) settings.minSlotSize >>= _) =
        (expandBatchSize batch (declaredSizes wiring) settings.minSlotSize >>= _)
      cases expands : expandBatchSize batch (declaredSizes wiring) settings.minSlotSize with
      | error fault => rfl
      | ok expanded =>
          have expanded_pos : 0 < expanded :=
            (checkShape_layered checked).1.trans_le (expandBatchSize_dvd expands).1
          rw [Fault.ok_bind, Fault.ok_bind,
            resolveFromInPlace_eq expanded_pos (Nat.le_of_eq (Nat.zero_add _))]

end Plan

namespace AssignmentList

variable {expanded unit chunkSize inputs : Nat} {threshold : Binary32}

/-! ## The accounts -/

/-- An account with every number in a word: the assignments are counted up to the end of the batch,
and each of them has a first slot. -/
def createInPlace (expanded unit chunkSize inputs : Nat) (threshold : Binary32) :
    Except Fault AssignmentList := do
  Invariant.thresholdRange.require threshold.isFraction "start threshold must lie in [0, 1]"
    (some "AssignmentList::new")
  let count ← Word.rounds 32 expanded (max unit 1)
  let starts ← (List.range count).mapM fun index => Word.product 32 index unit
  let maxCount ← Word.product 32 unit (Word.narrow 32 (max inputs 1))
  return {
    counts := (starts.map fun _ => 0).toArray
    assignmentSize := unit
    chunkSize, maxCount
    threshold := thresholdCount threshold count
    primed := 0
    completed := 0
    waiting := []
  }

/-- **An account is made in place**: the assignments of a batch that is a word can be counted, and
begin inside the batch. -/
theorem createInPlace_eq (word : expanded < Word.limit 32) :
    createInPlace expanded unit chunkSize inputs threshold =
      create expanded unit chunkSize inputs threshold := by
  have counted : Word.rounds 32 expanded (max unit 1) =
      .ok (assignmentCount expanded unit) :=
    Word.rounds_eq_ok (Nat.lt_of_lt_of_le Nat.one_pos (Nat.le_max_right _ _)) word
  have begins : ∀ index ∈ List.range (assignmentCount expanded unit),
      Word.product 32 index unit = .ok (index * unit) := by
    intro index member
    have u_pos : 0 < max unit 1 := Nat.lt_of_lt_of_le Nat.one_pos (Nat.le_max_right _ _)
    have ends := (Nat.le_div_iff_mul_le u_pos).mp (Nat.succ_le_of_lt (List.mem_range.mp member))
    have small : index * unit ≤ index * max unit 1 :=
      Nat.mul_le_mul_left index (Nat.le_max_left _ _)
    rw [Nat.succ_mul] at ends
    exact Word.product_eq_ok (by omega)
  unfold createInPlace create
  rw [counted]
  simp only [Fault.ok_bind, Fault.mapM_eq_ok begins]
  refine bind_congr fun _ => bind_congr fun _ => ?_
  simp [Function.comp_def]

end AssignmentList

namespace Graph

variable {graph : Graph} {batch expanded : Nat}

/-! ## The modules -/

/-- A module with its account and an empty queue. -/
def buildModuleInPlace (expanded : Nat) (spec : ModuleSpec) (resolved : ResolvedModule) :
    Except Fault Module := do
  let assignments ← AssignmentList.createInPlace expanded resolved.assignmentSize
    resolved.chunkSize resolved.inputs.length spec.startThreshold
  return {
    name := spec.name
    assignmentSize := resolved.assignmentSize
    chunkSize := resolved.chunkSize
    inputSize := spec.inputSize
    threads := resolved.threads
    inputs := resolved.inputs
    outputs := resolved.outputs
    assignments
    queue := .create assignments.size }

/-- The modules of a plan, each with the sizes that were resolved for it. -/
def buildModulesInPlace (expanded : Nat) (specs : List ModuleSpec)
    (resolved : List ResolvedModule) : Except Fault (List Module) :=
  (specs.zip resolved).mapM fun pair => buildModuleInPlace expanded pair.1 pair.2

/-- The output sink. -/
def buildSinkInPlace (expanded : Nat) (settings : GraphSettings) (last : Nat) :
    Except Fault Module := do
  let grain := settings.minSlotSize
  let assignments ← AssignmentList.createInPlace expanded grain grain 1 settings.outputThreshold
  return {
    name := "output"
    assignmentSize := grain
    chunkSize := grain
    inputSize := .chunk
    threads := 0
    inputs := [last]
    outputs := []
    assignments
    queue := .create assignments.size }

theorem buildModulesInPlace_eq {specs : List ModuleSpec} {resolved : List ResolvedModule}
    (word : expanded < Word.limit 32) :
    buildModulesInPlace expanded specs resolved = buildModules expanded specs resolved := by
  have module_eq (spec : ModuleSpec) (sizes : ResolvedModule) :
      buildModuleInPlace expanded spec sizes = buildModule expanded spec sizes := by
    unfold buildModuleInPlace buildModule
    rw [AssignmentList.createInPlace_eq word]
  unfold buildModulesInPlace
  induction specs generalizing resolved with
  | nil => rfl
  | cons spec specs ih =>
      cases resolved with
      | nil => rfl
      | cons sizes rest =>
          rw [List.zip_cons_cons, List.mapM_cons, ih, module_eq]
          rfl

theorem buildSinkInPlace_eq {settings : GraphSettings} {last : Nat}
    (word : expanded < Word.limit 32) :
    buildSinkInPlace expanded settings last = buildSink expanded settings last := by
  unfold buildSinkInPlace buildSink
  simp only [AssignmentList.createInPlace_eq word]

/-! ## The graph -/

/-- Puts the sink behind the last module, if there is one. -/
def attachSink (modules : List ResolvedModule) (last sink : Nat) :
    Except Fault (List ResolvedModule) :=
  if last < modules.length then .ok (withSink modules last sink)
  else .error (.indexOutOfBounds modules.length last)

/-- What building makes of a graph. -/
def layOut (graph : Graph) (batch : Nat) : Except Fault (Plan × Dispatch) := do
  graph.expect .unbuilt "build"
  let compiled ← Plan.compileInPlace graph.name graph.settings graph.wiring batch
  let sink := graph.wiring.size
  let last := graph.wiring.last.getD sink
  let resolved ← attachSink compiled.modules last sink
  let modules ← buildModulesInPlace compiled.expandedSize graph.wiring.modules resolved
  let output ← buildSinkInPlace compiled.expandedSize graph.settings last
  return ({ compiled with modules := resolved }, .create (modules ++ [output]).toArray sink)

/-- Building as it is carried out on the graph itself, which changes when everything has been
made. -/
def buildInPlace (graph : Graph) (batch : Nat) : Except Fault Unit × Graph :=
  match graph.layOut batch with
  | .error fault => (.error fault, graph)
  | .ok (plan, dispatch) =>
    (.ok (), { graph with plan := some plan, dispatch := some dispatch, state := .built })

/-- The sizes of a graph and of a batch are words. -/
structure Worded (graph : Graph) (batch : Nat) : Prop where
  batch : batch < Word.limit 32
  grain : graph.settings.minSlotSize < Word.limit 32
  sizes : ∀ size ∈ Plan.declaredSizes graph.wiring, size < Word.limit 32

/-- The sink is attached to a compiled wiring, whose last module is one of its own. -/
theorem attachSink_eq {plan : Plan} (ordered : graph.wiring.Ordered)
    (planned : Plan.compile graph.name graph.settings graph.wiring batch = .ok plan) (sink : Nat) :
    attachSink plan.modules (graph.wiring.last.getD graph.wiring.size) sink =
      .ok (withSink plan.modules (graph.wiring.last.getD graph.wiring.size) sink) := by
  obtain ⟨⟨-, -, _, last, shaped⟩, _, -, -, -, rfl⟩ :=
    (Plan.compile_eq_ok_iff ordered.valid ordered.acyclic).mp planned
  have known := ordered.valid.last_lt last shaped.last_eq
  rw [attachSink, if_pos]
  rwa [shaped.last_eq, Option.getD_some, List.length_mapIdx]

theorem layOut_eq (ordered : graph.wiring.Ordered) (worded : graph.Worded batch) :
    (graph.layOut batch).map (fun made => { graph with
      plan := some made.1, dispatch := some made.2, state := .built }) = graph.build batch := by
  unfold layOut build
  rw [Plan.compileInPlace_eq ordered.valid worded.batch worded.grain worded.sizes]
  cases stage : graph.expect .unbuilt "build" with
  | error fault => rfl
  | ok =>
      cases planned : Plan.compile graph.name graph.settings graph.wiring batch with
      | error fault => rfl
      | ok plan =>
          have word : plan.expandedSize < Word.limit 32 := by
            obtain ⟨-, expanded, -, expanded_lt, -, rfl⟩ :=
              (Plan.compile_eq_ok_iff ordered.valid ordered.acyclic).mp planned
            exact expanded_lt
          simp only [Fault.ok_bind, attachSink_eq ordered planned, buildModulesInPlace_eq word,
            buildSinkInPlace_eq word]
          cases buildModules plan.expandedSize graph.wiring.modules _ with
          | error fault => rfl
          | ok modules =>
              cases buildSink plan.expandedSize graph.settings _ <;> rfl

/-- **Building in place is building**, if the sizes are words: no number leaves its word, no
remainder is taken by zero, and no row is missing. -/
theorem buildInPlace_eq (ordered : graph.wiring.Ordered) (worded : graph.Worded batch) :
    graph.buildInPlace batch =
      ((graph.build batch).map fun _ => (), (graph.attempt (.build batch)).2) := by
  rw [attempt, ← layOut_eq ordered worded, buildInPlace]
  cases graph.layOut batch <;> rfl

end Graph

end Mixnet
