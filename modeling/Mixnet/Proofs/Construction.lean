import Mixnet.Proofs.Compiling

/-!
# What building a graph comes to

Building compiles the wiring and then makes an account for every module and for the sink.  A rule
that does not hold ends it with the fault of that rule.  There is one more way for it to end: the
weight of a full assignment is a product, of the slots of an assignment and the number of inputs,
and no rule keeps this product in a word.

## Main definitions

* `AssignmentList.fullWeight`: the weight of a full assignment, as a number
* `Graph.Affords`: what the account of a module takes
* `Graph.Unbuildable`: why building is refused
* `Graph.Constructs`: what building comes to

## Main statements

* `Graph.build_eq_error_iff`: building is refused for these reasons, and for no other
* `Graph.build_exact`: what building comes to, after any calls on a new graph

## Design notes

The accounts are made in the order of the modules, so an overflow shows only if every account before
it could be made.  The sink comes last and never overflows: the grain of the output divides the
expanded batch, which is a word.  That no other step of building leaves its word, divides by zero or
looks up what is not there is the equation with building in place, a part of the law.
-/

namespace Mixnet

open Mixnet.Text

/-- A fault that is the violation of one of some invariants. -/
def Fault.Names (fault : Fault) (invariants : List Invariant) : Prop :=
  ∃ invariant ∈ invariants, ∃ reason context, fault = .violated invariant reason context

/-! ## Accounts -/

namespace AssignmentList

variable {expanded unit chunkSize inputs : Nat} {threshold : Binary32} {list : AssignmentList}
  {fault : Fault}

/-- The fault of a start threshold that is no fraction of a whole. -/
def outOfRange : Fault :=
  .violated .thresholdRange "start threshold must lie in [0, 1]" (some "AssignmentList::new")

/-- The weight of a full assignment, as a number: one share from each input, of which as many are
counted as the low bits of their number say. -/
def fullWeight (unit inputs : Nat) : Nat := unit * Word.narrow 32 (max inputs 1)

/-- Why an account is refused: for its threshold, and otherwise for the weight of a full
assignment. -/
inductive Denied (unit inputs : Nat) (threshold : Binary32) : Fault → Prop
  /-- The threshold is no fraction of a whole. -/
  | threshold (improper : threshold.isFraction = false) : Denied unit inputs threshold outOfRange
  /-- The weight is no word. -/
  | weight (fraction : threshold.isFraction = true)
      (overflows : Word.limit 32 ≤ fullWeight unit inputs) :
      Denied unit inputs threshold .productOverflow

theorem create_eq_error :
    create expanded unit chunkSize inputs threshold = .error fault ↔
      Denied unit inputs threshold fault := by
  have opened : fullWeight unit inputs = unit * Word.narrow 32 (max inputs 1) := rfl
  unfold create Word.product
  rw [Invariant.require_bind_eq_error, ← opened]
  constructor
  · rintro (⟨improper, rfl⟩ | ⟨fraction, refused⟩)
    · exact .threshold improper
    · rcases Fault.bind_eq_error.mp refused with multiplied | ⟨_, -, made⟩
      · split at multiplied
        case isTrue => cases multiplied
        case isFalse overflows =>
          injection multiplied with multiplied
          exact multiplied ▸ .weight fraction (Nat.le_of_not_lt overflows)
      · cases made
  · rintro (improper | ⟨fraction, overflows⟩)
    · exact Or.inl ⟨improper, rfl⟩
    · refine Or.inr ⟨fraction, ?_⟩
      rw [if_neg (Nat.not_lt_of_le overflows)]
      rfl

/-- The account that is made takes the weight of a full assignment as it is. -/
theorem maxCount_eq (made : create expanded unit chunkSize inputs threshold = .ok list) :
    list.maxCount = fullWeight unit inputs := by
  unfold create Word.product at made
  obtain ⟨-, made⟩ := Invariant.require_bind_eq_ok.mp made
  obtain ⟨maxCount, multiplied, made⟩ := Fault.bind_eq_ok.mp made
  injection made with made
  split at multiplied
  case isFalse => cases multiplied
  case isTrue =>
    injection multiplied with multiplied
    rw [← made, fullWeight, ← multiplied]

/-- As long as a word can count the inputs, the weight of a full assignment is the exact product. -/
theorem fullWeight_eq_iff (positive : 0 < unit) :
    fullWeight unit inputs = unit * max inputs 1 ↔ max inputs 1 < Word.limit 32 := by
  rw [fullWeight, Nat.mul_right_inj positive.ne', Word.narrow]
  exact Nat.mod_eq_iff_lt (by decide)

end AssignmentList

namespace Graph

variable {graph built : Graph} {batch expanded id : Nat} {spec : ModuleSpec} {plan : Plan}
  {fault : Fault}

/-! ## The accounts of a plan -/

/-- A module is refused for its account, and for nothing else. -/
theorem buildModule_eq_error {sizes : ResolvedModule} :
    buildModule expanded spec sizes = .error fault ↔
      AssignmentList.create expanded sizes.assignmentSize sizes.chunkSize sizes.inputs.length
        spec.startThreshold = .error fault := by
  unfold buildModule
  rw [Fault.bind_eq_error]
  simp [pure, Except.pure]

/-- Modules are refused for the first of them that is. -/
theorem buildModules_eq_error {specs : List ModuleSpec} {resolved : List ResolvedModule}
    (same : resolved.length = specs.length) :
    buildModules expanded specs resolved = .error fault ↔
      ∃ (id : Nat) (spec : ModuleSpec) (sizes : ResolvedModule),
        specs[id]? = some spec ∧ resolved[id]? = some sizes ∧
          buildModule expanded spec sizes = .error fault ∧
          ∀ before < id, ∀ other otherSizes, specs[before]? = some other →
            resolved[before]? = some otherSizes →
              ∀ refusal, buildModule expanded other otherSizes ≠ .error refusal := by
  induction specs generalizing resolved with
  | nil =>
      rw [List.length_nil, List.length_eq_zero_iff] at same
      subst same
      simp [buildModules]
  | cons spec specs ih =>
      obtain ⟨sizes, rest, rfl⟩ := List.exists_cons_of_length_eq_add_one same
      rw [buildModules, Fault.bind_eq_error]
      simp only [Fault.bind_eq_error, ih (Nat.succ.inj same), pure, Except.pure, reduceCtorEq,
        and_false, exists_false, or_false]
      constructor
      · rintro (head | ⟨module, head, id, other, otherSizes, found, resolves, refused, earlier⟩)
        · exact ⟨0, spec, sizes, rfl, rfl, head, by simp⟩
        · refine ⟨id + 1, other, otherSizes, found, resolves, refused, ?_⟩
          rintro (_ | before) below first firstSizes first_found first_resolves
          · injection first_found with first_found
            injection first_resolves with first_resolves
            subst first_found first_resolves
            simp [head]
          · exact earlier before (Nat.lt_of_succ_lt_succ below) first firstSizes first_found
              first_resolves
      · rintro ⟨_ | id, other, otherSizes, found, resolves, refused, earlier⟩
        · injection found with found
          injection resolves with resolves
          subst found resolves
          exact Or.inl refused
        · refine Or.inr ?_
          cases head : buildModule expanded spec sizes with
          | error refusal =>
              exact absurd head (earlier 0 (Nat.succ_pos id) spec sizes rfl rfl refusal)
          | ok module =>
              exact ⟨module, rfl, id, other, otherSizes, found, resolves, refused,
                fun before below => earlier (before + 1) (Nat.succ_lt_succ below)⟩

/-- The weight of a full assignment of the module at position `id`, as a number. -/
def weightAt (graph : Graph) (expanded id : Nat) (spec : ModuleSpec) : Nat :=
  AssignmentList.fullWeight (spec.assignmentIn expanded) (graph.wiring.inputsOf id).length

/-- What the account of the module at position `id` takes. -/
structure Affords (graph : Graph) (expanded id : Nat) (spec : ModuleSpec) : Prop where
  fraction : spec.startThreshold.isFraction = true
  word : graph.weightAt expanded id spec < Word.limit 32

/-- Why the module at position `id` has no account. -/
def Denies (graph : Graph) (expanded id : Nat) (spec : ModuleSpec) : Fault → Prop :=
  AssignmentList.Denied (spec.assignmentIn expanded) (graph.wiring.inputsOf id).length
    spec.startThreshold

theorem affords_iff :
    graph.Affords expanded id spec ↔ ∀ fault, ¬ graph.Denies expanded id spec fault := by
  constructor
  · rintro ⟨fraction, word⟩ fault (improper | ⟨-, overflows⟩)
    · rw [fraction] at improper
      cases improper
    · exact Nat.not_lt_of_le overflows word
  · intro never
    have fraction : spec.startThreshold.isFraction = true := by
      rw [← Bool.not_eq_false]
      exact fun improper => never _ (.threshold improper)
    exact ⟨fraction, Nat.lt_of_not_le fun overflows => never _ (.weight fraction overflows)⟩

/-- Every module in front of position `id` has its account. -/
def AffordedBelow (graph : Graph) (expanded id : Nat) : Prop :=
  ∀ before < id, ∀ other, graph.wiring.modules[before]? = some other →
    graph.Affords expanded before other

/-- The sizes of the modules in a batch of `expanded` slots, with the sink behind the last one. -/
def sizesIn (graph : Graph) (expanded : Nat) : List ResolvedModule :=
  withSink (graph.wiring.modules.mapIdx (Plan.resolution graph.settings graph.wiring expanded))
    (graph.wiring.last.getD graph.wiring.size) graph.wiring.size

@[simp]
theorem length_sizesIn : (graph.sizesIn expanded).length = graph.wiring.modules.length := by
  simp [sizesIn, withSink]

/-- The sink changes none of the sizes that an account is made from. -/
theorem getElem?_sizesIn (found : graph.wiring.modules[id]? = some spec) :
    ∃ sizes, (graph.sizesIn expanded)[id]? = some sizes ∧
      sizes.assignmentSize = spec.assignmentIn expanded ∧
      sizes.inputs = graph.wiring.inputsOf id := by
  rw [sizesIn, withSink, List.getElem?_modify, List.getElem?_mapIdx, found]
  refine ⟨_, rfl, ?_⟩
  split <;> exact ⟨rfl, rfl⟩

/-- **The modules of a plan are refused for the first that has no account.** -/
theorem buildModules_sizesIn_eq_error :
    buildModules expanded graph.wiring.modules (graph.sizesIn expanded) = .error fault ↔
      ∃ (id : Nat) (spec : ModuleSpec), graph.wiring.modules[id]? = some spec ∧
        graph.AffordedBelow expanded id ∧ graph.Denies expanded id spec fault := by
  have refused_iff {id : Nat} {spec : ModuleSpec} {sizes : ResolvedModule} (refusal : Fault)
      (found : graph.wiring.modules[id]? = some spec)
      (resolves : (graph.sizesIn expanded)[id]? = some sizes) :
      buildModule expanded spec sizes = .error refusal ↔
        graph.Denies expanded id spec refusal := by
    obtain ⟨other, other_resolves, unit_eq, inputs_eq⟩ := getElem?_sizesIn found
    obtain rfl : other = sizes := Option.some.inj (other_resolves.symm.trans resolves)
    rw [buildModule_eq_error, AssignmentList.create_eq_error, unit_eq, inputs_eq, Denies]
  rw [buildModules_eq_error length_sizesIn]
  constructor
  · rintro ⟨id, spec, sizes, found, resolves, refused, earlier⟩
    refine ⟨id, spec, found, ?_, (refused_iff fault found resolves).mp refused⟩
    intro before below other other_found
    obtain ⟨otherSizes, other_resolves, -⟩ := getElem?_sizesIn other_found
    rw [affords_iff]
    intro refusal
    rw [← refused_iff refusal other_found other_resolves]
    exact earlier before below other otherSizes other_found other_resolves refusal
  · rintro ⟨id, spec, found, below, denied⟩
    obtain ⟨sizes, resolves, -⟩ := getElem?_sizesIn found
    refine ⟨id, spec, sizes, found, resolves, (refused_iff fault found resolves).mpr denied, ?_⟩
    intro before earlier other otherSizes other_found other_resolves refusal
    rw [Ne, refused_iff refusal other_found other_resolves]
    exact affords_iff.mp (below before earlier other other_found) refusal

/-- The sink is refused for its threshold only, if its grain is a word. -/
theorem buildSink_eq_error {settings : GraphSettings} {last : Nat}
    (word : settings.minSlotSize < Word.limit 32) :
    buildSink expanded settings last = .error fault ↔
      settings.outputThreshold.isFraction = false ∧ fault = AssignmentList.outOfRange := by
  have fits : AssignmentList.fullWeight settings.minSlotSize 1 < Word.limit 32 := by
    rwa [AssignmentList.fullWeight, max_self, Word.narrow_of_lt (by decide), Nat.mul_one]
  unfold buildSink
  rw [Fault.bind_eq_error, AssignmentList.create_eq_error]
  simp only [pure, Except.pure, reduceCtorEq, and_false, exists_false, or_false]
  constructor
  · rintro (improper | ⟨-, overflows⟩)
    · exact ⟨improper, rfl⟩
    · exact absurd fits (Nat.not_lt_of_le overflows)
  · rintro ⟨improper, rfl⟩
    exact .threshold improper

/-! ## Why building is refused -/

/-- The reasons to refuse building a graph, each with its fault. -/
inductive Unbuildable (graph : Graph) (batch : Nat) : Fault → Prop
  /-- The graph has been built before. -/
  | stage (other : graph.state ≠ .unbuilt) :
      Unbuildable graph batch (.violated .graphLifecycle "graph operation out of lifecycle order"
        (some (graph.name ++ ": " ++ "build" ++ " while " ++ describe graph.state)))
  /-- The wiring has no plan. -/
  | unplanned {fault : Fault} (stage : graph.state = .unbuilt)
      (refused : Plan.compile graph.name graph.settings graph.wiring batch = .error fault) :
      Unbuildable graph batch fault
  /-- A module has no account. -/
  | denied {plan : Plan} {id : Nat} {spec : ModuleSpec} {fault : Fault}
      (stage : graph.state = .unbuilt)
      (planned : Plan.compile graph.name graph.settings graph.wiring batch = .ok plan)
      (found : graph.wiring.modules[id]? = some spec)
      (below : graph.AffordedBelow plan.expandedSize id)
      (denied : graph.Denies plan.expandedSize id spec fault) : Unbuildable graph batch fault
  /-- The threshold of the output is no fraction of a whole. -/
  | output {plan : Plan} (stage : graph.state = .unbuilt)
      (planned : Plan.compile graph.name graph.settings graph.wiring batch = .ok plan)
      (below : graph.AffordedBelow plan.expandedSize graph.wiring.size)
      (improper : graph.settings.outputThreshold.isFraction = false) :
      Unbuildable graph batch AssignmentList.outOfRange

/-- What a compiled wiring says of its sizes. -/
theorem of_compile (ordered : graph.wiring.Ordered)
    (planned : Plan.compile graph.name graph.settings graph.wiring batch = .ok plan) :
    0 < plan.expandedSize ∧ graph.settings.minSlotSize < Word.limit 32 ∧
      withSink plan.modules (graph.wiring.last.getD graph.wiring.size) graph.wiring.size =
        graph.sizesIn plan.expandedSize := by
  obtain ⟨⟨batch_pos, -, -⟩, expanded, ⟨⟨holds, grain_dvd, -⟩, -⟩, expanded_lt, -, rfl⟩ :=
    (Plan.compile_eq_ok_iff ordered.valid ordered.acyclic).mp planned
  have expanded_pos := Nat.lt_of_lt_of_le batch_pos holds
  have grain_le := Nat.le_of_dvd expanded_pos grain_dvd
  refine ⟨expanded_pos, ?_, rfl⟩
  calc graph.settings.minSlotSize ≤ max graph.settings.minSlotSize 1 := Nat.le_max_left _ _
    _ ≤ expanded := grain_le
    _ < Word.limit 32 := expanded_lt

/-- All modules of a wiring have their accounts exactly if none of them is denied its own. -/
theorem affordedBelow_size :
    graph.AffordedBelow expanded graph.wiring.size ↔
      ∀ (id : Nat) spec, graph.wiring.modules[id]? = some spec →
        graph.Affords expanded id spec := by
  constructor
  · intro afforded id spec found
    exact afforded id (List.getElem?_eq_some_iff.mp found).1 spec found
  · exact fun afforded before _ => afforded before

/-- A module without an account is behind one that is the first. -/
theorem exists_denies_or_affordedBelow (graph : Graph) (expanded length : Nat) :
    graph.AffordedBelow expanded length ∨ ∃ id spec fault, graph.wiring.modules[id]? = some spec ∧
      graph.AffordedBelow expanded id ∧ graph.Denies expanded id spec fault := by
  induction length with
  | zero => exact Or.inl fun before below => absurd below (Nat.not_lt_zero before)
  | succ length ih =>
      rcases ih with afforded | first
      · by_cases here : ∃ spec fault, graph.wiring.modules[length]? = some spec ∧
          graph.Denies expanded length spec fault
        · obtain ⟨spec, fault, found, denied⟩ := here
          exact Or.inr ⟨length, spec, fault, found, afforded, denied⟩
        · refine Or.inl fun before below other found => ?_
          rcases Nat.lt_succ_iff_lt_or_eq.mp below with earlier | rfl
          · exact afforded before earlier other found
          · exact affords_iff.mpr fun fault denied => here ⟨other, fault, found, denied⟩
      · exact Or.inr first

/-- The modules of a plan are placed exactly if all of them have their accounts. -/
theorem exists_placed_iff :
    (∃ modules, buildModules expanded graph.wiring.modules (graph.sizesIn expanded) = .ok modules) ↔
      graph.AffordedBelow expanded graph.wiring.size := by
  constructor
  · rintro ⟨modules, placed⟩
    rcases exists_denies_or_affordedBelow graph expanded graph.wiring.size with
      afforded | ⟨id, spec, fault, found, below, denied⟩
    · exact afforded
    · rw [buildModules_sizesIn_eq_error.mpr ⟨id, spec, found, below, denied⟩] at placed
      cases placed
  · intro afforded
    cases placed : buildModules expanded graph.wiring.modules (graph.sizesIn expanded) with
    | ok modules => exact ⟨modules, rfl⟩
    | error fault =>
        obtain ⟨id, spec, found, -, denied⟩ := buildModules_sizesIn_eq_error.mp placed
        exact absurd denied (affords_iff.mp (affordedBelow_size.mp afforded id spec found) fault)

/-- **Building is refused for one of the reasons, and only then.** -/
theorem build_eq_error_iff (ordered : graph.wiring.Ordered) :
    graph.build batch = .error fault ↔ graph.Unbuildable batch fault := by
  unfold build expect
  rw [Invariant.require_bind_eq_error, decide_eq_true_eq, decide_eq_false_iff_not]
  simp only [Fault.bind_eq_error, pure, Except.pure, reduceCtorEq, and_false, exists_false,
    or_false]
  constructor
  · rintro (⟨other, rfl⟩ | ⟨stage, unplanned | ⟨plan, planned, placing⟩⟩)
    · exact .stage other
    · exact .unplanned stage unplanned
    · obtain ⟨-, grain_word, sizes_eq⟩ := of_compile ordered planned
      rw [sizes_eq, buildModules_sizesIn_eq_error, buildSink_eq_error grain_word] at placing
      rcases placing with ⟨id, spec, found, below, denied⟩ | ⟨modules, placed, improper, rfl⟩
      · exact .denied stage planned found below denied
      · exact .output stage planned (exists_placed_iff.mp ⟨modules, placed⟩) improper
  · rintro (other | ⟨stage, unplanned⟩ | ⟨stage, planned, found, below, denied⟩ |
      ⟨stage, planned, below, improper⟩)
    · exact Or.inl ⟨other, rfl⟩
    · exact Or.inr ⟨stage, Or.inl unplanned⟩
    · obtain ⟨-, -, sizes_eq⟩ := of_compile ordered planned
      refine Or.inr ⟨stage, Or.inr ⟨_, planned, ?_⟩⟩
      rw [sizes_eq]
      exact Or.inl (buildModules_sizesIn_eq_error.mpr ⟨_, _, found, below, denied⟩)
    · obtain ⟨-, grain_word, sizes_eq⟩ := of_compile ordered planned
      refine Or.inr ⟨stage, Or.inr ⟨_, planned, ?_⟩⟩
      obtain ⟨modules, placed⟩ := exists_placed_iff.mpr below
      rw [sizes_eq, buildSink_eq_error grain_word]
      exact Or.inr ⟨modules, placed, improper, rfl⟩

/-! ## The faults that are named -/

/-- The invariants that building can find violated. -/
def buildInvariants : List Invariant :=
  [.graphLifecycle, .graphShape, .graphReachable, .threadBounds, .chunkDividesAssignment,
    .thresholdRange]

/-- The shape of a wiring is refused for its shape, or for a module that nothing leads to. -/
theorem checkShape_names {name : String} {wiring : Wiring}
    (refused : Plan.checkShape name wiring batch = .error fault) :
    fault.Names buildInvariants := by
  unfold Plan.checkShape at refused
  have shape {reason : String} {context : Option String}
      (raised : .violated .graphShape reason context = fault) : fault.Names buildInvariants :=
    ⟨_, by simp [buildInvariants], reason, context, raised.symm⟩
  rcases Invariant.require_bind_eq_error.mp refused with ⟨-, empty⟩ | ⟨-, refused⟩
  · exact shape empty
  rcases Invariant.require_bind_eq_error.mp refused with ⟨-, bare⟩ | ⟨-, refused⟩
  · exact shape bare
  split at refused
  case h_2 =>
    injection refused with refused
    exact shape refused
  case h_1 =>
    rcases Invariant.require_bind_eq_error.mp refused with ⟨-, fed⟩ | ⟨-, refused⟩
    · exact shape fed
    rcases Invariant.require_bind_eq_error.mp refused with ⟨-, read⟩ | ⟨-, refused⟩
    · exact shape read
    rcases Invariant.require_bind_eq_error.mp refused with ⟨-, apart⟩ | ⟨-, refused⟩
    · exact ⟨.graphReachable, by simp [buildInvariants], _, _, apart.symm⟩
    rcases Invariant.require_bind_eq_error.mp refused with ⟨-, cyclic⟩ | ⟨-, ordered⟩
    · exact shape cyclic
    · cases ordered

/-- A batch is refused for the expansion that does not fit. -/
theorem expandBatchSize_refused {sizes : List Nat} {minSlot : Nat}
    (refused : expandBatchSize batch sizes minSlot = .error fault) :
    fault = expandBatchSize.overflow batch minSlot := by
  unfold expandBatchSize at refused
  split at refused
  · split at refused
    · cases refused
    · injection refused with refused
      exact refused.symm
  · injection refused with refused
    exact refused.symm

/-- A wiring without a plan violates an invariant on its shape, on the batch or on a module. -/
theorem compile_names {name : String} {settings : GraphSettings} {wiring : Wiring}
    (refused : Plan.compile name settings wiring batch = .error fault) :
    fault.Names buildInvariants := by
  unfold Plan.compile at refused
  rcases Fault.bind_eq_error.mp refused with shape | ⟨_, -, refused⟩
  · exact checkShape_names shape
  rcases Fault.bind_eq_error.mp refused with expansion | ⟨_, -, refused⟩
  · rw [expandBatchSize_refused expansion]
    exact ⟨.graphShape, by simp [buildInvariants], _, _, rfl⟩
  rcases Fault.bind_eq_error.mp refused with sizes | ⟨_, -, planned⟩
  · obtain ⟨reason, context, rfl | rfl⟩ := Plan.resolveFrom_refused sizes
    · exact ⟨_, by simp [buildInvariants], reason, context, rfl⟩
    · exact ⟨_, by simp [buildInvariants], reason, context, rfl⟩
  · cases planned

/-- **What building is refused for is an invariant, or the weight of a module.** -/
theorem Unbuildable.names_or_overflow (refusal : graph.Unbuildable batch fault) :
    fault.Names buildInvariants ∨ fault = .productOverflow := by
  cases refusal with
  | stage => exact Or.inl ⟨.graphLifecycle, by simp [buildInvariants], _, _, rfl⟩
  | unplanned _ refused => exact Or.inl (compile_names refused)
  | denied _ _ _ _ denied =>
      cases denied with
      | threshold => exact Or.inl ⟨.thresholdRange, by simp [buildInvariants], _, _, rfl⟩
      | weight => exact Or.inr rfl
  | output => exact Or.inl ⟨.thresholdRange, by simp [buildInvariants], _, _, rfl⟩

/-! ## The law of building -/

/-- A weight overflows: the graph can be built as far as its plan and its thresholds go, up to a
module where the weight of a full assignment is no word. -/
def Overflows (graph : Graph) (batch : Nat) : Prop :=
  graph.state = .unbuilt ∧ ∃ plan,
    Plan.compile graph.name graph.settings graph.wiring batch = .ok plan ∧
      ∃ (id : Nat) (spec : ModuleSpec), graph.wiring.modules[id]? = some spec ∧
        graph.AffordedBelow plan.expandedSize id ∧ spec.startThreshold.isFraction = true ∧
          Word.limit 32 ≤ graph.weightAt plan.expandedSize id spec

/-- **A weight that overflows is the only reason for a fault that names no invariant.** -/
theorem unbuildable_overflow_iff :
    graph.Unbuildable batch .productOverflow ↔ graph.Overflows batch := by
  constructor
  · intro refusal
    have unnamed : ¬ Fault.productOverflow.Names buildInvariants := by
      rintro ⟨_, -, _, _, impossible⟩
      cases impossible
    generalize overflow : Fault.productOverflow = fault at refusal unnamed
    cases refusal with
    | stage => cases overflow
    | unplanned _ refused => exact absurd (compile_names refused) unnamed
    | @denied plan id spec _ stage planned found below denied =>
        cases denied with
        | threshold => cases overflow
        | weight fraction overflows =>
            exact ⟨stage, plan, planned, id, spec, found, below, fraction, overflows⟩
    | output => cases overflow
  · rintro ⟨stage, plan, planned, id, spec, found, below, fraction, overflows⟩
    exact .denied stage planned found below (.weight fraction overflows)

/-- A graph that is ready to be built: it has a plan, and every account that the plan asks for. -/
def Buildable (graph : Graph) (batch : Nat) : Prop :=
  graph.state = .unbuilt ∧ ∃ plan,
    Plan.compile graph.name graph.settings graph.wiring batch = .ok plan ∧
      (∀ (id : Nat) spec, graph.wiring.modules[id]? = some spec →
        graph.Affords plan.expandedSize id spec) ∧
      graph.settings.outputThreshold.isFraction = true

theorem exists_build_ok_iff (ordered : graph.wiring.Ordered) :
    (∃ built, graph.build batch = .ok built) ↔ graph.Buildable batch := by
  constructor
  · rintro ⟨built, done⟩
    have never (fault : Fault) : ¬ graph.Unbuildable batch fault := by
      rw [← build_eq_error_iff ordered, done]
      simp
    obtain ⟨stage, plan, modules, _, planned, placed, -, -⟩ := build_ok done
    obtain ⟨-, -, sizes_eq⟩ := of_compile ordered planned
    have afforded := exists_placed_iff.mp ⟨modules, sizes_eq ▸ placed⟩
    refine ⟨stage, plan, planned, affordedBelow_size.mp afforded, ?_⟩
    rw [← Bool.not_eq_false]
    exact fun improper => never _ (.output stage planned afforded improper)
  · rintro ⟨stage, plan, planned, affords, fraction⟩
    cases answer : graph.build batch with
    | ok built => exact ⟨built, rfl⟩
    | error fault =>
        exfalso
        cases (build_eq_error_iff ordered).mp answer with
        | stage other => exact other stage
        | unplanned _ refused =>
            rw [planned] at refused
            cases refused
        | denied _ compiled found _ denied =>
            obtain rfl := Except.ok.inj (planned.symm.trans compiled)
            exact affords_iff.mp (affords _ _ found) _ denied
        | output _ _ _ improper =>
            rw [fraction] at improper
            cases improper

/-- What the account of a built module says of it: a full assignment weighs as much as its slots,
once for each input.  This is the exact product as long as a word can count the inputs. -/
structure Weighed (graph : Graph) (expanded id : Nat) (spec : ModuleSpec) (module : Module) :
    Prop where
  unit_eq : module.assignmentSize = spec.assignmentIn expanded
  inputs_eq : module.inputs = graph.wiring.inputsOf id
  weight_eq : module.assignments.maxCount = graph.weightAt expanded id spec
  exact_iff : module.assignments.maxCount = module.assignmentSize * max module.inputs.length 1 ↔
    module.inputs.length < Word.limit 32

/-- A module is weighed when its account is made. -/
theorem weighed_of_buildModule {sizes : ResolvedModule} {module : Module}
    (unit_eq : sizes.assignmentSize = spec.assignmentIn expanded)
    (inputs_eq : sizes.inputs = graph.wiring.inputsOf id) (expanded_pos : 0 < expanded)
    (builds : buildModule expanded spec sizes = .ok module) :
    Weighed graph expanded id spec module := by
  obtain ⟨assignments, made, builds⟩ := Fault.bind_eq_ok.mp builds
  injection builds with builds
  subst builds
  have weight_eq := AssignmentList.maxCount_eq made
  have unit_pos : 0 < sizes.assignmentSize := by
    rw [unit_eq, ModuleSpec.assignmentIn]
    split <;> omega
  refine ⟨unit_eq, inputs_eq, ?_, ?_⟩
  · rw [weightAt, ← unit_eq, ← inputs_eq]
    exact weight_eq
  · rw [weight_eq, AssignmentList.fullWeight_eq_iff unit_pos, max_lt_iff]
    exact and_iff_left (by decide)

/-- The modules of a built graph are weighed, and the sink weighs what the last module hands on. -/
structure Weighs (graph built : Graph) (plan : Plan) (dispatch : Dispatch) : Prop where
  built_eq : built = { graph with plan := some plan, dispatch := some dispatch, state := .built }
  size_eq : dispatch.modules.size = graph.wiring.size + 1
  modules : ∀ (id : Nat) spec, graph.wiring.modules[id]? = some spec →
    ∃ module, dispatch.modules[id]? = some module ∧
      Weighed graph plan.expandedSize id spec module
  sink : ∃ sink, dispatch.modules[graph.wiring.size]? = some sink ∧
    sink.assignments.maxCount = sink.assignmentSize * max sink.inputs.length 1

theorem build_weighs (ordered : graph.wiring.Ordered) (done : graph.build batch = .ok built) :
    ∃ plan dispatch, graph.Weighs built plan dispatch := by
  obtain ⟨-, compiled, modules, sink, planned, placed, sinks, rfl⟩ := build_ok done
  obtain ⟨expanded_pos, grain_word, sizes_eq⟩ := of_compile ordered planned
  rw [sizes_eq] at placed
  obtain ⟨length_eq, each⟩ := buildModules_getElem? placed length_sizesIn
  refine ⟨_, _, rfl, ?_, ?_, sink, ?_, ?_⟩
  · simp [Dispatch.create, length_eq, Wiring.size]
  · intro id spec found
    obtain ⟨inside, -⟩ := List.getElem?_eq_some_iff.mp found
    obtain ⟨module, module_found⟩ : ∃ module, modules[id]? = some module :=
      ⟨_, List.getElem?_eq_getElem (length_eq ▸ inside)⟩
    obtain ⟨other, sizes, other_found, resolves, builds⟩ := each id module module_found
    obtain rfl : other = spec := Option.some.inj (other_found.symm.trans found)
    obtain ⟨same, same_resolves, unit_eq, inputs_eq⟩ := getElem?_sizesIn found
    obtain rfl : same = sizes := Option.some.inj (same_resolves.symm.trans resolves)
    refine ⟨module, ?_, weighed_of_buildModule unit_eq inputs_eq expanded_pos builds⟩
    simp [Dispatch.create, List.getElem?_append_left (length_eq ▸ inside), module_found]
  · simp [Dispatch.create, ← length_eq, Wiring.size]
  · obtain ⟨assignments, made, sinks⟩ := Fault.bind_eq_ok.mp sinks
    injection sinks with sinks
    rw [← sinks]
    exact AssignmentList.maxCount_eq made

/-- What building a graph comes to: the graph is as it was, or it is built and its modules are
weighed.  It is refused for the reasons listed, which are invariants, unless a weight overflows;
and carried out in place, with every step checked, it meets no other fault. -/
structure Constructs (graph : Graph) (batch : Nat) : Prop where
  in_place : graph.Worded batch → graph.buildInPlace batch =
    ((graph.build batch).map fun _ => (), (graph.attempt (.build batch)).2)
  unchanged : ∀ fault, graph.build batch = .error fault →
    graph.attempt (.build batch) = (false, graph)
  refused : ∀ fault, graph.build batch = .error fault ↔ graph.Unbuildable batch fault
  named : ∀ fault, graph.build batch = .error fault →
    fault.Names buildInvariants ∨ fault = .productOverflow
  overflows : graph.build batch = .error .productOverflow ↔ graph.Overflows batch
  succeeds : (∃ built, graph.build batch = .ok built) ↔ graph.Buildable batch
  weighs : ∀ built, graph.build batch = .ok built →
    ∃ plan dispatch, graph.Weighs built plan dispatch

/-- **What building comes to**, after any calls on a new graph, for any batch. -/
theorem build_exact (name : String) (settings : GraphSettings) (stream : Stream)
    (calls : List Call) (batch : Nat) :
    ((create name settings stream).attempts calls).Constructs batch := by
  have ordered : ((create name settings stream).attempts calls).wiring.Ordered :=
    ordered_attempts .empty calls
  refine ⟨buildInPlace_eq ordered, ?_, fun fault => build_eq_error_iff ordered, ?_, ?_,
    exists_build_ok_iff ordered, fun built done => build_weighs ordered done⟩
  · intro fault refused
    rw [attempt, refused]
    rfl
  · intro fault refused
    exact ((build_eq_error_iff ordered).mp refused).names_or_overflow
  · rw [build_eq_error_iff ordered, unbuildable_overflow_iff]

/-- Three modules that work on whole batches.  The last one is fed by both others. -/
def fanCalls : List Call :=
  [.addModule (.plain "a" .idle), .addModule (.plain "b" .idle), .addModule (.plain "c" .idle),
    .connect 0 1, .connect 0 2, .connect 1 2, .setFirst 0, .setLast 2]

/-- Built for four slots, the last of them takes four from each of the others. -/
theorem build_exact_sample :
    let graph := (create "graph" sample.settings (.blank "nothing")).attempts fanCalls
    (graph.Worded 4 ∧ (graph.buildInPlace 4).1 = .ok ()) ∧ graph.Buildable 4 ∧
      ∃ built plan dispatch, graph.Weighs built plan dispatch ∧
        (built.dispatch.bind (·.modules[2]?)).map (·.assignments.maxCount) = some 8 := by
  intro graph
  have worded : graph.Worded 4 := ⟨by decide, by decide, by decide +kernel⟩
  have law : graph.Constructs 4 :=
    build_exact "graph" sample.settings (.blank "nothing") fanCalls 4
  have weighed : ((graph.build 4).toOption.any fun built => decide
      ((built.dispatch.bind (·.modules[2]?)).map (·.assignments.maxCount) = some 8)) = true := by
    decide +kernel
  obtain ⟨built, answer, weight⟩ := (Option.any_eq_true _ _).mp weighed
  have done := eq_ok_of_toOption answer
  have in_place := law.in_place worded
  rw [done] at in_place
  obtain ⟨plan, dispatch, weighs⟩ := law.weighs built done
  exact ⟨⟨worded, congrArg Prod.fst in_place⟩, law.succeeds.mp ⟨built, done⟩, built, plan, dispatch,
    weighs, of_decide_eq_true weight⟩

/-- **A rule is missing**: a wiring that obeys all of them, and a batch that is expanded to a
word, are refused for a product that is none. -/
theorem build_overflows :
    let graph := (create "graph" sample.settings (.blank "nothing")).attempts fanCalls
    graph.build 2147483648 = .error .productOverflow ∧
      ¬ Fault.productOverflow.Names buildInvariants ∧
      ∃ plan, Plan.compile graph.name graph.settings graph.wiring 2147483648 = .ok plan := by
  refine ⟨rfl, ?_, _, rfl⟩
  rintro ⟨_, -, _, _, impossible⟩
  cases impossible

end Graph

end Mixnet
