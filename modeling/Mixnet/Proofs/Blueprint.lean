import Mixnet.Proofs.Tasks
import Mixnet.Proofs.Wiring

/-!
# What a built graph is made of

Building a graph checks its wiring and its sizes.  This file gathers what an accepted graph is worth
to everything that runs on it later: sizes that divide each other and the batch, edges that both
ends agree on, a rank that rises along them, workers for every module but the sink, and nothing
reported or queued yet.

## Main definitions

* `ModuleSpec.Fits`: the rules on the sizes of a module
* `Module.fresh`: a module before any work
* `Dispatch.Laid`: the modules of a graph as building lays them out
* `Graph.Built`: a graph as building leaves it

## Main statements

* `expandBatchSize_dvd`: the expanded size is a multiple of every size declared
* `Plan.resolve_eq_ok_iff`: a module is resolved exactly if it fits
* `Graph.build_compiled`, `Graph.build_constructed`: what building takes, and makes of every module
* `Graph.build_built`: building a wired graph lays out its modules

## Design notes

The weight of a full assignment is computed from the number of inputs as a word.  A module with more
inputs than a word can count is laid out with too small a maximum, and refuses reports or releases
work too early.  So the number of inputs is the one thing about a wiring that has to be assumed to
fit: building does not check it, and the graphs of `Mixnet.Proofs.Crowding` show what happens
without it.
-/

namespace Mixnet

/-! ## The expanded batch -/

/-- A common multiple is a multiple of where it started and of every size. -/
theorem Expansion.commonMultiple_dvd {start multiple : Nat} {sizes : List Nat}
    (found : commonMultiple start sizes = some multiple) (positive : 0 < start) :
    0 < multiple ∧ start ∣ multiple ∧ ∀ size ∈ sizes, size ≠ 0 → size ∣ multiple := by
  induction sizes generalizing start with
  | nil =>
      injection found with found
      subst found
      exact ⟨positive, Nat.dvd_refl _, by simp⟩
  | cons size rest ih =>
      rw [commonMultiple] at found
      by_cases zero : size = 0
      · rw [if_pos zero] at found
        obtain ⟨multiple_pos, start_dvd, each⟩ := ih found positive
        refine ⟨multiple_pos, start_dvd, ?_⟩
        intro other member nonzero
        rcases List.mem_cons.mp member with rfl | later
        · exact absurd zero nonzero
        · exact each other later nonzero
      · rw [if_neg zero] at found
        dsimp only at found
        split at found
        case isFalse => cases found
        case isTrue =>
          obtain ⟨multiple_pos, lcm_dvd, each⟩ :=
            ih found (Nat.lcm_pos positive (Nat.pos_of_ne_zero zero))
          refine ⟨multiple_pos, (Nat.dvd_lcm_left start size).trans lcm_dvd, ?_⟩
          intro other member nonzero
          rcases List.mem_cons.mp member with rfl | later
          · exact (Nat.dvd_lcm_right start other).trans lcm_dvd
          · exact each other later nonzero

theorem Expansion.le_roundUp {value step : Nat} (positive : 0 < step) :
    value ≤ roundUp value step := by
  have next : value + step - 1 < step * ((value + step - 1) / step + 1) :=
    Nat.lt_mul_div_succ _ positive
  rw [Nat.mul_add, Nat.mul_one, Nat.mul_comm] at next
  rw [roundUp]
  omega

/-- **The expanded size is a multiple of every size declared**, and holds the batch. -/
theorem expandBatchSize_dvd {batch minSlot expanded : Nat} {sizes : List Nat}
    (expands : expandBatchSize batch sizes minSlot = .ok expanded) :
    batch ≤ expanded ∧ expanded < Word.limit 32 ∧ max minSlot 1 ∣ expanded ∧
      ∀ size ∈ sizes, size ≠ 0 → size ∣ expanded := by
  unfold expandBatchSize at expands
  split at expands
  case h_2 => cases expands
  case h_1 rounded found =>
    split at expands
    case isFalse => cases expands
    case isTrue fits =>
      injection expands with expands
      subst expands
      obtain ⟨multiple, common, rfl⟩ := Option.map_eq_some_iff.mp found
      obtain ⟨positive, start_dvd, each⟩ :=
        Expansion.commonMultiple_dvd common (Nat.lt_of_lt_of_le Nat.one_pos (Nat.le_max_right _ _))
      have grid : multiple ∣ Expansion.roundUp batch multiple := Nat.dvd_mul_left _ _
      exact ⟨Expansion.le_roundUp positive, fits, start_dvd.trans grid,
        fun size member nonzero => (each size member nonzero).trans grid⟩

/-! ## The rules on a module -/

namespace ModuleSpec

/-- The slots of an assignment in a batch of `expanded` slots. -/
def assignmentIn (spec : ModuleSpec) (expanded : Nat) : Nat :=
  if spec.assignmentSize = 0 then expanded else spec.assignmentSize

/-- The slots handed on at a time in a batch of `expanded` slots. -/
def chunkIn (spec : ModuleSpec) (expanded : Nat) : Nat :=
  if spec.chunkSize = 0 then spec.assignmentIn expanded else spec.chunkSize

/-- The number of workers under the settings of a graph. -/
def threadsIn (spec : ModuleSpec) (settings : GraphSettings) : Nat :=
  spec.threads.getD settings.defaultThreads

/-- The rules on a module in a batch of `expanded` slots. -/
structure Fits (spec : ModuleSpec) (settings : GraphSettings) (expanded : Nat) : Prop where
  staffed : 1 ≤ spec.threadsIn settings
  threads_le : spec.threadsIn settings ≤ 64
  chunk_ge : settings.minSlotSize ≤ spec.chunkIn expanded
  chunk_dvd : spec.chunkIn expanded ∣ spec.assignmentIn expanded
  custom : ∀ slots, spec.inputSize = .custom slots → 0 < slots ∧ slots ∣ spec.chunkIn expanded

end ModuleSpec

/-! ## Resolved sizes -/

namespace Plan

variable {settings : GraphSettings} {wiring : Wiring} {expanded : Nat}

/-- What resolving makes of a module that fits. -/
def resolution (settings : GraphSettings) (wiring : Wiring) (expanded id : Nat)
    (spec : ModuleSpec) : ResolvedModule where
  assignmentSize := spec.assignmentIn expanded
  chunkSize := spec.chunkIn expanded
  threads := spec.threadsIn settings
  inputs := wiring.inputsOf id
  outputs := wiring.outputsOf id

/-- A module is resolved exactly if it fits. -/
theorem resolve_eq_ok_iff {id : Nat} {spec : ModuleSpec} {resolved : ResolvedModule} :
    resolve settings wiring expanded id spec = .ok resolved ↔
      spec.Fits settings expanded ∧ resolved = resolution settings wiring expanded id spec := by
  unfold resolve
  simp only [Invariant.require_bind_eq_ok, Bool.and_eq_true, decide_eq_true_eq,
    ← Nat.dvd_iff_mod_eq_zero]
  constructor
  · rintro ⟨⟨staffed, threads_le⟩, ⟨chunk_ge, chunk_dvd⟩, made⟩
    split at made
    case h_1 slots mode =>
      obtain ⟨both, made⟩ := Invariant.require_bind_eq_ok.mp made
      rw [Bool.and_eq_true, decide_eq_true_eq, decide_eq_true_eq] at both
      injection made with made
      refine ⟨⟨staffed, threads_le, chunk_ge, chunk_dvd, ?_⟩, made.symm⟩
      intro other same
      obtain rfl : slots = other := by simpa [mode] using same
      exact both
    case h_2 mode =>
      injection made with made
      exact ⟨⟨staffed, threads_le, chunk_ge, chunk_dvd, fun slots same => absurd same (mode slots)⟩,
        made.symm⟩
  · rintro ⟨⟨staffed, threads_le, chunk_ge, chunk_dvd, custom⟩, rfl⟩
    refine ⟨⟨staffed, threads_le⟩, ⟨chunk_ge, chunk_dvd⟩, ?_⟩
    split
    case h_1 slots mode =>
      refine Invariant.require_bind_eq_ok.mpr ⟨?_, rfl⟩
      rw [Bool.and_eq_true, decide_eq_true_eq, decide_eq_true_eq]
      exact custom slots mode
    case h_2 => rfl

/-- The sizes of a module that resolved fit into each other and into the batch. -/
structure Sizes (settings : GraphSettings) (wiring : Wiring) (expanded id : Nat)
    (spec : ModuleSpec) (resolved : ResolvedModule) : Prop where
  staffed : 0 < resolved.threads
  unit_pos : 0 < resolved.assignmentSize
  unit_dvd : resolved.assignmentSize ∣ expanded
  chunk_ge : settings.minSlotSize ≤ resolved.chunkSize
  chunk_dvd : resolved.chunkSize ∣ resolved.assignmentSize
  custom : ∀ slots, spec.inputSize = .custom slots → 0 < slots ∧ slots ∣ resolved.chunkSize
  inputs_eq : resolved.inputs = wiring.inputsOf id
  outputs_eq : resolved.outputs = wiring.outputsOf id

theorem resolve_sizes {id : Nat} {spec : ModuleSpec} {resolved : ResolvedModule}
    (made : resolve settings wiring expanded id spec = .ok resolved) (expanded_pos : 0 < expanded)
    (declared : spec.assignmentSize ≠ 0 → spec.assignmentSize ∣ expanded) :
    Sizes settings wiring expanded id spec resolved := by
  obtain ⟨fits, rfl⟩ := resolve_eq_ok_iff.mp made
  have unit_pos : 0 < spec.assignmentIn expanded := by
    rw [ModuleSpec.assignmentIn]
    split
    · exact expanded_pos
    · omega
  have unit_dvd : spec.assignmentIn expanded ∣ expanded := by
    rw [ModuleSpec.assignmentIn]
    split
    · exact Nat.dvd_refl _
    · exact declared ‹_›
  exact ⟨fits.staffed, unit_pos, unit_dvd, fits.chunk_ge, fits.chunk_dvd, fits.custom, rfl, rfl⟩

/-- Modules are resolved in place. -/
theorem resolveFrom_getElem? {id : Nat} {specs : List ModuleSpec} {list : List ResolvedModule}
    (made : resolveFrom settings wiring expanded id specs = .ok list) :
    list.length = specs.length ∧ ∀ (index : Nat) resolved, list[index]? = some resolved →
      ∃ spec, specs[index]? = some spec ∧
        resolve settings wiring expanded (id + index) spec = .ok resolved := by
  induction specs generalizing id list with
  | nil =>
      injection made with made
      subst made
      exact ⟨rfl, by simp⟩
  | cons spec rest ih =>
      obtain ⟨head, resolved_head, made⟩ := Fault.bind_eq_ok.mp made
      obtain ⟨tail, resolved_tail, made⟩ := Fault.bind_eq_ok.mp made
      injection made with made
      subst made
      obtain ⟨length_eq, each⟩ := ih resolved_tail
      refine ⟨by rw [List.length_cons, List.length_cons, length_eq], ?_⟩
      -- The first module is resolved at `id`, the others from the next position on.
      rintro (_ | index) resolved found
      · injection found with found
        exact ⟨spec, rfl, found ▸ resolved_head⟩
      · obtain ⟨other, other_found, done⟩ := each index resolved found
        refine ⟨other, other_found, ?_⟩
        rwa [Nat.add_right_comm] at done

end Plan

/-! ## Laid out modules -/

/-- A module before any work. -/
def Module.fresh (module : Module) : Module :=
  { module with
    assignments := module.assignments.fresh
    queue := { module.queue with chunks := [], closed := false } }

/-- The modules of a graph as building lays them out: their sizes fit, the ends of every edge agree
on it, a rank rises along the edges, and only the first module is fed from outside. -/
structure Dispatch.Laid (origin : Dispatch) (first expanded : Nat) (rank : Nat → Nat) : Prop where
  untouched : origin = .create origin.modules origin.sink
  size_eq : origin.modules.size = origin.sink + 1
  first_lt : first < origin.sink
  expanded_pos : 0 < expanded
  fits : ∀ (id : Nat) module, origin.modules[id]? = some module → module.Fits expanded
  unworked : ∀ (id : Nat) module, origin.modules[id]? = some module →
    module.fresh = module ∧ module.assignments.Accounts []
  staffed : ∀ (id : Nat) module, origin.modules[id]? = some module →
    (0 < module.threads ↔ id < origin.sink)
  forward : ∀ (id : Nat) module, origin.modules[id]? = some module → ∀ output ∈ module.outputs,
    ∃ next, origin.modules[output]? = some next ∧ id ∈ next.inputs
  backward : ∀ (id : Nat) module, origin.modules[id]? = some module → ∀ input ∈ module.inputs,
    rank input < rank id ∧ input < origin.sink ∧
      ∃ before, origin.modules[input]? = some before ∧ id ∈ before.outputs
  distinct : ∀ (id : Nat) module, origin.modules[id]? = some module → module.inputs.Nodup
  entrance : ∀ (id : Nat) module, origin.modules[id]? = some module →
    (module.inputs = [] ↔ id = first)

/-- The call size of a module fits, whatever it is handed per call. -/
theorem Module.cuts_of_sizes {module : Module} (unit_pos : 0 < module.assignmentSize)
    (chunk_pos : 0 < module.chunkSize) (chunk_dvd : module.chunkSize ∣ module.assignmentSize)
    (custom : ∀ slots, module.inputSize = .custom slots → 0 < slots ∧ slots ∣ module.chunkSize)
    (distinct : module.outputs.Nodup) : module.Cuts := by
  refine ⟨chunk_pos, chunk_dvd, ?_, ?_, distinct⟩
  · unfold Module.callSize
    cases mode : module.inputSize with
    | assignment => exact unit_pos
    | chunk => exact chunk_pos
    | custom slots => exact (custom slots mode).1
  · intro whole
    unfold Module.callSize
    cases mode : module.inputSize with
    | assignment => exact absurd mode whole
    | chunk => exact Nat.dvd_refl _
    | custom slots => exact (custom slots mode).2

/-- A module whose sizes fit, with a new accounting and a queue of that size. -/
theorem Module.fits_of_create (module : Module) {expanded : Nat}
    {threshold : Binary32}
    (made : AssignmentList.create expanded module.assignmentSize module.chunkSize
      module.inputs.length threshold = .ok module.assignments)
    (queue_eq : module.queue = .create module.assignments.size)
    (expanded_lt : expanded < Word.limit 32) (few : module.inputs.length < Word.limit 32)
    (unit_pos : 0 < module.assignmentSize) (unit_dvd : module.assignmentSize ∣ expanded)
    (cuts : module.Cuts) :
    module.Fits expanded ∧ module.fresh = module ∧ module.assignments.Accounts [] := by
  obtain ⟨sized, accounts, fresh_eq, unit_eq, -⟩ :=
    AssignmentList.create_spec unit_pos unit_dvd expanded_lt few made
  refine ⟨⟨cuts, unit_eq, sized, ?_⟩, ?_, accounts⟩
  · rw [queue_eq]
    exact Nat.le_max_left _ _
  · rw [Module.fresh, fresh_eq, queue_eq]
    cases module
    simp_all [ChunkQueue.create]

namespace Graph

theorem buildModules_getElem? {expanded : Nat} {specs : List ModuleSpec}
    {resolved : List ResolvedModule} {modules : List Module}
    (built : buildModules expanded specs resolved = .ok modules)
    (same : resolved.length = specs.length) :
    modules.length = specs.length ∧ ∀ (index : Nat) module, modules[index]? = some module →
      ∃ spec sizes, specs[index]? = some spec ∧ resolved[index]? = some sizes ∧
        buildModule expanded spec sizes = .ok module := by
  induction specs generalizing resolved modules with
  | nil =>
      rw [List.length_nil, List.length_eq_zero_iff] at same
      subst same
      injection built with built
      subst built
      exact ⟨rfl, by simp⟩
  | cons spec specs ih =>
      obtain ⟨sizes, rest, rfl⟩ := List.exists_cons_of_length_eq_add_one same
      obtain ⟨head, built_head, built⟩ := Fault.bind_eq_ok.mp built
      obtain ⟨tail, built_tail, built⟩ := Fault.bind_eq_ok.mp built
      injection built with built
      subst built
      obtain ⟨length_eq, each⟩ := ih built_tail (Nat.succ.inj same)
      refine ⟨by rw [List.length_cons, List.length_cons, length_eq], ?_⟩
      rintro (_ | index) module found
      · injection found with found
        exact ⟨spec, sizes, rfl, rfl, found ▸ built_head⟩
      · exact each index module found

/-- A graph as building leaves it: the modules are laid out, with the inputs that the wiring gives
them, and the sink stands behind the last one. -/
structure Built (built : Graph) (origin : Dispatch) (first last : Nat) (rank : Nat → Nat) :
    Prop where
  dispatch_eq : built.dispatch = some origin
  state_eq : built.state = .built
  first_eq : built.wiring.first = some first
  last_eq : built.wiring.last = some last
  laid : origin.Laid first built.expandedSize rank
  sink_eq : origin.sink = built.wiring.size
  inputs_eq : ∀ (id : Nat) module, origin.modules[id]? = some module → id < origin.sink →
    module.inputs = built.wiring.inputsOf id
  sink_inputs : ∀ module, origin.modules[origin.sink]? = some module → module.inputs = [last]
  sink_unit : ∀ module, origin.modules[origin.sink]? = some module →
    module.assignmentSize = built.settings.minSlotSize

/-- What building makes of one module of the wiring. -/
structure Placed (graph : Graph) (expanded last id : Nat) (module : Module) : Prop where
  fits : module.Fits expanded
  unworked : module.fresh = module ∧ module.assignments.Accounts []
  staffed : 0 < module.threads
  inputs_eq : module.inputs = graph.wiring.inputsOf id
  mem_outputs : ∀ output, output ∈ module.outputs ↔
    output ∈ graph.wiring.outputsOf id ∨ id = last ∧ output = graph.wiring.size

/-- What building of one module leaves of its resolved sizes, with the sink as one more output of
the last module. -/
structure Resolved (graph : Graph) (last id : Nat) (resolved sizes : ResolvedModule) : Prop where
  sizes_eq : sizes = if last = id then
    { resolved with outputs := resolved.outputs ++ [graph.wiring.size] } else resolved
  outputs_eq : resolved.outputs = graph.wiring.outputsOf id

namespace Resolved

variable {graph : Graph} {last id : Nat} {resolved sizes : ResolvedModule}

/-- The sink is an output of the last module, and nothing else is changed. -/
theorem same_sizes (resolving : Resolved graph last id resolved sizes) :
    sizes.assignmentSize = resolved.assignmentSize ∧ sizes.chunkSize = resolved.chunkSize ∧
      sizes.threads = resolved.threads ∧ sizes.inputs = resolved.inputs := by
  rw [resolving.sizes_eq]
  split <;> exact ⟨rfl, rfl, rfl, rfl⟩

theorem mem_outputs (resolving : Resolved graph last id resolved sizes) (output : Nat) :
    output ∈ sizes.outputs ↔
      output ∈ graph.wiring.outputsOf id ∨ id = last ∧ output = graph.wiring.size := by
  rw [resolving.sizes_eq]
  by_cases same : last = id
  · simp [same, resolving.outputs_eq]
  · simp [same, Ne.symm same, resolving.outputs_eq]

theorem nodup_outputs (resolving : Resolved graph last id resolved sizes)
    (valid : graph.wiring.Valid) : sizes.outputs.Nodup := by
  have wired_distinct : resolved.outputs.Nodup :=
    resolving.outputs_eq ▸ valid.nodup_outputsOf id
  rw [resolving.sizes_eq]
  split
  · refine List.nodup_append'.mpr ⟨wired_distinct, List.nodup_singleton _, ?_⟩
    rw [List.disjoint_singleton, resolving.outputs_eq, Wiring.mem_outputsOf]
    -- The sink is no module of the wiring, so no edge ends there.
    intro impossible
    exact Nat.lt_irrefl _ (valid.bounds _ impossible).2
  · exact wired_distinct

end Resolved

/-- What building takes of a wired graph, and what it makes of every module. -/
structure Constructed (graph : Graph) (expanded first last : Nat) (modules : List Module)
    (sink : Module) : Prop where
  valid : graph.wiring.Valid
  grain : 0 < graph.settings.minSlotSize
  grain_dvd : graph.settings.minSlotSize ∣ expanded
  layered : graph.wiring.Layered first last
  expanded_pos : 0 < expanded
  expanded_lt : expanded < Word.limit 32
  length_eq : modules.length = graph.wiring.size
  made : ∀ (id : Nat) module, modules[id]? = some module → ∃ spec resolved sizes,
    Plan.Sizes graph.settings graph.wiring expanded id spec resolved ∧
      Resolved graph last id resolved sizes ∧ buildModule expanded spec sizes = .ok module
  sink_made : buildSink expanded graph.settings last = .ok sink

/-- A module reports to where the edges from it end, and the last one to the sink. -/
theorem Constructed.mem_outputs {graph : Graph} {expanded first last id : Nat}
    {modules : List Module} {sink module : Module}
    (constructed : Constructed graph expanded first last modules sink)
    (found : modules[id]? = some module) (output : Nat) :
    output ∈ module.outputs ↔
      output ∈ graph.wiring.outputsOf id ∨ id = last ∧ output = graph.wiring.size := by
  obtain ⟨spec, resolved, sizes, -, resolving, built⟩ := constructed.made id module found
  obtain ⟨assignments, -, built⟩ := Fault.bind_eq_ok.mp built
  injection built with built
  subst built
  exact resolving.mem_outputs output

/-- The sizes of every module of the wiring fit into each other. -/
theorem Constructed.cuts {graph : Graph} {expanded first last id : Nat} {modules : List Module}
    {sink module : Module} (constructed : Constructed graph expanded first last modules sink)
    (found : modules[id]? = some module) : module.Cuts := by
  obtain ⟨spec, resolved, sizes, fitting, resolving, built⟩ := constructed.made id module found
  obtain ⟨unit_eq, chunk_eq, -, -⟩ := resolving.same_sizes
  obtain ⟨assignments, -, built⟩ := Fault.bind_eq_ok.mp built
  injection built with built
  subst built
  have chunk_pos : 0 < sizes.chunkSize := by
    have grain := constructed.grain
    have := fitting.chunk_ge
    omega
  exact Module.cuts_of_sizes (unit_eq ▸ fitting.unit_pos) chunk_pos
    (by simpa only [chunk_eq, unit_eq] using fitting.chunk_dvd)
    (by simpa only [chunk_eq] using fitting.custom) (resolving.nodup_outputs constructed.valid)

/-- **Every module of the wiring is placed**, with sizes that fit, if a word counts its inputs. -/
theorem Constructed.placed {graph : Graph} {expanded first last id : Nat} {modules : List Module}
    {sink module : Module} (constructed : Constructed graph expanded first last modules sink)
    (few : (graph.wiring.inputsOf id).length < Word.limit 32)
    (found : modules[id]? = some module) : Placed graph expanded last id module := by
  have outputs_mem := constructed.mem_outputs found
  have cuts := constructed.cuts found
  obtain ⟨spec, resolved, sizes, fitting, resolving, built⟩ := constructed.made id module found
  obtain ⟨unit_eq, chunk_eq, threads_eq, inputs_eq⟩ := resolving.same_sizes
  obtain ⟨assignments, made, built⟩ := Fault.bind_eq_ok.mp built
  injection built with built
  subst built
  have few_inputs : sizes.inputs.length < Word.limit 32 := by
    rw [inputs_eq, fitting.inputs_eq]
    exact few
  obtain ⟨fits, fresh_eq, accounts⟩ := Module.fits_of_create
    {
      name := spec.name
      assignmentSize := sizes.assignmentSize
      chunkSize := sizes.chunkSize
      inputSize := spec.inputSize
      threads := sizes.threads
      inputs := sizes.inputs
      outputs := sizes.outputs
      assignments
      queue := .create assignments.size }
    made rfl constructed.expanded_lt few_inputs (unit_eq ▸ fitting.unit_pos)
    (unit_eq ▸ fitting.unit_dvd) cuts
  exact ⟨fits, ⟨fresh_eq, accounts⟩, threads_eq ▸ fitting.staffed,
    inputs_eq.trans fitting.inputs_eq, outputs_mem⟩

/-- What building makes of the sink. -/
structure Sinking (settings : GraphSettings) (expanded last : Nat) (module : Module) : Prop where
  fits : module.Fits expanded
  unworked : module.fresh = module ∧ module.assignments.Accounts []
  unstaffed : module.threads = 0
  inputs_eq : module.inputs = [last]
  outputs_eq : module.outputs = []
  unit_eq : module.assignmentSize = settings.minSlotSize

/-- The sink works grain by grain. -/
theorem cuts_of_sink {settings : GraphSettings} {expanded last : Nat} {sink : Module}
    (grain : 0 < settings.minSlotSize) (built : buildSink expanded settings last = .ok sink) :
    sink.Cuts := by
  obtain ⟨assignments, -, built⟩ := Fault.bind_eq_ok.mp built
  injection built with built
  subst built
  exact Module.cuts_of_sizes grain grain (Nat.dvd_refl _)
    (fun slots impossible => by cases impossible) List.nodup_nil

theorem buildSink_sinking {settings : GraphSettings} {expanded last : Nat} {module : Module}
    (grain : 0 < settings.minSlotSize) (expanded_lt : expanded < Word.limit 32)
    (divides : settings.minSlotSize ∣ expanded)
    (built : buildSink expanded settings last = .ok module) :
    Sinking settings expanded last module := by
  have cuts := cuts_of_sink grain built
  obtain ⟨assignments, made, built⟩ := Fault.bind_eq_ok.mp built
  injection built with built
  subst built
  obtain ⟨fits, fresh_eq, accounts⟩ := Module.fits_of_create
    {
      name := "output"
      assignmentSize := settings.minSlotSize
      chunkSize := settings.minSlotSize
      inputSize := .chunk
      threads := 0
      inputs := [last]
      outputs := []
      assignments
      queue := .create assignments.size }
    made rfl expanded_lt (show 1 < Word.limit 32 by decide) grain divides cuts
  exact ⟨fits, ⟨fresh_eq, accounts⟩, rfl, rfl, rfl, rfl⟩

/-- A position of a built graph holds a module of the wiring, or the sink. -/
theorem eq_or_sink_of_getElem? {modules : List Module} {sink module : Module} {id : Nat}
    (found : (modules ++ [sink]).toArray[id]? = some module) :
    id < modules.length ∧ modules[id]? = some module ∨ id = modules.length ∧ module = sink := by
  rw [List.getElem?_toArray] at found
  rcases Nat.lt_or_ge id modules.length with wired | behind
  · rw [List.getElem?_append_left wired] at found
    exact Or.inl ⟨wired, found⟩
  · obtain ⟨inside, -⟩ := List.getElem?_eq_some_iff.mp found
    rw [List.length_append, List.length_singleton] at inside
    obtain rfl : id = modules.length := by omega
    rw [List.getElem?_append_right behind, Nat.sub_self] at found
    injection found with found
    exact Or.inr ⟨rfl, found.symm⟩

/-- Modules placed at the positions of a layered wiring, with the sink behind them. -/
structure Arranged (graph : Graph) (expanded first last : Nat) (modules : List Module)
    (sink : Module) : Prop where
  valid : graph.wiring.Valid
  layered : graph.wiring.Layered first last
  length_eq : modules.length = graph.wiring.size
  placed : ∀ (id : Nat) module, modules[id]? = some module → Placed graph expanded last id module
  sinking : Sinking graph.settings expanded last sink

/-- The ranks of an arrangement: those of the wiring, and the sink behind them. -/
def arrangedRank (graph : Graph) (id : Nat) : Nat :=
  if id = graph.wiring.size then graph.wiring.size + 1 else graph.wiring.rank id

namespace Arranged

variable {graph : Graph} {expanded first last : Nat} {modules : List Module} {sink : Module}

/-- Each module of an arrangement is placed at its position, or is the sink. -/
theorem position (arranged : Arranged graph expanded first last modules sink) {id : Nat}
    {module : Module} (found : (modules ++ [sink]).toArray[id]? = some module) :
    id < graph.wiring.size ∧ Placed graph expanded last id module ∨
      id = graph.wiring.size ∧ module = sink := by
  rw [← arranged.length_eq]
  rcases eq_or_sink_of_getElem? found with ⟨inside, here⟩ | behind
  · exact Or.inl ⟨inside, arranged.placed id module here⟩
  · exact Or.inr behind

/-- No position up to that of the sink is empty. -/
theorem occupied (arranged : Arranged graph expanded first last modules sink) {id : Nat}
    (inside : id ≤ graph.wiring.size) :
    ∃ module, (modules ++ [sink]).toArray[id]? = some module := by
  rw [List.getElem?_toArray]
  refine ⟨_, List.getElem?_eq_getElem ?_⟩
  rw [List.length_append, List.length_singleton, arranged.length_eq]
  omega

/-- The target of every report has the reporter among its inputs. -/
theorem forward (arranged : Arranged graph expanded first last modules sink) {id output : Nat}
    {module : Module} (found : (modules ++ [sink]).toArray[id]? = some module)
    (output_mem : output ∈ module.outputs) :
    ∃ next, (modules ++ [sink]).toArray[output]? = some next ∧ id ∈ next.inputs := by
  rcases arranged.position found with ⟨-, here⟩ | ⟨-, rfl⟩
  · rcases (here.mem_outputs output).mp output_mem with edge | ⟨rfl, rfl⟩
    · have edge_mem := Wiring.mem_outputsOf.mp edge
      have output_lt := (arranged.valid.bounds _ edge_mem).2
      obtain ⟨next, next_found⟩ := arranged.occupied output_lt.le
      refine ⟨next, next_found, ?_⟩
      rcases arranged.position next_found with ⟨-, there⟩ | ⟨impossible, -⟩
      · rw [there.inputs_eq, Wiring.mem_inputsOf]
        exact edge_mem
      · omega
    · obtain ⟨next, next_found⟩ := arranged.occupied le_rfl
      refine ⟨next, next_found, ?_⟩
      rcases arranged.position next_found with ⟨impossible, -⟩ | ⟨-, rfl⟩
      · exact absurd impossible (Nat.lt_irrefl _)
      · rw [arranged.sinking.inputs_eq]
        exact List.mem_singleton_self _
  · rw [arranged.sinking.outputs_eq] at output_mem
    cases output_mem

/-- A module reports to where an edge from it ends, and the last one to the sink. -/
theorem reports_to (arranged : Arranged graph expanded first last modules sink) {input id : Nat}
    (input_lt : input < graph.wiring.size)
    (reports : id ∈ graph.wiring.outputsOf input ∨ input = last ∧ id = graph.wiring.size) :
    ∃ before, (modules ++ [sink]).toArray[input]? = some before ∧ id ∈ before.outputs := by
  obtain ⟨before, before_found⟩ := arranged.occupied input_lt.le
  refine ⟨before, before_found, ?_⟩
  rcases arranged.position before_found with ⟨-, there⟩ | ⟨impossible, -⟩
  · exact (there.mem_outputs id).mpr reports
  · omega

/-- Every input of a module comes before it, is no sink, and reports to it. -/
theorem backward (arranged : Arranged graph expanded first last modules sink) {id input : Nat}
    {module : Module} (found : (modules ++ [sink]).toArray[id]? = some module)
    (input_mem : input ∈ module.inputs) :
    arrangedRank graph input < arrangedRank graph id ∧ input < graph.wiring.size ∧
      ∃ before, (modules ++ [sink]).toArray[input]? = some before ∧ id ∈ before.outputs := by
  rcases arranged.position found with ⟨wired, here⟩ | ⟨rfl, rfl⟩
  · rw [here.inputs_eq] at input_mem
    have edge := Wiring.mem_inputsOf.mp input_mem
    have input_lt : input < graph.wiring.size := (arranged.valid.bounds _ edge).1
    refine ⟨?_, input_lt,
      arranged.reports_to input_lt (Or.inl (Wiring.mem_outputsOf.mpr edge))⟩
    rw [arrangedRank, arrangedRank, if_neg input_lt.ne, if_neg wired.ne]
    exact Wiring.rank_lt arranged.valid arranged.layered.whole input_mem
  · rw [arranged.sinking.inputs_eq, List.mem_singleton] at input_mem
    subst input_mem
    have last_lt := arranged.valid.last_lt input arranged.layered.last_eq
    refine ⟨?_, last_lt, arranged.reports_to last_lt (Or.inr ⟨rfl, rfl⟩)⟩
    -- An execution order has no more places than there are modules, so the sink lies behind it.
    rw [arrangedRank, arrangedRank, if_neg last_lt.ne, if_pos rfl, Wiring.rank,
      ← arranged.layered.whole]
    exact Nat.lt_succ_of_le List.idxOf_le_length

/-- Only the first module has no inputs. -/
theorem entrance (arranged : Arranged graph expanded first last modules sink) {id : Nat}
    {module : Module} (found : (modules ++ [sink]).toArray[id]? = some module) :
    module.inputs = [] ↔ id = first := by
  rcases arranged.position found with ⟨wired, here⟩ | ⟨rfl, rfl⟩
  · rw [here.inputs_eq]
    constructor
    · intro none
      by_contra different
      exact arranged.layered.fed id wired different none
    · rintro rfl
      exact arranged.layered.first_inputs
  · have first_lt := arranged.valid.first_lt first arranged.layered.first_eq
    rw [arranged.sinking.inputs_eq]
    simp [first_lt.ne']

/-- **An arrangement is laid out.** -/
theorem laid (arranged : Arranged graph expanded first last modules sink)
    (expanded_pos : 0 < expanded) :
    (Dispatch.create (modules ++ [sink]).toArray graph.wiring.size).Laid first expanded
      (arrangedRank graph) := by
  constructor
  · rfl
  · show (modules ++ [sink]).length = graph.wiring.size + 1
    rw [List.length_append, List.length_singleton, arranged.length_eq]
  · exact arranged.valid.first_lt first arranged.layered.first_eq
  · exact expanded_pos
  · intro id module found
    rcases arranged.position found with ⟨-, here⟩ | ⟨-, rfl⟩
    · exact here.fits
    · exact arranged.sinking.fits
  · intro id module found
    rcases arranged.position found with ⟨-, here⟩ | ⟨-, rfl⟩
    · exact here.unworked
    · exact arranged.sinking.unworked
  · intro id module found
    show 0 < module.threads ↔ id < graph.wiring.size
    rcases arranged.position found with ⟨wired, here⟩ | ⟨rfl, rfl⟩
    · simp [wired, here.staffed]
    · simp [arranged.sinking.unstaffed]
  · intro id module found output output_mem
    exact arranged.forward found output_mem
  · intro id module found input input_mem
    exact arranged.backward found input_mem
  · intro id module found
    rcases arranged.position found with ⟨-, here⟩ | ⟨-, rfl⟩
    · rw [here.inputs_eq]
      exact arranged.valid.nodup_inputsOf id
    · rw [arranged.sinking.inputs_eq]
      exact List.nodup_singleton _
  · intro id module found
    exact arranged.entrance found

end Arranged

/-- What building takes, and what it makes: a module for each one of the wiring, and the sink behind
them. -/
theorem build_ok {graph built : Graph} {batch : Nat} (done : graph.build batch = .ok built) :
    graph.state = .unbuilt ∧ ∃ compiled modules sink,
      Plan.compile graph.name graph.settings graph.wiring batch = .ok compiled ∧
      buildModules compiled.expandedSize graph.wiring.modules (withSink compiled.modules
        (graph.wiring.last.getD graph.wiring.size) graph.wiring.size) = .ok modules ∧
      buildSink compiled.expandedSize graph.settings (graph.wiring.last.getD graph.wiring.size) =
        .ok sink ∧
      built = { graph with
        plan := some { compiled with
          modules := withSink compiled.modules (graph.wiring.last.getD graph.wiring.size)
            graph.wiring.size }
        dispatch := some (.create (modules ++ [sink]).toArray graph.wiring.size)
        state := .built } := by
  unfold build at done
  obtain ⟨stage, done⟩ := Invariant.require_bind_eq_ok.mp done
  obtain ⟨compiled, compiles, done⟩ := Fault.bind_eq_ok.mp done
  obtain ⟨modules, placing, done⟩ := Fault.bind_eq_ok.mp done
  obtain ⟨sink, sinks, done⟩ := Fault.bind_eq_ok.mp done
  injection done with done
  exact ⟨of_decide_eq_true stage, compiled, modules, sink, compiles, placing, sinks, done.symm⟩

/-- What building makes of the modules of a graph, wired or not: it resolves their sizes over the
expanded batch. -/
structure Compiled (graph : Graph) (expanded first last : Nat) (modules : List Module)
    (sink : Module) : Prop where
  layered : graph.wiring.Layered first last
  expanded_pos : 0 < expanded
  expanded_lt : expanded < Word.limit 32
  grain_dvd : max graph.settings.minSlotSize 1 ∣ expanded
  length_eq : modules.length = graph.wiring.size
  made : ∀ (id : Nat) module, modules[id]? = some module → ∃ spec resolved sizes,
    Plan.Sizes graph.settings graph.wiring expanded id spec resolved ∧
      Resolved graph last id resolved sizes ∧ buildModule expanded spec sizes = .ok module
  sink_made : buildSink expanded graph.settings last = .ok sink

/-- Building a graph compiles its modules. -/
theorem build_compiled {graph built : Graph} {batch : Nat} (done : graph.build batch = .ok built) :
    ∃ plan first last modules sink,
      Compiled graph plan.expandedSize first last modules sink ∧
      built = { graph with
        plan := some plan
        dispatch := some (.create (modules ++ [sink]).toArray graph.wiring.size)
        state := .built } := by
  obtain ⟨-, compiled, modules, sink, compiles, placing, sinks, rfl⟩ := build_ok done
  obtain ⟨order, checked, compiles⟩ := Fault.bind_eq_ok.mp compiles
  obtain ⟨expanded, expands, compiles⟩ := Fault.bind_eq_ok.mp compiles
  obtain ⟨resolved, resolves, compiles⟩ := Fault.bind_eq_ok.mp compiles
  injection compiles with compiles
  subst compiles
  obtain ⟨batch_pos, first, last, layered⟩ := Plan.checkShape_layered checked
  obtain ⟨holds, expanded_lt, grain_dvd, declared⟩ := expandBatchSize_dvd expands
  obtain ⟨resolved_length, resolved_at⟩ := Plan.resolveFrom_getElem? resolves
  have expanded_pos : 0 < expanded := batch_pos.trans_le holds
  have last_eq : graph.wiring.last.getD graph.wiring.size = last := by
    rw [layered.last_eq, Option.getD_some]
  rw [last_eq] at placing sinks
  -- The list that was built is the one that was resolved, but for the outputs of the last module.
  obtain ⟨length_eq, built_at⟩ := buildModules_getElem? placing (by
    rw [withSink, List.length_modify]
    exact resolved_length)
  refine ⟨⟨expanded, order, withSink resolved (graph.wiring.last.getD graph.wiring.size) _⟩, first,
    last, modules, sink, ⟨layered, expanded_pos, expanded_lt, grain_dvd, length_eq, ?_, sinks⟩, rfl⟩
  intro id module found
  obtain ⟨spec, sizes, spec_found, sizes_found, builds⟩ := built_at id module found
  rw [withSink, List.getElem?_modify] at sizes_found
  obtain ⟨before, before_found, sizes_eq⟩ := Option.map_eq_some_iff.mp sizes_found
  obtain ⟨other, other_found, fitting⟩ := resolved_at id before before_found
  obtain rfl : other = spec := Option.some.inj (other_found.symm.trans spec_found)
  have declares : other.assignmentSize ≠ 0 → other.assignmentSize ∣ expanded :=
    declared _ (List.mem_flatMap.mpr
      ⟨other, List.mem_of_getElem? spec_found, List.mem_cons_self⟩)
  rw [Nat.zero_add] at fitting
  have sizes_fit := Plan.resolve_sizes fitting expanded_pos declares
  exact ⟨other, before, sizes, sizes_fit, ⟨sizes_eq.symm, sizes_fit.outputs_eq⟩, builds⟩

/-- Building a wired graph constructs its modules. -/
theorem build_constructed {graph built : Graph} {batch : Nat} (wired : graph.Wired)
    (done : graph.build batch = .ok built) :
    ∃ plan first last modules sink,
      Constructed graph plan.expandedSize first last modules sink ∧
      built = { graph with
        plan := some plan
        dispatch := some (.create (modules ++ [sink]).toArray graph.wiring.size)
        state := .built } := by
  obtain ⟨valid, grain⟩ := wired.valid
  obtain ⟨plan, first, last, modules, sink, compiled, rfl⟩ := build_compiled done
  have grain_dvd := compiled.grain_dvd
  rw [Nat.max_eq_left grain] at grain_dvd
  exact ⟨plan, first, last, modules, sink, ⟨valid, grain, grain_dvd, compiled.layered,
    compiled.expanded_pos, compiled.expanded_lt, compiled.length_eq, compiled.made,
    compiled.sink_made⟩, rfl⟩

/-- The sizes of every module that building makes fit into each other, however many inputs it
has. -/
theorem cuts_of_build {graph built : Graph} {origin : Dispatch} {batch id : Nat} {module : Module}
    (wired : graph.Wired) (done : graph.build batch = .ok built)
    (dispatch_eq : built.dispatch = some origin) (found : origin.modules[id]? = some module) :
    module.Cuts := by
  obtain ⟨plan, first, last, modules, sink, constructed, rfl⟩ := build_constructed wired done
  injection dispatch_eq with dispatch_eq
  subst dispatch_eq
  rcases eq_or_sink_of_getElem? found with ⟨-, placed⟩ | ⟨-, rfl⟩
  · exact constructed.cuts placed
  · exact cuts_of_sink constructed.grain constructed.sink_made

/-- **Building a wired graph lays out its modules**, if a word can count the inputs of each. -/
theorem build_built {graph built : Graph} {batch : Nat} (wired : graph.Wired)
    (few : ∀ module, (graph.wiring.inputsOf module).length < Word.limit 32)
    (done : graph.build batch = .ok built) :
    built.wiring = graph.wiring ∧ ∃ origin first last rank, Built built origin first last rank := by
  obtain ⟨plan, first, last, modules, sink, constructed, rfl⟩ := build_constructed wired done
  have sinking : Sinking graph.settings plan.expandedSize last sink :=
    buildSink_sinking constructed.grain constructed.expanded_lt constructed.grain_dvd
      constructed.sink_made
  have arranged : Arranged graph plan.expandedSize first last modules sink :=
    ⟨constructed.valid, constructed.layered, constructed.length_eq,
      fun id _ found => constructed.placed (few id) found, sinking⟩
  have at_sink : ∀ module,
      (modules ++ [sink]).toArray[graph.wiring.size]? = some module → module = sink := by
    intro module found
    rcases arranged.position found with ⟨impossible, -⟩ | ⟨-, same⟩
    · exact absurd impossible (Nat.lt_irrefl _)
    · exact same
  refine ⟨rfl, _, first, last, _, rfl, rfl, constructed.layered.first_eq,
    constructed.layered.last_eq, arranged.laid constructed.expanded_pos, rfl, ?_, ?_, ?_⟩
  · intro id module found wired
    rcases arranged.position found with ⟨-, here⟩ | ⟨impossible, -⟩
    · exact here.inputs_eq
    · exact absurd impossible (Nat.ne_of_lt wired)
  · intro module found
    rw [at_sink module found]
    exact sinking.inputs_eq
  · intro module found
    rw [at_sink module found]
    exact sinking.unit_eq

end Graph

end Mixnet
