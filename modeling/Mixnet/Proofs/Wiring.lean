import Mathlib.Data.List.Nodup
import Mathlib.Data.List.Perm.Subperm
import Mathlib.Logic.Relation
import Mixnet.Graph

/-!
# Wirings and their execution order

A wiring grows by operations that refuse what would spoil it, and is checked as a whole when the
graph is built.  This file says what the operations keep, and what a wiring that passed the check is
worth: its modules have a rank that rises along every edge, and every module but the first is fed by
another one.

## Main definitions

* `Wiring.Valid`: edges between modules, none twice
* `Graph.Wired`: the graphs that wiring can produce
* `Graph.Feeds`: a module from which another one can be reached
* `Wiring.Ordering`: the state of the search for an execution order
* `Wiring.Layered`: a wiring whose shape has been checked

## Main statements

* `Graph.Wired.valid`: a wired graph has a valid wiring
* `Wiring.feeds_of_mem_growTimes`: what a search finds can be reached from where it began
* `Wiring.rank_lt`: an execution order of all modules ranks every input before the module
* `Plan.checkShape_layered`: a wiring that passes the check is layered
-/

namespace Mixnet

namespace Wiring

variable {wiring after : Wiring}

theorem mem_outputsOf {source target : Nat} :
    target ∈ wiring.outputsOf source ↔ (source, target) ∈ wiring.edges := by
  simp [outputsOf]

theorem mem_inputsOf {source target : Nat} :
    source ∈ wiring.inputsOf target ↔ (source, target) ∈ wiring.edges := by
  simp [inputsOf]

/-! ## What wiring keeps -/

/-- Edges run between modules of the wiring, none is there twice, and the entrance and the exit are
modules of it. -/
structure Valid (wiring : Wiring) : Prop where
  bounds : ∀ edge ∈ wiring.edges, edge.1 < wiring.size ∧ edge.2 < wiring.size
  distinct : wiring.edges.Nodup
  first_lt : ∀ module, wiring.first = some module → module < wiring.size
  last_lt : ∀ module, wiring.last = some module → module < wiring.size

/-- What an edge that was added is worth. -/
theorem of_connect {source target : Nat}
    (connected : wiring.connect source target = .ok after) :
    source < wiring.size ∧ target < wiring.size ∧ (source, target) ∉ wiring.edges ∧
      source ∉ wiring.reachableFrom target ∧
      after = { wiring with edges := wiring.edges ++ [(source, target)] } := by
  unfold connect at connected
  split_ifs at connected with source_unknown target_unknown repeated cyclic
  injection connected with connected
  rw [List.contains_iff_mem] at repeated cyclic
  exact ⟨by omega, by omega, repeated, cyclic, connected.symm⟩

/-- What marking the entrance takes, and what it makes. -/
theorem of_setFirst {module : Nat} {context : Option String}
    (marked : wiring.setFirst module context = .ok after) :
    wiring.first = none ∧ module < wiring.size ∧ after = { wiring with first := some module } := by
  obtain ⟨known, marked⟩ := Invariant.require_bind_eq_ok.mp marked
  injection marked with marked
  rw [Bool.and_eq_true, decide_eq_true_eq, Option.isNone_iff_eq_none] at known
  exact ⟨known.1, known.2, marked.symm⟩

/-- What marking the exit takes, and what it makes. -/
theorem of_setLast {module : Nat} {context : Option String}
    (marked : wiring.setLast module context = .ok after) :
    wiring.last = none ∧ module < wiring.size ∧ after = { wiring with last := some module } := by
  obtain ⟨known, marked⟩ := Invariant.require_bind_eq_ok.mp marked
  injection marked with marked
  rw [Bool.and_eq_true, decide_eq_true_eq, Option.isNone_iff_eq_none] at known
  exact ⟨known.1, known.2, marked.symm⟩

namespace Valid

theorem empty : Wiring.empty.Valid := by
  constructor <;> simp [Wiring.empty]

theorem add (valid : wiring.Valid) (spec : ModuleSpec) : (wiring.add spec).Valid := by
  have grown : (wiring.add spec).size = wiring.size + 1 := by simp [Wiring.add, size]
  constructor
  · intro edge member
    have := valid.bounds edge member
    omega
  · exact valid.distinct
  · intro module found
    have := valid.first_lt module found
    omega
  · intro module found
    have := valid.last_lt module found
    omega

theorem connect {source target : Nat} (valid : wiring.Valid)
    (connected : wiring.connect source target = .ok after) : after.Valid := by
  obtain ⟨source_known, target_known, new_edge, -, rfl⟩ := of_connect connected
  refine ⟨?_, ?_, valid.first_lt, valid.last_lt⟩
  · intro edge member
    rcases List.mem_append.mp member with old | new
    · exact valid.bounds edge old
    · rw [List.mem_singleton.mp new]
      exact ⟨source_known, target_known⟩
  · refine List.nodup_append'.mpr ⟨valid.distinct, List.nodup_singleton _, ?_⟩
    rw [List.disjoint_singleton]
    exact new_edge

theorem setFirst {module : Nat} {context : Option String} (valid : wiring.Valid)
    (marked : wiring.setFirst module context = .ok after) : after.Valid := by
  obtain ⟨-, known, rfl⟩ := of_setFirst marked
  refine ⟨valid.bounds, valid.distinct, ?_, valid.last_lt⟩
  intro other found
  injection found with found
  exact found ▸ known

theorem setLast {module : Nat} {context : Option String} (valid : wiring.Valid)
    (marked : wiring.setLast module context = .ok after) : after.Valid := by
  obtain ⟨-, known, rfl⟩ := of_setLast marked
  refine ⟨valid.bounds, valid.distinct, valid.first_lt, ?_⟩
  intro other found
  injection found with found
  exact found ▸ known

theorem nodup_outputsOf (valid : wiring.Valid) (module : Nat) :
    (wiring.outputsOf module).Nodup := by
  refine List.Nodup.map_on ?_ (valid.distinct.filter _)
  rintro ⟨left, _⟩ left_mem ⟨right, _⟩ right_mem same
  simp only [List.mem_filter, decide_eq_true_eq] at left_mem right_mem
  rw [Prod.mk.injEq]
  exact ⟨left_mem.2.trans right_mem.2.symm, same⟩

theorem nodup_inputsOf (valid : wiring.Valid) (module : Nat) :
    (wiring.inputsOf module).Nodup := by
  refine List.Nodup.map_on ?_ (valid.distinct.filter _)
  rintro ⟨_, left⟩ left_mem ⟨_, right⟩ right_mem same
  simp only [List.mem_filter, decide_eq_true_eq] at left_mem right_mem
  rw [Prod.mk.injEq]
  exact ⟨same, left_mem.2.trans right_mem.2.symm⟩

end Valid

end Wiring

/-- A module from which another one can be reached along the edges. -/
def Graph.Feeds (wiring : Wiring) : Nat → Nat → Prop :=
  Relation.ReflTransGen fun source target => (source, target) ∈ wiring.edges

namespace Graph

variable {graph after : Graph} {module source target position : Nat} {spec : ModuleSpec}

theorem addModule_ok (added : graph.addModule spec = .ok (position, after)) :
    graph.state = .unbuilt ∧ after = { graph with wiring := graph.wiring.add spec } := by
  obtain ⟨stage, added⟩ := Invariant.require_bind_eq_ok.mp added
  injection added with added
  injection added with _ added
  exact ⟨of_decide_eq_true stage, added.symm⟩

theorem connect_ok (connected : graph.connect source target = .ok after) :
    graph.state = .unbuilt ∧ ∃ wiring, graph.wiring.connect source target = .ok wiring ∧
      after = { graph with wiring } := by
  unfold connect at connected
  split at connected
  case h_1 => cases connected
  case h_2 stage =>
    cases made : graph.wiring.connect source target with
    | error => simp [made] at connected
    | ok wiring =>
        simp only [made] at connected
        injection connected with connected
        exact ⟨of_decide_eq_true (Invariant.require_eq_ok.mp stage), wiring, rfl, connected.symm⟩

theorem setFirst_ok (marked : graph.setFirst module = .ok after) :
    ∃ wiring, graph.wiring.setFirst module (some graph.name) = .ok wiring ∧
      after = { graph with wiring } := by
  obtain ⟨wiring, set, marked⟩ := Fault.bind_eq_ok.mp marked
  injection marked with marked
  exact ⟨wiring, set, marked.symm⟩

theorem setLast_ok (marked : graph.setLast module = .ok after) :
    ∃ wiring, graph.wiring.setLast module (some graph.name) = .ok wiring ∧
      after = { graph with wiring } := by
  obtain ⟨wiring, set, marked⟩ := Fault.bind_eq_ok.mp marked
  injection marked with marked
  exact ⟨wiring, set, marked.symm⟩

end Graph

/-- The graphs that wiring can produce: a new graph, and what comes of it by adding modules and
edges and by marking the entrance and the exit. -/
inductive Graph.Wired : Graph → Prop
  | create {name : String} {minSlotSize threads : Nat} {threshold : Binary32}
      {settings : GraphSettings} {stream : Stream}
      (settled : GraphSettings.create minSlotSize threads threshold = .ok settings) :
      Wired (.create name settings stream)
  | handled {name : String} {minSlotSize threads : Nat} {threshold : Binary32}
      {settings : GraphSettings} {stream : Stream}
      (settled : GraphSettings.create minSlotSize threads threshold = .ok settings) :
      Wired (.create name settings.withHandler stream)
  | addModule {graph after : Graph} {spec : ModuleSpec} {position : Nat} (wired : Wired graph)
      (added : graph.addModule spec = .ok (position, after)) : Wired after
  | connect {graph after : Graph} {source target : Nat} (wired : Wired graph)
      (connected : graph.connect source target = .ok after) : Wired after
  | setFirst {graph after : Graph} {module : Nat} (wired : Wired graph)
      (marked : graph.setFirst module = .ok after) : Wired after
  | setLast {graph after : Graph} {module : Nat} (wired : Wired graph)
      (marked : graph.setLast module = .ok after) : Wired after

/-- **A wired graph has a valid wiring**, and hands on at least one slot at a time. -/
theorem Graph.Wired.valid {graph : Graph} (wired : graph.Wired) :
    graph.wiring.Valid ∧ 0 < graph.settings.minSlotSize := by
  have positive {minSlotSize threads : Nat} {threshold : Binary32} {settings : GraphSettings}
      (settled : GraphSettings.create minSlotSize threads threshold = .ok settings) :
      0 < settings.minSlotSize := by
    obtain ⟨required, settled⟩ := Invariant.require_bind_eq_ok.mp settled
    injection settled with settled
    subst settled
    exact of_decide_eq_true required
  induction wired with
  | create settled => exact ⟨.empty, positive settled⟩
  | handled settled =>
      have settled_positive := positive settled
      exact ⟨.empty, settled_positive⟩
  | addModule _ added ih =>
      obtain ⟨-, rfl⟩ := addModule_ok added
      exact ⟨ih.1.add _, ih.2⟩
  | connect _ connected ih =>
      obtain ⟨-, wiring, made, rfl⟩ := connect_ok connected
      exact ⟨ih.1.connect made, ih.2⟩
  | setFirst _ marked ih =>
      obtain ⟨wiring, set, rfl⟩ := setFirst_ok marked
      exact ⟨ih.1.setFirst set, ih.2⟩
  | setLast _ marked ih =>
      obtain ⟨wiring, set, rfl⟩ := setLast_ok marked
      exact ⟨ih.1.setLast set, ih.2⟩

namespace Wiring

variable {wiring : Wiring}

/-! ## The execution order -/

/-- The state of the search for an order: what is ordered comes behind all its inputs, and what
waits is ready. -/
structure Ordering (wiring : Wiring) (ordered queue : List Nat) : Prop where
  distinct : (ordered ++ queue).Nodup
  closed : ∀ before module after, ordered = before ++ module :: after →
    ∀ input ∈ wiring.inputsOf module, input ∈ before
  ready : ∀ module ∈ queue, ∀ input ∈ wiring.inputsOf module, input ∈ ordered
  inside : ∀ module ∈ ordered ++ queue, module < wiring.size

/-- The search starts with the modules without inputs. -/
theorem Ordering.initial (wiring : Wiring) :
    Ordering wiring []
      ((List.range wiring.size).filter fun module => (wiring.inputsOf module).isEmpty) := by
  refine ⟨?_, ?_, ?_, ?_⟩
  · exact List.nodup_range.filter _
  · intro before module after impossible
    simp at impossible
  · intro module member input input_mem
    rw [List.mem_filter, List.isEmpty_iff] at member
    rw [member.2] at input_mem
    cases input_mem
  · intro module member
    rw [List.nil_append, List.mem_filter, List.mem_range] at member
    exact member.1

/-- Ordering one more module keeps the search in order. -/
theorem Ordering.step (valid : wiring.Valid) {ordered queue : List Nat} {module : Nat}
    (state : Ordering wiring ordered (module :: queue)) :
    Ordering wiring (ordered ++ [module])
      (queue ++ wiring.readyAfter (ordered ++ [module]) module) := by
  have readied : ∀ next, next ∈ wiring.readyAfter (ordered ++ [module]) module ↔
      (module, next) ∈ wiring.edges ∧
        ∀ input ∈ wiring.inputsOf next, input ∈ ordered ++ [module] := by
    intro next
    simp [readyAfter, mem_outputsOf]
  have regrouped : ordered ++ module :: queue = (ordered ++ [module]) ++ queue := by simp
  have distinct := state.distinct
  rw [regrouped] at distinct
  have fresh : module ∉ ordered := by
    intro member
    exact (List.nodup_append'.mp state.distinct).2.2 member List.mem_cons_self
  refine ⟨?_, ?_, ?_, ?_⟩
  · rw [← List.append_assoc]
    refine List.nodup_append'.mpr ⟨distinct, (valid.nodup_outputsOf module).filter _, ?_⟩
    -- What became ready just now waited for the module, so nothing before it can have been it.
    intro next old new
    have edge : module ∈ wiring.inputsOf next := mem_inputsOf.mpr ((readied next).mp new).1
    rw [← regrouped] at old
    rcases List.mem_append.mp old with was_ordered | waited
    · obtain ⟨before, after, split⟩ := List.append_of_mem was_ordered
      rw [split] at fresh
      exact fresh (List.mem_append_left _ (state.closed before next after split module edge))
    · exact fresh (state.ready next waited module edge)
  · -- What is ordered now was ready, and what was ordered before still stands where it stood.
    intro before last after split input input_mem
    rcases List.eq_nil_or_concat after with rfl | ⟨initial, final, rfl⟩
    · obtain ⟨same, last_eq⟩ := List.append_inj' split rfl
      injection last_eq with last_eq
      subst same last_eq
      exact state.ready _ List.mem_cons_self input input_mem
    · rw [List.concat_eq_append, ← List.cons_append, ← List.append_assoc] at split
      obtain ⟨same, -⟩ := List.append_inj' split rfl
      exact state.closed before last initial same input input_mem
  · intro next member input input_mem
    rcases List.mem_append.mp member with waited | new
    · have ordered_input := state.ready next (List.mem_cons_of_mem _ waited) input input_mem
      exact List.mem_append_left _ ordered_input
    · exact ((readied next).mp new).2 input input_mem
  · intro next member
    rw [← List.append_assoc] at member
    rcases List.mem_append.mp member with old | new
    · exact state.inside next (regrouped ▸ old)
    · exact (valid.bounds _ ((readied next).mp new).1).2

/-- The search ends in order. -/
theorem Ordering.run (valid : wiring.Valid) (steps : Nat) {ordered queue : List Nat}
    (state : Ordering wiring ordered queue) :
    ∃ rest, Ordering wiring (wiring.orderFrom steps ordered queue) rest := by
  fun_induction orderFrom wiring steps ordered queue with
  | case1 ordered queue => exact ⟨queue, state⟩
  | case2 steps ordered => exact ⟨[], state⟩
  | case3 ordered steps module queue extended ih => exact ih (state.step valid)

/-- The rank of a module is its place in the execution order. -/
def rank (wiring : Wiring) (module : Nat) : Nat := wiring.executionOrder.idxOf module

/-- The execution order lists modules, none of them twice. -/
theorem Valid.executionOrder_subperm (valid : wiring.Valid) :
    wiring.executionOrder.Nodup ∧ wiring.executionOrder.Subperm (List.range wiring.size) := by
  obtain ⟨rest, state⟩ := (Ordering.initial wiring).run valid wiring.size
  have distinct : wiring.executionOrder.Nodup := (List.nodup_append'.mp state.distinct).1
  refine ⟨distinct, List.subperm_of_subset distinct fun module member => ?_⟩
  exact List.mem_range.mpr (state.inside module (List.mem_append_left _ member))

/-- If it is as long as the wiring, it lists all of them. -/
theorem Valid.executionOrder_perm_of_length (valid : wiring.Valid)
    (whole : wiring.executionOrder.length = wiring.size) :
    wiring.executionOrder.Perm (List.range wiring.size) :=
  valid.executionOrder_subperm.2.perm_of_length_le
    (Nat.le_of_eq (List.length_range.trans whole.symm))

/-- **An execution order of all modules ranks every input before the module.** -/
theorem rank_lt (valid : wiring.Valid) (whole : wiring.executionOrder.length = wiring.size)
    {input module : Nat} (member : input ∈ wiring.inputsOf module) :
    wiring.rank input < wiring.rank module := by
  obtain ⟨rest, state⟩ := (Ordering.initial wiring).run valid wiring.size
  have distinct := valid.executionOrder_subperm.1
  have complete := valid.executionOrder_perm_of_length whole
  have known : module < wiring.size := (valid.bounds _ (mem_inputsOf.mp member)).2
  obtain ⟨before, behind, split⟩ :=
    List.append_of_mem (complete.mem_iff.mpr (List.mem_range.mpr known))
  have earlier : input ∈ before := state.closed before module behind split input member
  have later : module ∉ before := by
    intro impossible
    rw [split] at distinct
    exact (List.nodup_append'.mp distinct).2.2 impossible List.mem_cons_self
  rw [rank, rank, split, List.idxOf_append_of_mem earlier, List.idxOf_append_of_notMem later,
    List.idxOf_cons_self]
  exact Nat.lt_of_lt_of_le (List.idxOf_lt_length_iff.mpr earlier) (Nat.le_add_right _ _)

/-! ## Reachability -/

section Growth

variable {seen : List Nat} {module : Nat}

theorem mem_grow :
    module ∈ wiring.grow seen ↔
      module ∈ seen ∨ ∃ source ∈ seen, (source, module) ∈ wiring.edges := by
  simp only [grow, List.mem_append, List.mem_eraseDups, List.mem_filter, List.mem_flatMap,
    mem_outputsOf, Bool.not_eq_true', List.contains_eq_mem, decide_eq_false_iff_not]
  constructor
  · rintro (old | ⟨fed, -⟩)
    · exact Or.inl old
    · exact Or.inr fed
  · rintro (old | fed)
    · exact Or.inl old
    · by_cases known : module ∈ seen
      · exact Or.inl known
      · exact Or.inr ⟨fed, known⟩

/-- What growth finds can be reached from where it began. -/
theorem feeds_of_mem_growTimes {times : Nat} (member : module ∈ wiring.growTimes times seen) :
    ∃ source ∈ seen, Graph.Feeds wiring source module := by
  induction times generalizing seen with
  | zero => exact ⟨module, member, .refl⟩
  | succ times ih =>
      obtain ⟨middle, grown, feeds⟩ := ih member
      rcases mem_grow.mp grown with old | ⟨source, known, edge⟩
      · exact ⟨middle, old, feeds⟩
      · exact ⟨source, known, .head edge feeds⟩

end Growth

end Wiring

/-! ## The check of the shape -/

/-- A wiring whose shape has been checked: the first module alone has no inputs, the last has no
outputs, and modules can be ranked along the edges. -/
structure Wiring.Layered (wiring : Wiring) (first last : Nat) : Prop where
  first_eq : wiring.first = some first
  last_eq : wiring.last = some last
  first_inputs : wiring.inputsOf first = []
  last_outputs : wiring.outputsOf last = []
  fed : ∀ module < wiring.size, module ≠ first → wiring.inputsOf module ≠ []
  whole : wiring.executionOrder.length = wiring.size

/-- **A wiring that passes the check is layered.** -/
theorem Plan.checkShape_layered {name : String} {wiring : Wiring} {batch : Nat}
    {order : List Nat} (checked : checkShape name wiring batch = .ok order) :
    0 < batch ∧ ∃ first last, wiring.Layered first last := by
  unfold checkShape at checked
  obtain ⟨batch_pos, checked⟩ := Invariant.require_bind_eq_ok.mp checked
  obtain ⟨-, checked⟩ := Invariant.require_bind_eq_ok.mp checked
  refine ⟨of_decide_eq_true batch_pos, ?_⟩
  split at checked
  case h_2 => cases checked
  case h_1 first last first_eq last_eq =>
    obtain ⟨no_inputs, checked⟩ := Invariant.require_bind_eq_ok.mp checked
    obtain ⟨no_outputs, checked⟩ := Invariant.require_bind_eq_ok.mp checked
    obtain ⟨reached, checked⟩ := Invariant.require_bind_eq_ok.mp checked
    obtain ⟨acyclic, -⟩ := Invariant.require_bind_eq_ok.mp checked
    rw [List.all_eq_true] at reached
    refine ⟨first, last, first_eq, last_eq, List.isEmpty_iff.mp no_inputs,
      List.isEmpty_iff.mp no_outputs, ?_, of_decide_eq_true acyclic⟩
    -- A module that growth reaches was the start, or something leads to it.
    intro module known different
    have member := reached module (List.mem_range.mpr known)
    rw [List.contains_iff_mem] at member
    obtain ⟨start, start_mem, feeds⟩ := Wiring.feeds_of_mem_growTimes member
    obtain rfl := List.mem_singleton.mp start_mem
    rcases feeds.cases_tail with same | ⟨source, -, edge⟩
    · exact absurd same different
    · exact List.ne_nil_of_mem (Wiring.mem_inputsOf.mpr edge)

end Mixnet
