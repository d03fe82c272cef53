import Mathlib.Algebra.BigOperators.Group.List.Basic
import Mathlib.Algebra.Order.BigOperators.Group.List
import Mixnet.Dispatch
import Mixnet.Proofs.Tasks

/-!
# Reading a journal

The journal of a run is a list of observations, newest first.  Laws about runs are laws about what
can be read from it: which pieces a module has received and from whom, which assignments were queued
for it, what its kernel was called on, and where it returned.

## Main definitions

* `Journal.reportsTo`, `Journal.reportsFrom`, `Journal.queuedOn`, `Journal.calledOn`,
  `Journal.returnedOn`: chunks that concern a module
* `Journal.performed`: the calls and reports a module has done
* `Journal.Returned`: whether a kernel has returned on a slot
* `Journal.deliver`: a journal after a report and what it released

## Main statements

* `Journal.countP_performed_calls`, `Journal.countP_performed_reports`: what was performed covers
  the slots of what was called and reported
* `Journal.coverage_reportsTo`: what a module received is what its inputs reported, taken together
-/

namespace Mixnet

/-! ## Single observations -/

namespace Observation

/-- The piece that was reported to a module. -/
@[simp] def reportTo (target : Nat) : Observation → Option Chunk
  | .reported _ module piece => if module = target then some piece else none
  | _ => none

/-- The piece that was reported to a module from a given side. -/
@[simp] def reportFrom (source : Option Nat) (target : Nat) : Observation → Option Chunk
  | .reported origin module piece =>
      if origin = source ∧ module = target then some piece else none
  | _ => none

/-- The assignment that was queued for a module. -/
@[simp] def queuedFor (target : Nat) : Observation → Option Chunk
  | .queued module chunk => if module = target then some chunk else none
  | _ => none

/-- The chunk that the kernel of a module was called on. -/
@[simp] def callOf (target : Nat) : Observation → Option Chunk
  | .called module chunk => if module = target then some chunk else none
  | _ => none

/-- The chunk that the kernel of a module returned on, with whatever result. -/
@[simp] def returnOf (target : Nat) : Observation → Option Chunk
  | .returned module chunk _ => if module = target then some chunk else none
  | _ => none

/-- The duty that a module has done. -/
@[simp] def dutyOf (module : Nat) : Observation → Option Task
  | .called caller chunk => if caller = module then some (.call chunk) else none
  | .reported source target piece =>
      if source = some module then some (.report target piece) else none
  | _ => none

end Observation

/-! ## Views of a journal -/

namespace Journal

/-- What can be read from a journal, newest first. -/
def view {α : Type} (read : Observation → Option α) (journal : List Observation) : List α :=
  journal.filterMap read

/-- The pieces reported to a module. -/
def reportsTo (journal : List Observation) (target : Nat) : List Chunk :=
  view (Observation.reportTo target) journal

/-- The pieces reported to a module by another one, or from outside. -/
def reportsFrom (journal : List Observation) (source : Option Nat) (target : Nat) : List Chunk :=
  view (Observation.reportFrom source target) journal

/-- The assignments queued for a module. -/
def queuedOn (journal : List Observation) (target : Nat) : List Chunk :=
  view (Observation.queuedFor target) journal

/-- The chunks that the kernel of a module was called on. -/
def calledOn (journal : List Observation) (target : Nat) : List Chunk :=
  view (Observation.callOf target) journal

/-- The chunks that the kernel of a module returned on. -/
def returnedOn (journal : List Observation) (target : Nat) : List Chunk :=
  view (Observation.returnOf target) journal

/-- The calls and reports that a module has done. -/
def performed (journal : List Observation) (module : Nat) : List Task :=
  view (Observation.dutyOf module) journal

/-- The kernel of a module has returned without an error on a slot. -/
def Returned (journal : List Observation) (module slot : Nat) : Prop :=
  ∃ chunk, .returned module chunk (.ok ()) ∈ journal ∧ chunk.covers slot = true

/-- A journal after a report, and after the assignments that it released were queued. -/
def deliver (journal : List Observation) (source : Option Nat) (target : Nat) (piece : Chunk)
    (released : List Chunk) : List Observation :=
  released.reverse.map (.queued target) ++ .reported source target piece :: journal

variable {journal : List Observation}

theorem view_cons {α : Type} (read : Observation → Option α) (observation : Observation)
    (journal : List Observation) :
    view read (observation :: journal) = (read observation).toList ++ view read journal := by
  rw [view, List.filterMap_cons]
  cases read observation <;> rfl

theorem view_append {α : Type} (read : Observation → Option α) (newer older : List Observation) :
    view read (newer ++ older) = view read newer ++ view read older :=
  List.filterMap_append

@[simp] theorem reportsTo_cons (observation : Observation) (target : Nat) :
    reportsTo (observation :: journal) target =
      (observation.reportTo target).toList ++ reportsTo journal target :=
  view_cons ..

@[simp] theorem reportsFrom_cons (observation : Observation) (source : Option Nat)
    (target : Nat) : reportsFrom (observation :: journal) source target =
      (observation.reportFrom source target).toList ++ reportsFrom journal source target :=
  view_cons ..

@[simp] theorem queuedOn_cons (observation : Observation) (target : Nat) :
    queuedOn (observation :: journal) target =
      (observation.queuedFor target).toList ++ queuedOn journal target :=
  view_cons ..

@[simp] theorem calledOn_cons (observation : Observation) (target : Nat) :
    calledOn (observation :: journal) target =
      (observation.callOf target).toList ++ calledOn journal target :=
  view_cons ..

@[simp] theorem returnedOn_cons (observation : Observation) (target : Nat) :
    returnedOn (observation :: journal) target =
      (observation.returnOf target).toList ++ returnedOn journal target :=
  view_cons ..

@[simp] theorem performed_cons (observation : Observation) (module : Nat) :
    performed (observation :: journal) module =
      (observation.dutyOf module).toList ++ performed journal module :=
  view_cons ..

/-- What only one observation says is read from a journal exactly if the journal holds that one. -/
theorem mem_view_iff {α : Type} {read : Observation → Option α} {value : α}
    {witness : Observation}
    (only : ∀ observation, read observation = some value ↔ observation = witness) :
    value ∈ view read journal ↔ witness ∈ journal := by
  rw [view, List.mem_filterMap]
  constructor
  · rintro ⟨observation, member, seen⟩
    rw [(only observation).mp seen] at member
    exact member
  · intro member
    exact ⟨witness, member, (only witness).mpr rfl⟩

theorem mem_queuedOn {target : Nat} {chunk : Chunk} :
    chunk ∈ queuedOn journal target ↔ .queued target chunk ∈ journal := by
  apply mem_view_iff
  intro observation
  cases observation <;> simp

theorem mem_calledOn {target : Nat} {chunk : Chunk} :
    chunk ∈ calledOn journal target ↔ .called target chunk ∈ journal := by
  apply mem_view_iff
  intro observation
  cases observation <;> simp

theorem mem_reportsFrom {source : Option Nat} {target : Nat} {piece : Chunk} :
    piece ∈ reportsFrom journal source target ↔ .reported source target piece ∈ journal := by
  apply mem_view_iff
  intro observation
  cases observation <;> simp [and_assoc]

/-- Counts in two readings compare as they do on single observations. -/
theorem countP_view_le {α β : Type} {read : Observation → Option α}
    {other : Observation → Option β} {left : α → Bool} {right : β → Bool}
    (each : ∀ observation,
      (read observation).toList.countP left ≤ (other observation).toList.countP right)
    (journal : List Observation) :
    (view read journal).countP left ≤ (view other journal).countP right := by
  induction journal with
  | nil => exact le_rfl
  | cons observation journal ih =>
      rw [view_cons, view_cons, List.countP_append, List.countP_append]
      exact Nat.add_le_add (each observation) ih

theorem countP_view_eq {α β : Type} {read : Observation → Option α}
    {other : Observation → Option β} {left : α → Bool} {right : β → Bool}
    (each : ∀ observation,
      (read observation).toList.countP left = (other observation).toList.countP right)
    (journal : List Observation) :
    (view read journal).countP left = (view other journal).countP right :=
  Nat.le_antisymm (countP_view_le (fun observation => (each observation).le) journal)
    (countP_view_le (fun observation => (each observation).ge) journal)

/-- What came from one side is part of what came. -/
theorem coverage_reportsFrom_le (source : Option Nat) (target slot : Nat) :
    Chunk.coverage (reportsFrom journal source target) slot ≤
      Chunk.coverage (reportsTo journal target) slot := by
  refine countP_view_le ?_ journal
  intro observation
  cases observation with
  | reported origin receiver piece =>
      by_cases there : receiver = target <;> by_cases same : origin = source <;>
        simp [there, same]
  | _ => exact le_rfl

theorem Returned.mono {more : List Observation} (within : journal ⊆ more) {module slot : Nat}
    (returned : Returned journal module slot) : Returned more module slot := by
  obtain ⟨chunk, member, covered⟩ := returned
  exact ⟨chunk, within member, covered⟩

/-! ## After a report -/

section Deliver

variable {source : Option Nat} {target : Nat} {piece : Chunk} {released : List Chunk}

theorem subset_deliver : journal ⊆ deliver journal source target piece released := by
  intro observation member
  exact List.mem_append_right _ (List.mem_cons_of_mem _ member)

theorem view_deliver {α : Type} (read : Observation → Option α) :
    view read (deliver journal source target piece released) =
      released.reverse.filterMap (fun chunk => read (.queued target chunk)) ++
        ((read (.reported source target piece)).toList ++ view read journal) := by
  rw [deliver, view_append, view_cons, view, List.filterMap_map]
  rfl

@[simp] theorem reportsTo_deliver (module : Nat) :
    reportsTo (deliver journal source target piece released) module =
      if module = target then piece :: reportsTo journal module else reportsTo journal module := by
  rw [reportsTo, view_deliver, ← reportsTo]
  by_cases same : module = target
  · simp [same]
  · simp [same, Ne.symm same]

@[simp] theorem reportsFrom_deliver (origin : Option Nat) (module : Nat) :
    reportsFrom (deliver journal source target piece released) origin module =
      if origin = source ∧ module = target then piece :: reportsFrom journal origin module
      else reportsFrom journal origin module := by
  rw [reportsFrom, view_deliver, ← reportsFrom]
  by_cases same : origin = source ∧ module = target
  · obtain ⟨rfl, rfl⟩ := same
    simp
  · rw [if_neg same]
    have different : ¬ (source = origin ∧ target = module) :=
      fun both => same ⟨both.1.symm, both.2.symm⟩
    simp [different]

@[simp] theorem queuedOn_deliver (module : Nat) :
    queuedOn (deliver journal source target piece released) module =
      if module = target then released.reverse ++ queuedOn journal module
      else queuedOn journal module := by
  rw [queuedOn, view_deliver, ← queuedOn]
  by_cases same : module = target
  · simp [same]
  · simp [same, Ne.symm same]

@[simp] theorem calledOn_deliver (module : Nat) :
    calledOn (deliver journal source target piece released) module = calledOn journal module := by
  rw [calledOn, view_deliver, ← calledOn]
  simp

@[simp] theorem returnedOn_deliver (module : Nat) :
    returnedOn (deliver journal source target piece released) module =
      returnedOn journal module := by
  rw [returnedOn, view_deliver, ← returnedOn]
  simp

@[simp] theorem performed_deliver (module : Nat) :
    performed (deliver journal source target piece released) module =
      if source = some module then .report target piece :: performed journal module
      else performed journal module := by
  rw [performed, view_deliver, ← performed]
  by_cases same : source = some module <;> simp [same]

end Deliver

/-! ## What was performed -/

/-- The calls performed cover the slots called on. -/
theorem countP_performed_calls (journal : List Observation) (module slot : Nat) :
    (performed journal module).countP (Task.callsSlot slot) =
      Chunk.coverage (calledOn journal module) slot := by
  refine countP_view_eq ?_ journal
  intro observation
  cases observation with
  | called caller chunk => by_cases same : caller = module <;> simp [same, Task.callsSlot]
  | reported source target piece =>
      by_cases same : source = some module <;> simp [same, Task.callsSlot]
  | _ => rfl

/-- The reports performed cover the slots reported. -/
theorem countP_performed_reports (journal : List Observation) (module target slot : Nat) :
    (performed journal module).countP (Task.reportsSlot target slot) =
      Chunk.coverage (reportsFrom journal (some module) target) slot := by
  refine countP_view_eq ?_ journal
  intro observation
  cases observation with
  | called caller chunk => by_cases same : caller = module <;> simp [same, Task.reportsSlot]
  | reported source receiver piece =>
      by_cases same : source = some module <;> by_cases there : receiver = target <;>
        simp [same, there, Task.reportsSlot, List.countP_cons]
  | _ => rfl

/-- **What a module received is what its inputs reported, taken together.** -/
theorem coverage_reportsTo {target : Nat} {inputs : List Nat} (distinct : inputs.Nodup)
    (sourced : ∀ source piece, .reported source target piece ∈ journal →
      ∃ input ∈ inputs, source = some input) (slot : Nat) :
    Chunk.coverage (reportsTo journal target) slot =
      (inputs.map fun input =>
        Chunk.coverage (reportsFrom journal (some input) target) slot).sum := by
  induction journal with
  | nil => simp [reportsTo, reportsFrom, view]
  | cons observation journal ih =>
      have rest := ih fun source piece member =>
        sourced source piece (List.mem_cons_of_mem _ member)
      rw [reportsTo_cons, Chunk.coverage_append, rest]
      simp only [reportsFrom_cons, Chunk.coverage_append, List.sum_map_add]
      congr 1
      cases observation with
      | called caller chunk => simp
      | returned caller chunk result => simp
      | queued receiver chunk => simp
      | reported source receiver piece =>
          by_cases there : receiver = target
          · -- The piece counts for its own sender only, and that one is among the inputs once.
            subst there
            obtain ⟨origin, origin_mem, rfl⟩ := sourced source piece List.mem_cons_self
            have single := List.sum_map_eq_nsmul_single origin
              (fun input => Chunk.coverage ((Observation.reported (some origin) receiver
                piece).reportFrom (some input) receiver).toList slot)
              (l := inputs) (fun other different _ => by simp [Ne.symm different])
            rw [single, List.count_eq_one_of_mem distinct origin_mem, one_smul]
            simp
          · simp [there]

end Journal

end Mixnet
