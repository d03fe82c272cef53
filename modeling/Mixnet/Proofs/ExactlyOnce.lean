import Mixnet.Proofs.Input

/-!
# Every slot is dispatched exactly once

However input is cut and whatever the order in which workers take their steps, nothing is queued,
called or reported twice, and no rule of accounting is ever broken.

## Main definitions

* `Module.Orderly`: what a module has seen of a run without repetition
* `Graph.sample`: a graph of two modules whose sizes differ

## Main statements

* `Graph.exactly_once`: in every state of a calm play, every module is orderly, no worker has met a
  fault, and every further portion of input is taken
-/

namespace Mixnet

open Journal

/-! ## Order in a module -/

/-- A module that has seen nothing twice: only its assignments were queued, each at most once and
within the capacity of its queue; its kernel was called on disjoint chunks of the call size; every
source has reported disjoint pieces to it, and the weight of an assignment is what these pieces put
on it, and not too much. -/
structure Module.Orderly (module : Module) (journal : List Observation) (id : Nat) : Prop where
  queued_assignments : ∀ chunk ∈ queuedOn journal id, ∃ k < module.assignments.size,
    chunk.start = k * module.assignmentSize ∧ chunk.stop = (k + 1) * module.assignmentSize
  queued_once : (queuedOn journal id).Nodup
  roomy : module.queue.chunks.length ≤ module.queue.capacity
  waiting_queued : ∀ chunk ∈ module.queue.chunks, chunk ∈ queuedOn journal id
  calls_apart : (calledOn journal id).Pairwise Chunk.Apart
  calls_sized : ∀ chunk ∈ calledOn journal id, chunk.length = module.callSize
  reports_apart : ∀ source, (reportsFrom journal source id).Pairwise Chunk.Apart
  counted : ∀ k < module.assignments.size, module.assignments.countAt k =
    Chunk.weight (reportsTo journal id) (k * module.assignmentSize)
      ((k + 1) * module.assignmentSize)
  bounded : ∀ k, module.assignments.countAt k ≤ module.assignments.maxCount

namespace Dispatch.Sound

variable {origin dispatch : Dispatch} {first expanded : Nat} {rank : Nat → Nat}

/-- A source reports no slot twice, if the outside does not. -/
theorem reports_apart (sound : Sound origin first dispatch)
    (laid : origin.Laid first expanded rank)
    (fed_once : ∀ slot, Chunk.coverage (reportsTo dispatch.journal first) slot ≤ 1)
    (source : Option Nat) (id : Nat) :
    (reportsFrom dispatch.journal source id).Pairwise Chunk.Apart := by
  rw [Chunk.pairwise_apart_iff]
  intro slot
  by_contra often
  obtain ⟨piece, piece_mem, -⟩ := Chunk.coverage_pos_iff.mp
    (Nat.zero_lt_of_lt (Nat.lt_of_not_le often))
  -- Only a slot that was reported can have been reported twice, so the source is known.
  have known := sound.causal.justified (mem_reportsFrom.mp piece_mem)
  cases source with
  | none =>
      obtain rfl : id = first := known
      exact often ((coverage_reportsFrom_le none id slot).trans (fed_once slot))
  | some input =>
      obtain ⟨⟨module, found, input_mem⟩, -⟩ := known
      exact often (sound.conserved.sparing sound.accounted laid found input input_mem slot)

/-- The calls of a kernel are disjoint, and have the call size. -/
theorem calls (sound : Sound origin first dispatch) (laid : origin.Laid first expanded rank)
    {id : Nat} {module : Module} (found : dispatch.modules[id]? = some module) :
    (calledOn dispatch.journal id).Pairwise Chunk.Apart ∧
      ∀ chunk ∈ calledOn dispatch.journal id, chunk.length = module.callSize := by
  have wired_of_call (chunk : Chunk) (member : chunk ∈ calledOn dispatch.journal id) :
      id < dispatch.sink := by
    rw [sound.accounted.sink_eq]
    exact (sound.causal.justified (mem_calledOn.mp member)).1
  constructor
  · rw [Chunk.pairwise_apart_iff]
    intro slot
    by_contra often
    obtain ⟨chunk, member, -⟩ := Chunk.coverage_pos_iff.mp
      (Nat.zero_lt_of_lt (Nat.lt_of_not_le often))
    exact often (sound.conserved.calls_once sound.accounted laid found (wired_of_call chunk member)
      slot)
  · intro chunk member
    obtain ⟨assignment, queued, asked⟩ :=
      sound.conserved.of_called found (wired_of_call chunk member) (mem_calledOn.mp member)
    exact (sound.accounted.fits laid found).call_length
      ((sound.accounted.kept id module found).assigned queued) asked

/-- **Every module of a sound state is orderly**, if the first was fed no slot twice. -/
theorem orderly (sound : Sound origin first dispatch) (laid : origin.Laid first expanded rank)
    (fed_once : ∀ slot, Chunk.coverage (reportsTo dispatch.journal first) slot ≤ 1)
    {id : Nat} {module : Module} (found : dispatch.modules[id]? = some module) :
    module.Orderly dispatch.journal id := by
  have kept := sound.accounted.kept id module found
  have fits := sound.accounted.fits laid found
  obtain ⟨calls_apart, calls_sized⟩ := sound.calls laid found
  refine ⟨?_, kept.nodup fits, kept.roomy fits, ?_, calls_apart, calls_sized, ?_, ?_,
    kept.accounts.bounded⟩
  · intro chunk member
    obtain ⟨k, inside, rfl⟩ := AssignmentList.mem_all.mp (kept.assigned member)
    obtain ⟨start_eq, stop_eq⟩ := fits.sized.assignment_bounds inside
    rw [fits.unit_eq] at start_eq stop_eq
    rw [← Nat.succ_mul] at stop_eq
    exact ⟨k, inside, start_eq, stop_eq⟩
  · intro chunk member
    exact kept.waiting_sub.subset member
  · intro source
    exact sound.reports_apart laid fed_once source id
  · intro k inside
    rw [kept.accounts.count_eq k inside, AssignmentList.load, fits.unit_eq, Nat.succ_mul]

end Dispatch.Sound

namespace Graph

/-! ## A graph of two modules -/

/-- A module that computes nothing. -/
def sampleModule (name : String) (assignmentSize chunkSize : Nat) : ModuleSpec :=
  { ModuleSpec.plain name .idle with assignmentSize, chunkSize }

/-- Two modules in a row.  The second works on assignments of twice the size. -/
def sample : Graph where
  name := "sample"
  settings := { minSlotSize := 1, defaultThreads := 1, outputThreshold := .zero, handled := false }
  stream := .blank "nothing"
  wiring := {
    modules := [sampleModule "left" 2 1, sampleModule "right" 4 2]
    edges := [(0, 1)]
    first := some 0
    last := some 1 }
  state := .unbuilt
  plan := none
  dispatch := none

theorem sample_wired : sample.Wired := by
  have empty : (Graph.create "sample" sample.settings (.blank "nothing")).Wired :=
    .create (show GraphSettings.create 1 1 .zero = .ok sample.settings from rfl)
  have left := empty.addModule (show addModule _ (sampleModule "left" 2 1) = .ok (0, _) from rfl)
  have right := left.addModule (show addModule _ (sampleModule "right" 4 2) = .ok (1, _) from rfl)
  have edge := right.connect (show connect _ 0 1 = .ok _ from rfl)
  have entrance := edge.setFirst (show setFirst _ 0 = .ok _ from rfl)
  exact entrance.setLast (show setLast _ 1 = .ok sample from rfl)

theorem sample_few (module : Nat) : (sample.wiring.inputsOf module).length < Word.limit 32 := by
  have bound : (sample.wiring.inputsOf module).length ≤ sample.wiring.edges.length := by
    rw [Wiring.inputsOf, List.length_map]
    exact List.length_filter_le _ _
  exact bound.trans_lt (by decide)

/-- All the steps of a worker on an assignment that it cuts into two pieces of one call each. -/
def sampleWork (worker : Nat) : List Dispatch.Step :=
  [.take worker, .enter worker, .leave worker (.ok ()), .proceed worker, .proceed worker,
    .enter worker, .leave worker (.ok ()), .proceed worker, .proceed worker, .proceed worker]

/-- The first three slots. -/
def front : Chunk := { start := 0, stop := 3 }

/-- The fourth slot. -/
def back : Chunk := { start := 3, stop := 4 }

/-- A whole run on four slots, sent in two portions that are no assignments. -/
def sampleRun : List Event :=
  [.link (.create ⟨7, 2⟩ 4 4), .start, .send front, .send back] ++
  (sampleWork 0 ++ sampleWork 0 ++ Dispatch.Step.depart 0 :: sampleWork 1 ++
    [Dispatch.Step.depart 1]).map .work

theorem sample_calm : Calm sampleRun := by
  simp [Calm, sampleRun, sampleWork, Event.Calm]

theorem sample_portions : Portions 4 (sent sampleRun) := by
  have sent_eq : sent sampleRun = [front, back] := rfl
  rw [sent_eq]
  refine ⟨by simp [front, back], by simp [front, back], ?_⟩
  simp only [List.pairwise_pair, Chunk.Apart, Chunk.covers_iff, front, back]
  omega

/-- The sample, built for four slots. -/
def sampleBuilt : Graph := (sample.build 4).toOption.getD sample

theorem sample_build : sample.build 4 = .ok sampleBuilt := by rfl

theorem sampleBuilt_expandedSize : sampleBuilt.expandedSize = 4 := by rfl

/-! ## Exactly once -/

/-- **Every slot is dispatched exactly once, under every schedule.**  In every state of a calm play
that has sent disjoint portions of the batch: no worker has met a fault, a further portion is taken
without one, and every module is orderly. -/
theorem exactly_once {graph built after : Graph} {batch : Nat} {events : List Event}
    (wired : graph.Wired)
    (few : ∀ module, (graph.wiring.inputsOf module).length < Word.limit 32)
    (building : graph.build batch = .ok built) (calm : Calm events)
    (portions : Portions built.expandedSize (sent events))
    (played : built.play events = some after) :
    ∃ dispatch, after.dispatch = some dispatch ∧
      (∀ worker ∈ dispatch.workers, ∀ fault, worker.activity ≠ .crashed fault) ∧
      (∀ chunk, Portions built.expandedSize (sent events ++ [chunk]) →
        ∃ answer next, after.send chunk = (.ok answer, next)) ∧
      ∀ (id : Nat) module, dispatch.modules[id]? = some module →
        module.Orderly dispatch.journal id := by
  obtain ⟨-, origin, first, last, rank, building⟩ := build_built wired few building
  obtain ⟨dispatch, reached⟩ := reached_of_play building played
  have running := (reached.calm calm).1
  have fed_once (slot : Nat) : Chunk.coverage (reportsTo dispatch.journal first) slot ≤ 1 := by
    rw [reached.coverage_first running]
    exact portions.coverage_le slot
  refine ⟨dispatch, reached.dispatch_eq, ?_, ?_, ?_⟩
  · intro worker member fault crashed
    obtain ⟨position, here⟩ := Array.mem_iff_getElem?.mp member
    have worker_sound := (reached.sound.staffed position worker here).2
    simp only [Worker.Sound, crashed] at worker_sound
  · intro chunk further
    exact reached.takes building running further
  · intro id module found
    exact reached.sound.orderly building.laid fed_once found

theorem exactly_once_sample : ∃ after, sampleBuilt.play sampleRun = some after ∧
    ∃ dispatch, after.dispatch = some dispatch ∧
      (∀ worker ∈ dispatch.workers, ∀ fault, worker.activity ≠ .crashed fault) ∧
      (∀ chunk, Portions sampleBuilt.expandedSize (sent sampleRun ++ [chunk]) →
        ∃ answer next, after.send chunk = (.ok answer, next)) ∧
      ∀ (id : Nat) module, dispatch.modules[id]? = some module →
        module.Orderly dispatch.journal id := by
  have plays : (sampleBuilt.play sampleRun).isSome = true := by decide +kernel
  obtain ⟨after, played⟩ := Option.isSome_iff_exists.mp plays
  have portions : Portions sampleBuilt.expandedSize (sent sampleRun) := by
    rw [sampleBuilt_expandedSize]
    exact sample_portions
  exact ⟨after, played,
    exactly_once sample_wired sample_few sample_build sample_calm portions played⟩

end Graph

end Mixnet
