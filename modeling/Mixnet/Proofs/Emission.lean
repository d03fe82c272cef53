import Mixnet.Proofs.Completion
import Mixnet.Proofs.Processing
import Mixnet.Proofs.Standstill

/-!
# What the sink emits

The sink queues finished chunks, and whoever asks for output takes the oldest of them.  So what the
sink has emitted is what has been taken, followed by what waits.  No worker works for the sink, and
one module reports to it, so that its accounts are in order unless a worker has met a fault.  Then a
complete graph has emitted the batch, cut at the grain of the sink, in some order.

## Main definitions

* `Chunk.Tiling`: a batch cut into chunks of one size, in any order
* `Dispatch.emitted`, `Graph.emitted`: the chunks that the sink has emitted
* `Graph.taken`: those of them that have been taken
* `Dispatch.Unharmed`, `Graph.Unharmed`: no worker has met a fault
* `Dispatch.Pours`: what the sink emits goes behind what waits
* `Dispatch.Metered`: the sink agrees with the journal
* `Graph.Emits`: what holds of the sink of a graph that has been built

## Main statements

* `Graph.Emits.touched`: whatever happens to a graph, its sink stays in order
* `Graph.Emits.taken_eq_of_proceeds`: only who asks for output takes any
* `Graph.Emits.tiling`: a complete graph has emitted the whole batch

## Design notes

None of this asks how many inputs a module has.  A report that is refused is a fault of the worker
that made it, and the worker stays where it is, so that a graph without such a worker has refused
nothing.
-/

namespace Mixnet

open Journal

/-! ## Tilings -/

/-- Some chunks are a batch cut into chunks of `grain` slots, in any order. -/
structure Chunk.Tiling (grain expanded : Nat) (chunks : List Chunk) : Prop where
  positive : 0 < grain
  divides : grain ∣ expanded
  bounds : (chunks.map fun chunk => (chunk.start, chunk.stop)).Perm
    ((List.range (expanded / grain)).map fun index => (index * grain, (index + 1) * grain))

/-- A tiling covers the batch. -/
theorem Chunk.Tiling.coverage_pos {grain expanded slot : Nat} {chunks : List Chunk}
    (tiling : Chunk.Tiling grain expanded chunks) (inside : slot < expanded) :
    0 < Chunk.coverage chunks slot := by
  have index_lt : slot / grain < expanded / grain :=
    Nat.div_lt_div_of_lt_of_dvd tiling.divides inside
  have cut : (slot / grain * grain, (slot / grain + 1) * grain) ∈
      chunks.map fun chunk => (chunk.start, chunk.stop) :=
    tiling.bounds.mem_iff.mpr (List.mem_map.mpr ⟨slot / grain, List.mem_range.mpr index_lt, rfl⟩)
  obtain ⟨chunk, member, bounds⟩ := List.mem_map.mp cut
  obtain ⟨start_eq, stop_eq⟩ := Prod.mk.inj bounds
  refine Chunk.coverage_pos_iff.mpr ⟨chunk, member, Chunk.covers_iff.mpr ⟨?_, ?_⟩⟩
  · rw [start_eq]
    exact Nat.div_mul_le_self slot grain
  · rw [stop_eq, Nat.mul_comm]
    exact Nat.lt_mul_div_succ slot tiling.positive

/-! ## The sink among the modules -/

/-- Whether a worker has met a fault. -/
def Worker.isCrashed (worker : Worker) : Bool :=
  match worker.activity with
  | .crashed _ => true
  | _ => false

namespace Dispatch

variable {dispatch before between after : Dispatch} {source : Option Nat}
  {target first grain expanded : Nat} {piece : Chunk} {stage : GraphState} {step : Step}
  {sink : Module}

/-- The chunks that the sink has emitted, oldest first. -/
def emitted (dispatch : Dispatch) : List Chunk := (queuedOn dispatch.journal dispatch.sink).reverse

/-- No worker has met a fault. -/
def Unharmed (dispatch : Dispatch) : Prop :=
  ∀ worker ∈ dispatch.workers, worker.isCrashed = false

instance : Decidable dispatch.Unharmed :=
  inferInstanceAs (Decidable (∀ worker ∈ dispatch.workers, worker.isCrashed = false))

/-- What the sink emits from one state to a later one goes behind what waits there. -/
def Pours (before after : Dispatch) : Prop :=
  ∃ more, after.waiting after.sink = before.waiting before.sink ++ more ∧
    after.emitted = before.emitted ++ more

theorem Pours.of_same (waiting_eq : after.waiting after.sink = before.waiting before.sink)
    (emitted_eq : after.emitted = before.emitted) : before.Pours after :=
  ⟨[], waiting_eq.trans (List.append_nil _).symm, emitted_eq.trans (List.append_nil _).symm⟩

/-- A report to the sink lets it emit what is released. -/
theorem Primes.pours (primes : dispatch.Primes source target piece after) :
    dispatch.Pours after := by
  cases primes with
  | missed => exact .of_same rfl rfl
  | @counted module assignments found =>
      have waits := waiting_setModule found { module with assignments } dispatch.sink
      refine .of_same (waits.trans ?_) (congrArg List.reverse (queuedOn_cons _ _))
      split
      case isTrue here => rw [here, Dispatch.waiting_eq found]
      case isFalse => rfl
  | @queued module assignments released closed complete found =>
      have waits := waiting_setModule found { module with
        assignments, queue := { module.queue with
          chunks := module.queue.chunks ++ released, closed } } dispatch.sink
      have queued : queuedOn (deliver dispatch.journal source target piece released)
          dispatch.sink = _ := queuedOn_deliver dispatch.sink
      by_cases here : dispatch.sink = target
      · rw [if_pos here] at waits queued
        have waited : module.queue.chunks = dispatch.waiting dispatch.sink := by
          rw [here, Dispatch.waiting_eq found]
        refine ⟨released, waits.trans (congrArg (· ++ released) waited),
          (congrArg List.reverse queued).trans ?_⟩
        rw [List.reverse_append, List.reverse_reverse]
        rfl
      · rw [if_neg here] at waits queued
        exact .of_same waits (congrArg List.reverse queued)

theorem pours_terminate (dispatch : Dispatch) : dispatch.Pours dispatch.terminate.2 := by
  have sink_eq : dispatch.terminate.2.sink = dispatch.sink :=
    (Evolves.terminate dispatch).sink_eq
  obtain ⟨-, journal_eq, -⟩ := dispatch.terminate_eq
  refine .of_same ?_ ?_
  · rw [sink_eq, waiting_terminate]
  · rw [emitted, journal_eq, sink_eq]
    rfl

/-- A kernel that fails takes nothing from the sink. -/
theorem pours_fail (dispatch : Dispatch) (module : Nat) (error : KernelError) :
    dispatch.Pours (dispatch.fail module error) := by
  obtain ⟨more, waits, emits⟩ := pours_terminate { dispatch with
    failure := dispatch.failure.or (some { module := dispatch.moduleName module, error }) }
  exact ⟨more, waits, emits⟩

/-- **No step of a worker takes from the sink.** -/
theorem Moves.pours (moved : dispatch.Moves step after)
    (working : Graph.Working first stage dispatch) : dispatch.Pours after := by
  cases moved with
  -- Workers belong to modules of the wiring, and the sink is none of them.
  | took here idle found =>
      exact .of_same ((waiting_setModule found _ _).trans (if_neg (working.inside here).ne')) rfl
  | dropped here idle found =>
      exact .of_same ((waiting_setModule found _ _).trans (if_neg (working.inside here).ne')) rfl
  | entered => exact .of_same rfl (congrArg List.reverse (queuedOn_cons _ _))
  | returned => exact .of_same rfl (congrArg List.reverse (queuedOn_cons _ _))
  | @failed position worker chunk rest error =>
      obtain ⟨more, waits, emits⟩ := pours_fail ((dispatch.observe
        (.returned worker.module chunk (.error error))).setActivity position .idle)
        worker.module error
      refine ⟨more, waits, emits.trans (congrArg (· ++ more) ?_)⟩
      exact congrArg List.reverse (queuedOn_cons _ _)
  | reported here asked done => exact (primes_of_prime done).pours
  | crashed here asked refused => exact (primes_of_prime refused).pours
  | finished | passed | stopped | departed => exact .of_same rfl rfl

/-- A worker that has met a fault stays where it is. -/
theorem Moves.unharmed (moved : dispatch.Moves step after) (unharmed : after.Unharmed) :
    dispatch.Unharmed := by
  intro worker member
  obtain ⟨position, here⟩ := Array.mem_iff_getElem?.mp member
  by_cases own : position = step.position
  · rw [Worker.isCrashed]
    split
    case h_1 fault struck => exact (moved.not_crashed (own ▸ here) struck).elim
    case h_2 => rfl
  · exact unharmed worker (Array.mem_of_getElem? ((moved.others own).trans here))

/-! ## The accounts of the sink -/

/-- The sink agrees with the journal, and the graph is complete if the sink has queued
everything. -/
structure Metered (grain expanded : Nat) (dispatch : Dispatch) (sink : Module) : Prop where
  found : dispatch.modules[dispatch.sink]? = some sink
  fits : sink.Fits expanded
  unit_eq : sink.assignmentSize = grain
  kept : sink.Kept dispatch.terminated (reportsTo dispatch.journal dispatch.sink)
    (queuedOn dispatch.journal dispatch.sink)
  complete_iff : dispatch.complete = true ↔ sink.assignments.completed = sink.assignments.size

namespace Metered

/-- What others do is no concern of the sink. -/
theorem of_same (metered : dispatch.Metered grain expanded sink)
    (sink_eq : after.sink = dispatch.sink)
    (found : after.modules[dispatch.sink]? = some sink)
    (flags_eq : after.complete = dispatch.complete ∧ after.terminated = dispatch.terminated)
    (reports_eq : reportsTo after.journal dispatch.sink = reportsTo dispatch.journal dispatch.sink)
    (queued_eq : queuedOn after.journal dispatch.sink = queuedOn dispatch.journal dispatch.sink) :
    after.Metered grain expanded sink := by
  obtain ⟨complete_eq, terminated_eq⟩ := flags_eq
  refine ⟨by rw [sink_eq, found], metered.fits, metered.unit_eq, ?_, ?_⟩
  · rw [terminated_eq, sink_eq, reports_eq, queued_eq]
    exact metered.kept
  · rw [complete_eq]
    exact metered.complete_iff

/-- Another module is put in place of one that is not the sink. -/
theorem setModule (metered : dispatch.Metered grain expanded sink) {id : Nat} {module : Module}
    (found : dispatch.modules[id]? = some module) (next : Module) (elsewhere : id ≠ dispatch.sink) :
    (dispatch.setModule id next).Metered grain expanded sink := by
  refine metered.of_same rfl ?_ ⟨rfl, rfl⟩ rfl rfl
  show (dispatch.modules.setIfInBounds id next)[dispatch.sink]? = _
  rw [getElem?_setIfInBounds found, if_neg elsewhere.symm, metered.found]

/-- A report to another module. -/
theorem primes (metered : dispatch.Metered grain expanded sink)
    (primes : dispatch.Primes source target piece after) (elsewhere : target ≠ dispatch.sink) :
    after.Metered grain expanded sink := by
  have flags_eq := primes.flags_eq elsewhere
  cases primes with
  | missed => exact metered
  | @counted module assignments found =>
      have seen : (dispatch.observe (.reported source target piece)).Metered grain expanded sink :=
        metered.of_same rfl metered.found ⟨rfl, rfl⟩ (by simp [observe, elsewhere])
          (by simp [observe])
      exact seen.setModule found _ elsewhere
  | @queued module assignments released closed complete found =>
      have apart := metered.setModule found { module with assignments, queue := { module.queue with
        chunks := module.queue.chunks ++ released, closed } } elsewhere
      refine metered.of_same rfl apart.found flags_eq ?_ ?_
      · exact (reportsTo_deliver dispatch.sink).trans (if_neg elsewhere.symm)
      · exact (queuedOn_deliver dispatch.sink).trans (if_neg elsewhere.symm)

/-- **A report that is accepted keeps the sink in agreement.** -/
theorem primed (metered : dispatch.Metered grain expanded sink) {last : Bool}
    (done : dispatch.prime source target piece = (.ok last, after)) :
    ∃ next, after.Metered grain expanded next := by
  by_cases here : target = dispatch.sink
  · subst here
    obtain ⟨module, out, list, found, accepted⟩ := prime_accepted done
    obtain rfl := Option.some.inj (metered.found.symm.trans found)
    obtain ⟨next, released, final, delivers⟩ :=
      prime_delivers found metered.fits.sized metered.kept accepted source
    obtain ⟨-, rfl⟩ := Prod.mk.inj (done.symm.trans delivers.prime_eq)
    obtain ⟨inside, -⟩ := Array.getElem?_eq_some_iff.mp found
    refine ⟨next, Array.getElem?_setIfInBounds_self_of_lt inside,
      metered.fits.of_fresh_eq delivers.fresh_eq, ?_, ?_, ?_⟩
    · exact (congrArg Module.assignmentSize delivers.fresh_eq).trans metered.unit_eq
    · show next.Kept dispatch.terminated (reportsTo (deliver _ _ _ _ _) dispatch.sink)
        (queuedOn (deliver _ _ _ _ _) dispatch.sink)
      rw [reportsTo_deliver, queuedOn_deliver, if_pos rfl, if_pos rfl]
      exact delivers.kept
    · show (dispatch.complete || (final && decide (dispatch.sink = dispatch.sink))) = true ↔ _
      rw [decide_eq_true rfl, Bool.and_true, Bool.or_eq_true, metered.complete_iff]
      exact delivers.complete_iff metered.kept
  · exact ⟨sink, metered.primes (primes_of_prime done) here⟩

/-- Ending all work closes the sink. -/
theorem terminate (metered : dispatch.Metered grain expanded sink) :
    ∃ next, dispatch.terminate.2.Metered grain expanded next := by
  unfold Dispatch.terminate
  split
  case isTrue => exact ⟨sink, metered⟩
  case isFalse =>
    refine ⟨{ sink with queue := sink.queue.close.2 }, ?_, metered.fits.of_fresh_eq rfl,
      metered.unit_eq, metered.kept.ended, metered.complete_iff⟩
    rw [Array.getElem?_map, metered.found, Option.map_some]

/-- A kernel that fails closes the sink. -/
theorem fail (metered : dispatch.Metered grain expanded sink) (module : Nat)
    (error : KernelError) : ∃ next, (dispatch.fail module error).Metered grain expanded next := by
  have noted : Metered grain expanded { dispatch with
      failure := dispatch.failure.or (some { module := dispatch.moduleName module, error }) }
      sink :=
    metered.of_same rfl metered.found ⟨rfl, rfl⟩ rfl rfl
  exact noted.terminate

/-- Chunks are taken from the sink. -/
theorem withWaiting (metered : dispatch.Metered grain expanded sink) {rest : List Chunk}
    (fewer : rest.Sublist sink.queue.chunks) :
    (dispatch.setModule dispatch.sink (sink.withWaiting rest)).Metered grain expanded
      (sink.withWaiting rest) := by
  obtain ⟨inside, -⟩ := Array.getElem?_eq_some_iff.mp metered.found
  exact ⟨Array.getElem?_setIfInBounds_self_of_lt inside, metered.fits.of_fresh_eq rfl,
    metered.unit_eq, metered.kept.withWaiting fewer, metered.complete_iff⟩

/-- **A step of a worker keeps the sink in agreement**, unless the worker meets a fault. -/
theorem moves (metered : dispatch.Metered grain expanded sink) (moved : dispatch.Moves step after)
    (working : Graph.Working first stage dispatch) (unharmed : after.Unharmed) :
    ∃ next, after.Metered grain expanded next := by
  cases moved with
  | @took position worker module chunk rest here idle found =>
      have apart := metered.setModule found (module.withWaiting rest) (working.inside here).ne
      exact ⟨sink, apart.of_same rfl apart.found ⟨rfl, rfl⟩ rfl rfl⟩
  | dropped here idle found =>
      exact ⟨sink, metered.setModule found _ (working.inside here).ne⟩
  | entered | returned =>
      exact ⟨sink, metered.of_same rfl metered.found ⟨rfl, rfl⟩ (reportsTo_cons _ _)
        (queuedOn_cons _ _)⟩
  | @failed position worker chunk rest error =>
      have seen : ((dispatch.observe (.returned worker.module chunk (.error error))).setActivity
          position .idle).Metered grain expanded sink :=
        metered.of_same rfl metered.found ⟨rfl, rfl⟩ (reportsTo_cons _ _) (queuedOn_cons _ _)
      exact seen.fail worker.module error
  | reported here asked done =>
      obtain ⟨next, agrees⟩ := metered.primed done
      exact ⟨next, agrees.of_same rfl agrees.found ⟨rfl, rfl⟩ rfl rfl⟩
  | @crashed position target worker piece rest fault primed here asked refused =>
      have there := getElem?_setActivity ((primes_of_prime refused).workers_eq ▸ here)
        (.crashed fault) position
      rw [if_pos rfl] at there
      cases unharmed _ (Array.mem_of_getElem? there)
  | finished | passed | stopped | departed =>
      exact ⟨sink, metered.of_same rfl metered.found ⟨rfl, rfl⟩ rfl rfl⟩

/-- **A sink that has queued everything has emitted the batch**, cut at its grain. -/
theorem tiling (metered : dispatch.Metered grain expanded sink)
    (complete : dispatch.complete = true) : Chunk.Tiling grain expanded dispatch.emitted := by
  have everything := metered.kept.queued_perm_all (metered.complete_iff.mp complete)
  have unit_eq := metered.fits.unit_eq.trans metered.unit_eq
  have sized := metered.fits.sized
  rw [← unit_eq]
  refine ⟨sized.positive, Dvd.intro_left _ sized.covering, ?_⟩
  rw [← Graph.map_bounds_all sized]
  exact ((List.reverse_perm _).trans everything).map _

end Metered

end Dispatch

/-! ## Graphs -/

namespace Graph

variable {graph built after : Graph} {dispatch : Dispatch} {first batch : Nat} {event : Event}
  {front left : List Chunk}

/-- The chunks that the sink has emitted, oldest first. -/
def emitted (graph : Graph) : List Chunk := (graph.dispatch.map Dispatch.emitted).getD []

/-- The emitted chunks that wait no more, oldest first. -/
def taken (graph : Graph) : List Chunk :=
  graph.emitted.take (graph.emitted.length - graph.pendingOutput.length)

/-- No worker has met a fault. -/
def Unharmed (graph : Graph) : Prop := ∀ dispatch ∈ graph.dispatch, dispatch.Unharmed

instance : Decidable graph.Unharmed :=
  inferInstanceAs (Decidable (∀ dispatch ∈ graph.dispatch, dispatch.Unharmed))

theorem emitted_eq (found : graph.dispatch = some dispatch) :
    graph.emitted = dispatch.emitted := by
  rw [emitted, found, Option.map_some, Option.getD_some]

theorem taken_eq_of_append (split : graph.emitted = front ++ graph.pendingOutput) :
    graph.taken = front := by
  rw [taken, split, List.length_append, Nat.add_sub_cancel, List.take_left]

/-- What holds of the sink of a graph that has been built. -/
structure Emits (graph : Graph) (first : Nat) (dispatch : Dispatch) : Prop
    extends graph.Operates first dispatch where
  behind : dispatch.waiting dispatch.sink <:+ dispatch.emitted
  metered : dispatch.Unharmed →
    ∃ sink, dispatch.Metered graph.settings.minSlotSize graph.expandedSize sink

namespace Emits

/-- What has been emitted has been taken, or waits. -/
theorem emitted_split (emits : graph.Emits first dispatch) :
    graph.emitted = graph.taken ++ graph.pendingOutput := by
  obtain ⟨front, split⟩ := emits.behind
  have whole : graph.emitted = front ++ graph.pendingOutput := by
    rw [emitted_eq emits.dispatch_eq, pendingOutput_eq emits.dispatch_eq, split]
  rw [taken_eq_of_append whole, whole]

/-- **A complete graph without a worker that has met a fault has emitted the whole batch.** -/
theorem tiling (emits : graph.Emits first dispatch) (unharmed : graph.Unharmed)
    (complete : graph.isComplete = true) :
    Chunk.Tiling graph.settings.minSlotSize graph.expandedSize graph.emitted := by
  obtain ⟨sink, metered⟩ := emits.metered (unharmed dispatch emits.dispatch_eq)
  rw [isComplete_eq emits.dispatch_eq] at complete
  rw [emitted_eq emits.dispatch_eq]
  exact metered.tiling complete

/-- An event that takes no output lets the sink emit. -/
theorem pours (emits : graph.Emits first dispatch) (acted : graph.act event = some after)
    (other : event ≠ .collect) :
    ∃ next, after.dispatch = some next ∧ dispatch.Pours next := by
  cases acts_of_act emits.dispatch_eq acted with
  | kept | linked => exact ⟨dispatch, emits.dispatch_eq, .of_same rfl rfl⟩
  | started => exact ⟨_, rfl, .of_same rfl rfl⟩
  | sent done => exact ⟨_, rfl, (Dispatch.primes_of_prime done).pours⟩
  | worked moved => exact ⟨_, rfl, moved.pours emits.working⟩
  | collected => exact (other rfl).elim
  | killed =>
      obtain ⟨more, waits, pours⟩ := dispatch.pours_terminate
      exact ⟨_, rfl, more, waits, pours⟩

/-- **Every event keeps the sink in order.** -/
theorem act (emits : graph.Emits first dispatch) (acted : graph.act event = some after) :
    ∃ next, after.Emits first next := by
  obtain ⟨next, operates, -⟩ := emits.toOperates.act acted
  obtain ⟨dispatch_eq, -, working⟩ := emits.toOperates
  have behind : next.waiting next.sink <:+ next.emitted := by
    obtain ⟨front, split⟩ := emits.behind
    by_cases collects : event = .collect
    · subst collects
      cases acts_of_act dispatch_eq acted with
      | kept =>
          obtain rfl := Option.some.inj (dispatch_eq.symm.trans operates.dispatch_eq)
          exact emits.behind
      | @collected sink chunk rest found waiting =>
          obtain rfl := Option.some.inj operates.dispatch_eq
          refine List.IsSuffix.trans ?_ emits.behind
          show (dispatch.setModule _ _).waiting dispatch.sink <:+ _
          rw [Dispatch.waiting_setModule found, if_pos rfl, Dispatch.waiting_eq found, waiting]
          exact List.suffix_cons chunk rest
    · obtain ⟨same, same_eq, more, waits, pours⟩ := emits.pours acted collects
      obtain rfl := Option.some.inj (operates.dispatch_eq.symm.trans same_eq)
      rw [waits, pours]
      exact ⟨front, by rw [← split, List.append_assoc]⟩
  refine ⟨next, operates, behind, fun unharmed => ?_⟩
  cases acts_of_act dispatch_eq acted with
  | kept | linked =>
      obtain rfl := Option.some.inj (dispatch_eq.symm.trans operates.dispatch_eq)
      exact emits.metered unharmed
  | started linked =>
      obtain rfl := Option.some.inj operates.dispatch_eq
      -- A graph that is only linked has no workers.
      have idle : dispatch.Unharmed := by
        intro worker member
        rw [(working.early (Or.inr linked)).1] at member
        cases Array.not_mem_empty worker member
      obtain ⟨sink, metered⟩ := emits.metered idle
      exact ⟨sink, metered.of_same rfl metered.found ⟨rfl, rfl⟩ rfl rfl⟩
  | sent done =>
      obtain rfl := Option.some.inj operates.dispatch_eq
      have before : dispatch.Unharmed := by
        rw [Dispatch.Unharmed, (Dispatch.primes_of_prime done).workers_eq] at unharmed
        exact unharmed
      obtain ⟨sink, metered⟩ := emits.metered before
      exact metered.primed done
  | worked moved =>
      obtain rfl := Option.some.inj operates.dispatch_eq
      obtain ⟨sink, metered⟩ := emits.metered (moved.unharmed unharmed)
      exact metered.moves moved working unharmed
  | @collected sink chunk rest found waiting =>
      obtain rfl := Option.some.inj operates.dispatch_eq
      obtain ⟨same, metered⟩ := emits.metered unharmed
      obtain rfl := Option.some.inj (found.symm.trans metered.found)
      exact ⟨_, metered.withWaiting (waiting ▸ List.sublist_cons_self chunk rest)⟩
  | killed =>
      obtain rfl := Option.some.inj operates.dispatch_eq
      obtain ⟨workers_eq, -⟩ := dispatch.terminate_eq
      have before : dispatch.Unharmed := by
        rw [Dispatch.Unharmed, workers_eq] at unharmed
        exact unharmed
      obtain ⟨sink, metered⟩ := emits.metered before
      obtain ⟨closed, metered⟩ := metered.terminate
      exact ⟨closed, metered.of_same rfl metered.found ⟨rfl, rfl⟩ rfl rfl⟩

/-- The stream is no concern of the sink. -/
theorem stream (emits : graph.Emits first dispatch) (stream : Stream) :
    Emits { graph with stream } first dispatch :=
  ⟨⟨emits.dispatch_eq, emits.entrance, emits.working⟩, emits.behind, emits.metered⟩

/-- **Whatever happens to a graph, its sink stays in order.** -/
theorem touched (emits : graph.Emits first dispatch) (touched : graph.Touched after) :
    ∃ next, after.Emits first next := by
  cases touched with
  | acted acted => exact emits.act acted
  | streamed stream => exact ⟨dispatch, emits.stream stream⟩

theorem becomes (emits : graph.Emits first dispatch) (becomes : graph.Becomes after) :
    ∃ next, after.Emits first next := by
  induction becomes with
  | refl => exact ⟨dispatch, emits⟩
  | tail _ touched ih =>
      obtain ⟨between, emits⟩ := ih
      exact emits.touched touched

/-- **Only who asks for output takes any.** -/
theorem taken_eq_of_proceeds (emits : graph.Emits first dispatch)
    (proceeds : graph.Proceeds after) : after.taken = graph.taken := by
  induction proceeds with
  | refl => rfl
  | @tail between after earlier stirred ih =>
      obtain ⟨middle, emits⟩ := emits.becomes (Proceeds.becomes earlier)
      rw [← ih]
      cases stirred with
      | streamed stream => rfl
      | acted acted other =>
          obtain ⟨next, next_eq, more, waits, pours⟩ := emits.pours acted other
          apply taken_eq_of_append
          rw [emitted_eq next_eq, pendingOutput_eq next_eq, waits, pours,
            ← pendingOutput_eq emits.dispatch_eq, ← emitted_eq emits.dispatch_eq,
            emits.emitted_split, List.append_assoc]

/-- The grain and the expanded size of a graph that has been built are final. -/
theorem sizes_eq (emits : graph.Emits first dispatch) (becomes : graph.Becomes after) :
    after.settings = graph.settings ∧ after.expandedSize = graph.expandedSize := by
  induction becomes with
  | refl => exact ⟨rfl, rfl⟩
  | @tail between after earlier touched ih =>
      obtain ⟨middle, emits⟩ := emits.becomes earlier
      rw [← ih.1, ← ih.2]
      cases touched with
      | streamed stream => exact ⟨rfl, rfl⟩
      | acted acted =>
          cases acts_of_act emits.dispatch_eq acted <;> exact ⟨rfl, rfl⟩

end Emits

/-- The batch fits into its expanded size. -/
theorem batch_le_of_build (done : graph.build batch = .ok built) :
    batch ≤ built.expandedSize := by
  unfold build at done
  obtain ⟨-, done⟩ := Invariant.require_bind_eq_ok.mp done
  obtain ⟨compiled, compiles, done⟩ := Fault.bind_eq_ok.mp done
  obtain ⟨modules, -, done⟩ := Fault.bind_eq_ok.mp done
  obtain ⟨sink, -, done⟩ := Fault.bind_eq_ok.mp done
  injection done with done
  obtain ⟨order, -, compiles⟩ := Fault.bind_eq_ok.mp compiles
  obtain ⟨expanded, expands, compiles⟩ := Fault.bind_eq_ok.mp compiles
  obtain ⟨resolved, -, compiles⟩ := Fault.bind_eq_ok.mp compiles
  injection compiles with compiles
  subst compiles done
  exact (expandBatchSize_dvd expands).1

/-- **A graph that has just been built has emitted nothing**, and its sink is in order. -/
theorem emits_of_build (wired : graph.Wired) (done : graph.build batch = .ok built) :
    (∃ first dispatch, built.Emits first dispatch) ∧ built.emitted = [] := by
  obtain ⟨first, dispatch, dispatch_eq, entrance, working⟩ := build_working wired.valid.1 done
  obtain ⟨plan, _, last, modules, sink, compiled, rfl⟩ := build_compiled done
  obtain rfl := Option.some.inj dispatch_eq
  have sinking : Sinking graph.settings plan.expandedSize last sink := by
    refine buildSink_sinking wired.valid.2 compiled.expanded_lt ?_ compiled.sink_made
    have divides := compiled.grain_dvd
    rwa [Nat.max_eq_left wired.valid.2] at divides
  obtain ⟨fresh_eq, accounts⟩ := sinking.unworked
  obtain ⟨completed_eq, -, -, -, size_pos⟩ :=
    sinking.fits.unworked compiled.expanded_pos fresh_eq accounts
  have found : (modules ++ [sink]).toArray[graph.wiring.size]? = some sink := by
    rw [List.getElem?_toArray, ← compiled.length_eq, List.getElem?_concat_length]
  refine ⟨⟨first, _, ⟨rfl, entrance, working⟩, ?_, fun _ => ⟨sink, ?_⟩⟩, rfl⟩
  · have nothing : (Dispatch.create (modules ++ [sink]).toArray graph.wiring.size).waiting
        graph.wiring.size = [] := by
      rw [Dispatch.waiting_eq found, ← fresh_eq]
      rfl
    exact nothing ▸ List.nil_suffix
  · refine ⟨found, sinking.fits, sinking.unit_eq,
      sinking.fits.kept compiled.expanded_pos fresh_eq accounts, ?_⟩
    rw [completed_eq]
    simp [Dispatch.create, size_pos.ne]

end Graph

end Mixnet
