import Mixnet.Proofs.Decline
import Mixnet.Proofs.InputCompleteness

/-!
# The entrance of a graph

Nothing in a graph reports to its first module, so that this one receives what is sent and nothing
else.  Whatever the other modules make of their reports, even a fault between them, the first one
takes every further portion, and answers whether something is still missing.

## Main definitions

* `Dispatch.Open`, `Graph.Open`: work goes on, and the first module has received the chunks given
* `Graph.Aside`: events that send nothing, and by which no work ends early

## Main statements

* `Graph.open_of_build`: a built graph is open
* `Graph.Open.play`: what happens aside leaves it so
* `Graph.Open.send`: a further portion is taken, and answered as it should be

## Design notes

The laws of whole plays ask that a word can count the inputs of every module.  The first module has
no inputs, so nothing is asked here.
-/

namespace Mixnet

open Journal

/-! ## Workers -/

/-- Asking a queue leaves what waits behind the oldest chunk. -/
theorem ChunkQueue.take_snd (queue : ChunkQueue) :
    queue.take.2 = { queue with chunks := queue.chunks.tail } := by
  rcases queue with ⟨chunks, closed, capacity⟩
  cases chunks <;> rfl

namespace Dispatch

variable {dispatch after : Dispatch} {entrance : Module} {first : Nat} {received : List Chunk}

/-- Work goes on.  Nobody inside reports to the first module or is about to, and that module, which
was laid out as `entrance`, agrees with the chunks that it has received, newest first. -/
structure Open (dispatch : Dispatch) (entrance : Module) (first : Nat) (received : List Chunk) :
    Prop where
  running : dispatch.terminated = false
  inner : first ≠ dispatch.sink
  outputs : ∀ (id : Nat) module, dispatch.modules[id]? = some module → first ∉ module.outputs
  hands : ∀ (position : Nat) worker, dispatch.workers[position]? = some worker →
    ∀ piece, .report first piece ∉ worker.activity.left
  received_eq : reportsTo dispatch.journal first = received
  kept : ∃ module, dispatch.modules[first]? = some module ∧ module.fresh = entrance.fresh ∧
    module.Kept false received (queuedOn dispatch.journal first)

namespace Open

/-- Observations that are not about the first module. -/
theorem observed (opened : dispatch.Open entrance first received) {newer : List Observation}
    (elsewhere : ∀ observation ∈ newer,
      observation.reportTo first = none ∧ observation.queuedFor first = none) :
    ({ dispatch with journal := newer ++ dispatch.journal } : Dispatch).Open entrance first
      received := by
  have unreported : view (Observation.reportTo first) newer = [] :=
    List.filterMap_eq_nil_iff.mpr fun observation member => (elsewhere observation member).1
  have unqueued : view (Observation.queuedFor first) newer = [] :=
    List.filterMap_eq_nil_iff.mpr fun observation member => (elsewhere observation member).2
  obtain ⟨module, found, fresh_eq, kept⟩ := opened.kept
  refine ⟨opened.running, opened.inner, opened.outputs, opened.hands, ?_, module, found, fresh_eq,
    ?_⟩
  · rw [reportsTo, view_append, unreported]
    exact opened.received_eq
  · rw [queuedOn, view_append, unqueued]
    exact kept

theorem observe (opened : dispatch.Open entrance first received) {observation : Observation}
    (unreported : observation.reportTo first = none)
    (unqueued : observation.queuedFor first = none) :
    (dispatch.observe observation).Open entrance first received :=
  opened.observed (List.forall_mem_singleton.mpr ⟨unreported, unqueued⟩)

/-- A worker goes on to something that holds no report to the first module. -/
theorem setActivity {position : Nat} {worker : Worker} {activity : Activity}
    (opened : dispatch.Open entrance first received)
    (here : dispatch.workers[position]? = some worker)
    (silent : ∀ piece, .report first piece ∉ activity.left) :
    (dispatch.setActivity position activity).Open entrance first received := by
  refine ⟨opened.running, opened.inner, opened.outputs, ?_, opened.received_eq, opened.kept⟩
  intro other there found
  rcases of_getElem?_setActivity here found with ⟨-, rfl⟩ | ⟨-, found⟩
  · exact silent
  · exact opened.hands other there found

/-- A worker goes on with some of what it had in hand. -/
theorem proceed {position : Nat} {worker : Worker} {activity : Activity}
    (opened : dispatch.Open entrance first received)
    (here : dispatch.workers[position]? = some worker)
    (fewer : activity.left ⊆ worker.activity.left) :
    (dispatch.setActivity position activity).Open entrance first received :=
  opened.setActivity here fun piece member => opened.hands position worker here piece (fewer member)

/-- A module is put for another with the same outputs; for the first one, if it still agrees. -/
theorem setModule {id : Nat} {module next : Module}
    (opened : dispatch.Open entrance first received) (found : dispatch.modules[id]? = some module)
    (outputs_eq : next.outputs = module.outputs)
    (agrees : id = first → next.fresh = module.fresh ∧ ∀ queued,
      module.Kept false received queued → next.Kept false received queued) :
    (dispatch.setModule id next).Open entrance first received := by
  refine ⟨opened.running, opened.inner, ?_, opened.hands, opened.received_eq, ?_⟩
  · intro other there there_found
    rcases of_getElem?_setIfInBounds found there_found with ⟨-, rfl⟩ | ⟨-, there_found⟩
    · rw [outputs_eq]
      exact opened.outputs id module found
    · exact opened.outputs other there there_found
  · obtain ⟨old, old_found, fresh_eq, kept⟩ := opened.kept
    by_cases here : id = first
    · subst here
      obtain rfl : module = old := Option.some.inj (found.symm.trans old_found)
      obtain ⟨same, keeps⟩ := agrees rfl
      refine ⟨next, ?_, same.trans fresh_eq, keeps _ kept⟩
      exact (getElem?_setIfInBounds found next id).trans (if_pos rfl)
    · refine ⟨old, ?_, fresh_eq, kept⟩
      exact (getElem?_setIfInBounds found next first).trans
        ((if_neg (Ne.symm here)).trans old_found)

/-- Work is taken from a queue. -/
theorem pop {id : Nat} {module : Module} {rest : List Chunk}
    (opened : dispatch.Open entrance first received) (found : dispatch.modules[id]? = some module)
    (fewer : rest.Sublist module.queue.chunks) :
    (dispatch.setModule id (module.withWaiting rest)).Open entrance first received :=
  opened.setModule found rfl fun _ => ⟨rfl, fun _ kept => kept.withWaiting fewer⟩

/-- **A report to another module does not concern the first**, whether it faults or not. -/
theorem primes {source : Nat} {target : Nat} {piece : Chunk}
    (opened : dispatch.Open entrance first received)
    (primes : dispatch.Primes (some source) target piece after) (elsewhere : target ≠ first) :
    after.Open entrance first received := by
  have seen : (dispatch.observe (.reported (some source) target piece)).Open entrance first
      received :=
    opened.observe (if_neg elsewhere) rfl
  have absent {property : Prop} (here : target = first) : property := absurd here elsewhere
  cases primes with
  | missed => exact opened
  | counted found => exact seen.setModule found rfl absent
  | @queued module assignments released closed complete found _ _ _ =>
      have queued : ∀ observation ∈ released.reverse.map (Observation.queued target),
          observation.reportTo first = none ∧ observation.queuedFor first = none := by
        intro observation member
        obtain ⟨chunk, -, rfl⟩ := List.mem_map.mp member
        exact ⟨rfl, if_neg elsewhere⟩
      have changed : (Dispatch.setModule _ target { module with
          assignments, queue := { module.queue with
            chunks := module.queue.chunks ++ released, closed } }).Open entrance first received :=
        (seen.observed queued).setModule found rfl absent
      -- Whether the graph is complete does not matter.
      obtain ⟨running, inner, outputs, hands, received_eq, kept⟩ := changed
      exact ⟨running, inner, outputs, hands, received_eq, kept⟩

/-- **A step of a worker, short of a failure, does not concern the first module**, except that work
may be taken from its queue. -/
theorem moves {step : Step} (opened : dispatch.Open entrance first received)
    (moved : dispatch.Moves step after) (calm : (Graph.Event.work step).Calm) :
    after.Open entrance first received := by
  cases moved with
  | @took position worker module chunk rest here idle found waiting running =>
      have popped := opened.pop found (waiting ▸ List.sublist_cons_self chunk rest)
      refine popped.setActivity here fun piece member => ?_
      -- Work on an assignment reports to the outputs of the module.
      cases Module.mem_tasks member with
      | report output_mem => exact opened.outputs worker.module module found output_mem
  | @dropped position worker module chunk rest here idle found waiting ended =>
      exact opened.pop found (waiting ▸ List.sublist_cons_self chunk rest)
  | entered here next =>
      refine (opened.observe rfl rfl).proceed here ?_
      rw [next]
      exact List.subset_cons_self _ _
  | returned here inside =>
      refine (opened.observe rfl rfl).proceed here ?_
      rw [inside]
      exact List.Subset.refl _
  | failed => cases calm
  | finished here => exact opened.proceed here (List.nil_subset _)
  | passed here next =>
      refine opened.proceed here ?_
      rw [next]
      exact List.subset_cons_self _ _
  | stopped here => exact opened.proceed here (List.nil_subset _)
  | @reported position target worker piece rest last primed here next done =>
      have elsewhere : target ≠ first := by
        rintro rfl
        refine opened.hands position worker here piece ?_
        rw [next]
        exact List.mem_cons_self
      have primes := primes_of_prime done
      refine (opened.primes primes elsewhere).proceed (primes.workers_eq ▸ here) ?_
      rw [next]
      exact List.subset_cons_self _ _
  | @crashed position target worker piece rest fault primed here next refused =>
      have elsewhere : target ≠ first := by
        rintro rfl
        refine opened.hands position worker here piece ?_
        rw [next]
        exact List.mem_cons_self
      have primes := primes_of_prime refused
      exact (opened.primes primes elsewhere).proceed (primes.workers_eq ▸ here) (List.nil_subset _)
  | departed here => exact opened.proceed here (List.nil_subset _)

/-- Workers start with nothing in hand. -/
theorem start (opened : dispatch.Open entrance first received) :
    ({ dispatch with workers := dispatch.crew.toArray } : Dispatch).Open entrance first
      received := by
  refine ⟨opened.running, opened.inner, opened.outputs, ?_, opened.received_eq, opened.kept⟩
  intro position worker found
  rw [List.getElem?_toArray] at found
  obtain ⟨idle, -⟩ := Graph.mem_workersFrom (List.mem_of_getElem? found)
  rw [idle]
  exact fun _ => List.not_mem_nil

/-- Input is delivered. -/
theorem fed {module next : Module} {chunk : Chunk} {released : List Chunk} {last : Bool}
    {expanded : Nat} (opened : dispatch.Open entrance first received)
    (found : dispatch.modules[first]? = some module) (fresh_eq : module.fresh = entrance.fresh)
    (delivers : dispatch.Delivers expanded none first chunk module next released last) :
    (dispatch.delivered none first chunk next released last).Open entrance first
      (chunk :: received) := by
  have next_found : (dispatch.modules.setIfInBounds first next)[first]? = some next :=
    (getElem?_setIfInBounds found next first).trans (if_pos rfl)
  refine ⟨opened.running, opened.inner, ?_, opened.hands, ?_, next, next_found,
    delivers.fresh_eq.trans fresh_eq, ?_⟩
  · intro other there there_found
    rcases of_getElem?_setIfInBounds found there_found with ⟨-, rfl⟩ | ⟨-, there_found⟩
    · have outputs_eq := congrArg Module.outputs delivers.fresh_eq
      change there.outputs = module.outputs at outputs_eq
      rw [outputs_eq]
      exact opened.outputs first module found
    · exact opened.outputs other there there_found
  · show reportsTo (deliver dispatch.journal none first chunk released) first = _
    rw [reportsTo_deliver, if_pos rfl, opened.received_eq]
  · show next.Kept false _ (queuedOn (deliver dispatch.journal none first chunk released) first)
    rw [queuedOn_deliver, if_pos rfl, ← opened.received_eq, ← opened.running]
    exact delivers.kept

end Open

end Dispatch

/-! ## Graphs -/

namespace Graph

variable {graph built after : Graph} {entrance : Module} {first expanded : Nat}
  {received : List Chunk} {event : Event} {events : List Event}

/-- A graph at work on a batch of `expanded` slots, whose first module has received the chunks
given. -/
structure Open (graph : Graph) (entrance : Module) (first expanded : Nat) (received : List Chunk) :
    Prop where
  first_eq : graph.wiring.first = some first
  expanded_eq : graph.expandedSize = expanded
  fits : entrance.Fits expanded
  fed : entrance.assignments.Sized expanded 1
  open_dispatch : ∃ dispatch, graph.dispatch = some dispatch ∧
    dispatch.Open entrance first received

/-- Nothing is sent, no kernel fails and nobody ends the work. -/
def Aside (events : List Event) : Prop := ∀ event ∈ events, event.Calm ∧ sent [event] = []

/-- **A built graph is open**, and has received nothing. -/
theorem open_of_build {batch : Nat} (wired : graph.Wired) (done : graph.build batch = .ok built) :
    ∃ entrance first, built.Open entrance first built.expandedSize [] := by
  obtain ⟨plan, first, last, modules, sink, constructed, rfl⟩ := build_constructed wired done
  have first_lt := constructed.valid.first_lt first constructed.layered.first_eq
  obtain ⟨entrance, found⟩ : ∃ entrance, modules[first]? = some entrance :=
    ⟨_, List.getElem?_eq_getElem (first_lt.trans_eq constructed.length_eq.symm)⟩
  have in_graph : (modules ++ [sink]).toArray[first]? = some entrance := by
    rw [List.getElem?_toArray, List.getElem?_append_left
      (first_lt.trans_eq constructed.length_eq.symm)]
    exact found
  have no_inputs := constructed.layered.first_inputs
  have no_input : (graph.wiring.inputsOf first).length < Word.limit 32 := by
    rw [no_inputs]
    decide
  have placed := constructed.placed no_input found
  have fed := placed.fits.sized
  rw [placed.inputs_eq, no_inputs] at fed
  refine ⟨entrance, first, constructed.layered.first_eq, rfl, placed.fits, fed, _, rfl, ?_⟩
  refine ⟨rfl, first_lt.ne, ?_, ?_, rfl, entrance, in_graph, rfl,
    placed.fits.kept constructed.expanded_pos placed.unworked.1 placed.unworked.2⟩
  · -- No edge ends at the first module, and the sink reports to nobody.
    intro id module there member
    rcases eq_or_sink_of_getElem? there with ⟨-, here⟩ | ⟨-, rfl⟩
    · rcases (constructed.mem_outputs here first).mp member with edge | ⟨-, impossible⟩
      · have input := Wiring.mem_inputsOf.mpr (Wiring.mem_outputsOf.mp edge)
        rw [no_inputs] at input
        cases input
      · exact first_lt.ne impossible
    · have sinking := buildSink_sinking constructed.grain constructed.expanded_lt
        constructed.grain_dvd constructed.sink_made
      rw [sinking.outputs_eq] at member
      cases member
  · intro position worker there
    cases there

namespace Open

/-- The graph with another state of its modules, stream and stage. -/
theorem of_dispatch {dispatch : Dispatch} {stream : Stream} {stage : GraphState}
    {more : List Chunk} (opened : graph.Open entrance first expanded received)
    (next : dispatch.Open entrance first more) :
    ({ graph with stream, state := stage, dispatch := some dispatch } : Graph).Open entrance first
      expanded more :=
  ⟨opened.first_eq, opened.expanded_eq, opened.fits, opened.fed, dispatch, rfl, next⟩

/-- What happens aside leaves a graph open. -/
theorem act (opened : graph.Open entrance first expanded received) (calm : event.Calm)
    (unsent : sent [event] = []) (acted : graph.act event = some after) :
    after.Open entrance first expanded received := by
  obtain ⟨dispatch, dispatch_eq, inside⟩ := opened.open_dispatch
  have same : graph = { graph with dispatch := some dispatch } := by rw [← dispatch_eq]
  cases event with
  | link buffer =>
      obtain ⟨-, stream, rfl⟩ := link_ok (eq_ok_of_toOption acted)
      rw [same]
      exact opened.of_dispatch inside
  | start =>
      rcases run_ok dispatch_eq (eq_ok_of_toOption acted) with ⟨-, rfl⟩ | ⟨-, rfl⟩
      · exact opened
      · exact opened.of_dispatch inside.start
  | send chunk => cases unsent
  | work step =>
      rw [Graph.act, dispatch_eq] at acted
      obtain ⟨next, stepped, rfl⟩ := Option.map_eq_some_iff.mp acted
      exact opened.of_dispatch (inside.moves (Dispatch.moves_of_step stepped) calm)
  | collect =>
      obtain ⟨module, found, rfl⟩ := collect_ok dispatch_eq acted
      rw [ChunkQueue.take_snd]
      exact opened.of_dispatch (inside.pop found (List.tail_sublist _))
  | kill => exact calm.elim

/-- **What happens aside leaves a graph open**, however much it is. -/
theorem play (opened : graph.Open entrance first expanded received) (aside : Aside events)
    (played : graph.play events = some after) : after.Open entrance first expanded received := by
  induction events generalizing graph with
  | nil =>
      injection played with played
      exact played ▸ opened
  | cons event events ih =>
      obtain ⟨between, acted, played⟩ := Option.bind_eq_some_iff.mp played
      obtain ⟨calm, unsent⟩ := aside event List.mem_cons_self
      exact ih (opened.act calm unsent acted)
        (fun other member => aside other (List.mem_cons_of_mem _ member)) played

/-- **A further portion is taken**, and answered by whether every slot of the batch has been
received by now. -/
theorem send {chunk : Chunk} (opened : graph.Open entrance first expanded received)
    (once : ∀ slot, Chunk.coverage (chunk :: received) slot ≤ 1)
    (nonempty : chunk.start < chunk.stop) (inside : chunk.stop ≤ expanded) :
    ∃ answer after, graph.send chunk = (.ok answer, after) ∧
      after.Open entrance first expanded (chunk :: received) ∧
      (answer = true ↔ ∀ slot < expanded, Chunk.coverage (chunk :: received) slot = 1) := by
  obtain ⟨dispatch, dispatch_eq, at_work⟩ := opened.open_dispatch
  obtain ⟨module, found, fresh_eq, kept⟩ := at_work.kept
  have fits := opened.fits.of_fresh_eq fresh_eq
  have sized := opened.fed.of_fresh_eq (congrArg Module.assignments fresh_eq)
  have received_eq := at_work.received_eq
  subst received_eq
  obtain ⟨queue_open, next, released, answer, delivers⟩ := Dispatch.delivers_portion found fits
    sized kept at_work.running once nonempty inside
  refine ⟨answer, _, send_of_delivers opened.first_eq dispatch_eq at_work.running found queue_open
    delivers, opened.of_dispatch (at_work.fed found fresh_eq delivers), ?_⟩
  rw [delivers.answer_iff fits sized kept at_work.running queue_open]
  constructor
  · intro weighed slot below
    exact sized.coverage_of_weighed weighed once below
  · exact sized.weighed

end Open

end Graph

end Mixnet
