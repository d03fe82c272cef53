import Mixnet.Proofs.Decline
import Mixnet.Proofs.ExactlyOnce

/-!
# Termination is absorbing, and completion is final

A graph can be asked for anything at any stage, and much of it is refused.  This file follows a
graph from its creation through any list of calls, whether they go through or not.  Once its work
has been ended, nothing comes in, and the sink gives what it had; once it is complete, nothing ends
its work.  Its stage never goes back.

## Main definitions

* `Graph.Call`, `Graph.attempt`: what can be asked of a graph, and what that leaves
* `Graph.Change`: what a call can do to a graph that has been built
* `Graph.Working`: what holds of a graph that has been built
* `Graph.Over`, `Graph.Done`, `Graph.Course`: what holds of any calls that come later

## Main statements

* `Graph.Changes.of_attempt`: every call is one of these changes
* `Graph.Working.attempts`: a graph that has been built goes on working, whatever is called
* `Graph.termination_absorbing`: the law of every list of calls
* `Graph.unwired_kill_forgotten`: a graph that is killed before it has been built can be run

## Design notes

The stage of a graph that has not been built does not tell whether it has been killed.  That is why
the law of kills is about graphs that have been built.

Nothing here asks that reports are accepted: `Graph.Working` says nothing about the accounting, and
a send that faults leaves what it has counted.
-/

namespace Mixnet

open Journal

namespace Graph

/-! ## Calls -/

/-- What can be asked of a graph at any stage. -/
inductive Call where
  /-- A module is added. -/
  | addModule (spec : ModuleSpec)
  /-- Two modules are connected. -/
  | connect (source target : Nat)
  /-- The module fed from outside is marked. -/
  | setFirst (module : Nat)
  /-- The module whose output leaves the graph is marked. -/
  | setLast (module : Nat)
  /-- The graph is built. -/
  | build (batch : Nat)
  /-- Something happens that can happen to a built graph. -/
  | event (event : Event)

/-- The graph that an operation answers, or the one it was asked of. -/
def orElse {ε : Type} (graph : Graph) : Except ε Graph → Bool × Graph
  | .ok after => (true, after)
  | .error _ => (false, graph)

/-- What holds of a graph, and of what an operation makes of it if it goes through, holds of what
the operation leaves. -/
theorem orElse_of {ε : Type} {graph : Graph} {outcome : Except ε Graph} {holds : Graph → Prop}
    (kept : holds graph) (through : ∀ after, outcome = .ok after → holds after) :
    holds (graph.orElse outcome).2 := by
  cases outcome with
  | error refusal => exact kept
  | ok after => exact through after rfl

/-- An operation that does not go through keeps the graph. -/
theorem eq_of_orElse_false {ε : Type} {graph : Graph} {outcome : Except ε Graph}
    (stopped : (graph.orElse outcome).1 = false) : (graph.orElse outcome).2 = graph := by
  cases outcome with
  | error refusal => rfl
  | ok after => cases stopped

/-- The graph that an event leaves if it does not go through.  What a send has counted before its
fault stays counted. -/
def refused (graph : Graph) : Event → Graph
  | .send chunk => (graph.send chunk).2
  | _ => graph

/-- The graph after a call, and whether the call went through. -/
def attempt (graph : Graph) : Call → Bool × Graph
  | .addModule spec => graph.orElse ((graph.addModule spec).map Prod.snd)
  | .connect source target => graph.orElse (graph.connect source target)
  | .setFirst module => graph.orElse (graph.setFirst module)
  | .setLast module => graph.orElse (graph.setLast module)
  | .build batch => graph.orElse (graph.build batch)
  | .event event =>
      match graph.act event with
      | some after => (true, after)
      | none => (false, graph.refused event)

/-- The graph after a list of calls, whether they go through or not. -/
def attempts (graph : Graph) : List Call → Graph
  | [] => graph
  | call :: rest => (graph.attempt call).2.attempts rest

/-- What a call takes out of a graph. -/
def handed (graph : Graph) : Call → List Chunk
  | .event event => graph.yielded event
  | _ => []

/-- What a list of calls takes out of a graph, oldest first. -/
def handedBy (graph : Graph) : List Call → List Chunk
  | [] => []
  | call :: rest => graph.handed call ++ (graph.attempt call).2.handedBy rest

/-! ## Changes -/

section Changes

variable {graph : Graph} {call : Call} {first : Nat} {stage later : GraphState}
  {dispatch next : Dispatch} {out : List Chunk}

/-- What a call can do to a graph that has been built, and what it takes out of it. -/
inductive Change (first : Nat) (stage : GraphState) (dispatch : Dispatch) :
    List Chunk → GraphState → Dispatch → Prop
  /-- Nothing. -/
  | kept : Change first stage dispatch [] stage dispatch
  /-- It is linked. -/
  | linked (built : stage = .built) : Change first stage dispatch [] .linked dispatch
  /-- Its workers are started. -/
  | started (linked : stage = .linked) :
      Change first stage dispatch [] .running
        { dispatch with workers := dispatch.crew.toArray }
  /-- Input is reported to its first module. -/
  | fed {chunk : Chunk} {next : Dispatch} (running : dispatch.terminated = false)
      (primes : dispatch.Primes none first chunk next) : Change first stage dispatch [] stage next
  /-- A worker takes a step. -/
  | worked {step : Dispatch.Step} {next : Dispatch} (moved : dispatch.Moves step next) :
      Change first stage dispatch [] stage next
  /-- A finished chunk is taken. -/
  | collected {sink : Module} {chunk : Chunk} {rest : List Chunk}
      (found : dispatch.modules[dispatch.sink]? = some sink)
      (waiting : sink.queue.chunks = chunk :: rest) :
      Change first stage dispatch [chunk] stage
        (dispatch.setModule dispatch.sink (sink.withWaiting rest))
  /-- It is killed. -/
  | killed (incomplete : dispatch.complete = false) :
      Change first stage dispatch [] .terminated
        { dispatch.terminate.2 with dismissed := true }

/-- Input that is not dropped is reported to the first module. -/
theorem send_cases {outcome : Except Fault Bool} {after : Graph} {chunk : Chunk}
    (found : graph.dispatch = some dispatch) (sent : graph.send chunk = (outcome, after)) :
    after = graph ∨ dispatch.terminated = false ∧ ∃ next,
      dispatch.prime none (graph.wiring.first.getD 0) chunk = (outcome, next) ∧
        after = { graph with dispatch := some next } := by
  unfold send at sent
  rw [dispatched, found] at sent
  dsimp only at sent
  split at sent
  case isTrue =>
    injection sent with _ same
    exact Or.inl same.symm
  case isFalse running =>
    rw [Bool.not_eq_true] at running
    split at sent
    case isTrue =>
      injection sent with _ same
      exact Or.inl same.symm
    case isFalse =>
      injection sent with outcome_eq same
      exact Or.inr ⟨running, _, Prod.ext outcome_eq rfl, same.symm⟩

/-- A graph in which `first` is fed from outside has changed in one of these ways. -/
def Changes (first : Nat) (graph : Graph) (dispatch : Dispatch) (out : List Chunk)
    (after : Graph) : Prop :=
  ∃ next, after.dispatch = some next ∧ after.wiring.first = some first ∧
    Change first graph.state dispatch out after.state next

/-- An event goes through, or leaves what it leaves. -/
theorem Changes.event {event : Event}
    (through : ∀ after, graph.act event = some after →
      Changes first graph dispatch (graph.yielded event) after)
    (stopped : graph.act event = none →
      Changes first graph dispatch (graph.yielded event) (graph.refused event)) :
    Changes first graph dispatch (graph.yielded event) (graph.attempt (.event event)).2 := by
  rw [attempt]
  cases acted : graph.act event with
  | none => exact stopped acted
  | some after => exact through after acted

/-- Asking for output takes the oldest chunk that waits at the sink, if there is one. -/
theorem collect_cases {taken : ChunkQueue.Taken} {after : Graph}
    (found : graph.dispatch = some dispatch) (taking : graph.takeOutput = .ok (taken, after)) :
    graph.yielded .collect = [] ∧ after = graph ∨
      ∃ sink chunk rest, dispatch.modules[dispatch.sink]? = some sink ∧
        sink.queue.chunks = chunk :: rest ∧ graph.yielded .collect = [chunk] ∧
        after = { graph with
          dispatch := some (dispatch.setModule dispatch.sink (sink.withWaiting rest)) } := by
  obtain ⟨sink, sink_found, taken_eq, after_eq⟩ := takeOutput_ok found taking
  unfold yielded
  cases waiting : sink.queue.chunks with
  | nil =>
      -- Nothing waits, so that the queue stays as it is.
      have nothing : sink.queue.take =
          (if sink.queue.closed then .drained else .empty, sink.queue) := by
        rw [ChunkQueue.take, waiting]
      rw [nothing] at taken_eq after_eq
      left
      constructor
      · cases closed : sink.queue.closed <;> simp [taking, taken_eq, closed]
      · rw [after_eq, Dispatch.setModule_self sink_found, ← found]
  | cons chunk rest =>
      have oldest : sink.queue.take =
          (.chunk chunk, { sink.queue with chunks := rest }) := by
        rw [ChunkQueue.take, waiting]
      rw [oldest] at taken_eq after_eq
      right
      refine ⟨sink, chunk, rest, sink_found, waiting, ?_, after_eq⟩
      simp [taking, taken_eq]

/-- Events change a graph that has been built in one of these ways, or not at all. -/
theorem Changes.of_event (found : graph.dispatch = some dispatch)
    (entrance : graph.wiring.first = some first) (event : Event) :
    Changes first graph dispatch (graph.yielded event) (graph.attempt (.event event)).2 := by
  have kept : Changes first graph dispatch [] graph := ⟨dispatch, found, entrance, .kept⟩
  cases event with
  | link buffer =>
      refine .event (fun after linked => ?_) (fun _ => kept)
      obtain ⟨stage, stream, rfl⟩ := link_ok (eq_ok_of_toOption linked)
      exact ⟨dispatch, found, entrance, .linked stage⟩
  | start =>
      refine .event (fun after started => ?_) (fun _ => kept)
      rcases run_ok found (eq_ok_of_toOption started) with ⟨-, rfl⟩ | ⟨stage, rfl⟩
      · exact kept
      · exact ⟨_, rfl, entrance, .started stage⟩
  | send chunk =>
      -- What a send has counted stays, whether it meets a fault or not.
      cases sent : graph.send chunk with
      | mk outcome there =>
          have counted : Changes first graph dispatch [] there := by
            rcases send_cases found sent with rfl | ⟨running, next, primes, rfl⟩
            · exact kept
            · rw [entrance, Option.getD_some] at primes
              exact ⟨next, rfl, entrance, .fed running (Dispatch.primes_of_prime primes)⟩
          refine .event (fun after acted => ?_) (fun _ => ?_)
          · rw [act, sent] at acted
            cases outcome with
            | ok answer =>
                injection acted with same
                exact same ▸ counted
            | error fault => cases acted
          · rw [refused, sent]
            exact counted
  | work step =>
      refine .event (fun after acted => ?_) (fun _ => kept)
      rw [act, found] at acted
      obtain ⟨next, stepped, rfl⟩ := Option.map_eq_some_iff.mp acted
      exact ⟨next, rfl, entrance, .worked (Dispatch.moves_of_step stepped)⟩
  | collect =>
      cases taking : graph.takeOutput with
      | error fault =>
          have nothing : graph.yielded .collect = [] := by simp [yielded, taking]
          refine .event (fun after acted => ?_) (fun _ => nothing ▸ kept)
          simp [act, taking, Except.map, Except.toOption] at acted
      | ok both =>
          obtain ⟨taken, there⟩ := both
          refine .event (fun after acted => ?_) (fun stopped => ?_)
          · obtain rfl : there = after := by
              simpa [act, taking, Except.map, Except.toOption] using acted
            rcases collect_cases found taking with
              ⟨nothing, rfl⟩ | ⟨sink, chunk, rest, sink_found, waiting, yielded_eq, rfl⟩
            · exact nothing ▸ kept
            · exact yielded_eq ▸ ⟨_, rfl, entrance, .collected sink_found waiting⟩
          · simp [act, taking, Except.map, Except.toOption] at stopped
  | kill =>
      refine .event (fun after acted => ?_) (fun _ => kept)
      injection acted with same
      subst same
      unfold kill
      rw [found]
      dsimp only
      split
      case isTrue => exact kept
      case isFalse incomplete =>
        exact ⟨_, rfl, entrance, .killed (Bool.not_eq_true _ ▸ incomplete)⟩

/-- **Every call changes a graph that has been built in one of these ways**, or not at all. -/
theorem Changes.of_attempt (found : graph.dispatch = some dispatch)
    (entrance : graph.wiring.first = some first) (built : graph.state ≠ .unbuilt) (call : Call) :
    Changes first graph dispatch (graph.handed call) (graph.attempt call).2 := by
  have kept : Changes first graph dispatch [] graph := ⟨dispatch, found, entrance, .kept⟩
  cases call with
  | addModule spec =>
      refine orElse_of kept fun after made => ?_
      obtain ⟨_, added, -⟩ := Fault.map_eq_ok.mp made
      exact absurd (addModule_ok added).1 built
  | connect source target =>
      exact orElse_of kept fun after connected => absurd (connect_ok connected).1 built
  | setFirst module =>
      refine orElse_of kept fun after marked => ?_
      -- A graph that has been built has its entrance.
      obtain ⟨wiring, set, -⟩ := setFirst_ok marked
      rw [(Wiring.of_setFirst set).1] at entrance
      cases entrance
  | setLast module =>
      refine orElse_of kept fun after marked => ?_
      obtain ⟨wiring, set, rfl⟩ := setLast_ok marked
      obtain ⟨-, -, rfl⟩ := Wiring.of_setLast set
      exact kept
  | build batch => exact orElse_of kept fun after done => absurd (build_ok done).1 built
  | event event => exact .of_event found entrance event

/-! ## What changes keep -/

theorem GraphState.number_le (stage : GraphState) :
    stage.number ≤ GraphState.terminated.number := by
  cases stage <;> decide

/-- **The stage of a graph never goes back.** -/
theorem Change.number_le (change : Change first stage dispatch out later next) :
    stage.number ≤ later.number := by
  cases change with
  | linked built => rw [built]; decide
  | started linked => rw [linked]; decide
  | killed => exact GraphState.number_le stage
  | _ => exact Nat.le_refl _

/-- What holds of a graph that has been built: its input goes to a module of the wiring, its workers
belong to modules of the wiring, and it is at a stage that shows what has happened to it. -/
structure Working (first : Nat) (stage : GraphState) (dispatch : Dispatch) : Prop where
  size_eq : dispatch.modules.size = dispatch.sink + 1
  inner : first < dispatch.sink
  unstaffed : ∀ sink, dispatch.modules[dispatch.sink]? = some sink → sink.threads = 0
  wired : ∀ place ∈ dispatch.roster, place.1 < dispatch.sink
  settled : dispatch.Settled
  built : stage ≠ .unbuilt
  early : stage = .built ∨ stage = .linked →
    dispatch.workers = #[] ∧ dispatch.complete = false ∧ dispatch.terminated = false
  late : stage = .terminated → dispatch.terminated = true

namespace Working

theorem of_evolves (working : Working first stage dispatch) (evolves : dispatch.Evolves next)
    (built : later ≠ .unbuilt)
    (early : later = .built ∨ later = .linked →
      next.workers = #[] ∧ next.complete = false ∧ next.terminated = false)
    (late : later = .terminated → next.terminated = true) : Working first later next := by
  refine ⟨?_, ?_, ?_, ?_, evolves.settles working.settled, built, early, late⟩
  · rw [evolves.size_eq, evolves.sink_eq]
    exact working.size_eq
  · rw [evolves.sink_eq]
    exact working.inner
  · intro sink found
    rw [evolves.sink_eq] at found
    obtain ⟨former, former_found, threads_eq⟩ := evolves.modules _ _ found
    rw [threads_eq]
    exact working.unstaffed former former_found
  · rw [evolves.roster_eq, evolves.sink_eq]
    exact working.wired

/-- No worker belongs to the sink. -/
theorem inside (working : Working first stage dispatch) {position : Nat} {worker : Worker}
    (found : dispatch.workers[position]? = some worker) : worker.module < dispatch.sink := by
  have member : (worker.module, worker.thread) ∈ dispatch.roster := by
    refine List.mem_map.mpr ⟨worker, ?_, rfl⟩
    exact Array.mem_toList_iff.mpr (Array.mem_of_getElem? found)
  exact working.wired _ member

/-- Starting its workers keeps a graph working. -/
theorem start (working : Working first .linked dispatch) :
    Working first .running { dispatch with workers := dispatch.crew.toArray } := by
  refine ⟨working.size_eq, working.inner, working.unstaffed, ?_, ?_, by decide, by simp, by simp⟩
  · intro place member
    obtain ⟨worker, worker_mem, rfl⟩ := List.mem_map.mp member
    obtain ⟨-, index, module, found, module_eq, places⟩ := mem_workersFrom worker_mem
    rw [Array.getElem?_toList] at found
    obtain ⟨inside, -⟩ := Array.getElem?_eq_some_iff.mp found
    rw [working.size_eq] at inside
    -- The sink has no places.
    have wired : index ≠ dispatch.sink := by
      rintro rfl
      rw [working.unstaffed module found] at places
      exact Nat.not_lt_zero _ places
    show worker.module < dispatch.sink
    omega
  · intro ended
    have running := (working.early (Or.inr rfl)).2.2
    rw [show dispatch.terminated = true from ended] at running
    cases running

end Working

/-- **A change keeps a graph working.** -/
theorem Change.working (change : Change first stage dispatch out later next)
    (working : Working first stage dispatch) : Working first later next := by
  cases change with
  | kept => exact working
  | linked built =>
      exact working.of_evolves (.refl dispatch) (by decide)
        (fun _ => working.early (Or.inl built)) (by simp)
  | started linked =>
      subst linked
      exact working.start
  | fed running primes =>
      refine working.of_evolves primes.evolves working.built ?_ ?_
      · intro early
        -- The first module is not the sink, and so its report completes nothing.
        rw [primes.workers_eq, (primes.flags_eq working.inner.ne).1,
          (primes.flags_eq working.inner.ne).2]
        exact working.early early
      · intro late
        exact primes.evolves.ends (working.late late)
  | worked moved =>
      refine working.of_evolves moved.evolves working.built ?_ ?_
      · intro early
        -- Without workers there are no steps.
        obtain ⟨position, worker, found⟩ := moved.exists_worker
        rw [(working.early early).1] at found
        cases found
      · intro late
        exact moved.evolves.ends (working.late late)
  | collected found waiting =>
      refine working.of_evolves (.setModule found rfl id) working.built ?_ ?_
      · exact working.early
      · exact working.late
  | killed incomplete =>
      have ends : dispatch.Evolves { dispatch.terminate.2 with dismissed := true } :=
        (Dispatch.Evolves.terminate dispatch).trans (.of_same rfl rfl rfl rfl rfl)
      refine working.of_evolves ends (by decide) (by simp) fun _ => ?_
      exact Dispatch.terminated_of_terminate incomplete

/-- A change undoes nothing, or starts the workers. -/
theorem Change.evolves (change : Change first stage dispatch out later next) :
    dispatch.Evolves next ∨
      stage = .linked ∧ next = { dispatch with workers := dispatch.crew.toArray } := by
  cases change with
  | kept => exact Or.inl (.refl dispatch)
  | linked => exact Or.inl (.refl dispatch)
  | started linked => exact Or.inr ⟨linked, rfl⟩
  | fed _ primes => exact Or.inl primes.evolves
  | worked moved => exact Or.inl moved.evolves
  | collected found => exact Or.inl (.setModule found rfl id)
  | killed =>
      exact Or.inl ((Dispatch.Evolves.terminate dispatch).trans (.of_same rfl rfl rfl rfl rfl))

/-- **After termination nothing comes in**, and what leaves had been at the sink. -/
theorem Change.dwindles (change : Change first stage dispatch out later next)
    (working : Working first stage dispatch) (ended : dispatch.Ended) :
    dispatch.Dwindles next ∧
      out ++ next.waiting dispatch.sink = dispatch.waiting dispatch.sink := by
  cases change with
  | kept => exact ⟨.refl dispatch, rfl⟩
  | linked => exact ⟨.refl dispatch, rfl⟩
  | started linked =>
      have running := (working.early (Or.inr linked)).2.2
      rw [ended.terminated] at running
      cases running
  | fed running =>
      rw [ended.terminated] at running
      cases running
  | worked moved =>
      refine ⟨moved.dwindles ended, ?_⟩
      exact moved.waiting_eq ended fun position worker found => (working.inside found).ne
  | @collected sink chunk rest found waiting =>
      have fewer : dispatch.Dwindles
          (dispatch.setModule dispatch.sink (sink.withWaiting rest)) := by
        refine .setModule found ?_
        rw [waiting]
        exact List.suffix_cons _ _
      refine ⟨fewer, ?_⟩
      rw [Dispatch.waiting_setModule found, if_pos rfl, Dispatch.waiting_eq found, waiting]
      rfl
  | killed =>
      obtain ⟨workers_eq, journal_eq, -⟩ := dispatch.terminate_eq
      have waiting_eq := dispatch.waiting_terminate
      refine ⟨.of_same waiting_eq (fun id => ?_) workers_eq ?_, congrFun waiting_eq _⟩
      · show queuedOn dispatch.terminate.2.journal id = _
        rw [journal_eq]
      · show Dispatch.calls dispatch.terminate.2 = _
        rw [Dispatch.calls, journal_eq]
        rfl

/-! ## What any calls keep -/

/-- What later calls leave of a graph that has been built; `out` is what they take out of it. -/
structure Follows (stage : GraphState) (dispatch : Dispatch) (out : List Chunk)
    (later : GraphState) (next : Dispatch) : Prop where
  onward : stage.number ≤ later.number
  sink_eq : next.sink = dispatch.sink
  completes : dispatch.complete = true → next.complete = true
  staff : GraphState.running.number ≤ stage.number → next.roster = dispatch.roster
  dwindles : dispatch.Ended → next.Ended ∧ dispatch.Dwindles next ∧
    out ++ next.waiting dispatch.sink = dispatch.waiting dispatch.sink

theorem Follows.refl (stage : GraphState) (dispatch : Dispatch) :
    Follows stage dispatch [] stage dispatch :=
  ⟨Nat.le_refl _, rfl, id, fun _ => rfl, fun ended => ⟨ended, .refl dispatch, rfl⟩⟩

theorem Follows.trans {middle : GraphState} {between : Dispatch} {more : List Chunk}
    (former : Follows stage dispatch out middle between)
    (latter : Follows middle between more later next) :
    Follows stage dispatch (out ++ more) later next := by
  refine ⟨former.onward.trans latter.onward, latter.sink_eq.trans former.sink_eq,
    latter.completes ∘ former.completes, ?_, ?_⟩
  · intro begun
    exact (latter.staff (begun.trans former.onward)).trans (former.staff begun)
  · intro ended
    obtain ⟨ended, first_dwindles, first_out⟩ := former.dwindles ended
    obtain ⟨ended, then_dwindles, then_out⟩ := latter.dwindles ended
    refine ⟨ended, first_dwindles.trans then_dwindles, ?_⟩
    rw [← former.sink_eq, List.append_assoc, then_out, former.sink_eq, first_out]

theorem Change.follows (change : Change first stage dispatch out later next)
    (working : Working first stage dispatch) : Follows stage dispatch out later next := by
  rcases change.evolves with evolves | ⟨linked, started⟩
  · refine ⟨change.number_le, evolves.sink_eq, evolves.completes, fun _ => evolves.roster_eq, ?_⟩
    intro ended
    exact ⟨evolves.settles working.settled (evolves.ends ended.terminated),
      change.dwindles working ended⟩
  · -- Before its workers are started, a graph neither is complete nor has been ended.
    obtain ⟨-, incomplete, running⟩ := working.early (Or.inr linked)
    refine ⟨change.number_le, ?_, ?_, ?_, ?_⟩
    · rw [started]
    · intro complete
      rw [incomplete] at complete
      cases complete
    · intro begun
      rw [linked] at begun
      exact absurd begun (by decide)
    · intro ended
      rw [ended.terminated] at running
      cases running

/-- **Whatever is called later**, a graph that has been built goes on working. -/
theorem Working.attempts (found : graph.dispatch = some dispatch)
    (entrance : graph.wiring.first = some first) (working : Working first graph.state dispatch)
    (calls : List Call) :
    ∃ next, (graph.attempts calls).dispatch = some next ∧
      (graph.attempts calls).wiring.first = some first ∧
      Working first (graph.attempts calls).state next ∧
      Follows graph.state dispatch (graph.handedBy calls) (graph.attempts calls).state next := by
  induction calls generalizing graph dispatch with
  | nil => exact ⟨dispatch, found, entrance, working, .refl _ _⟩
  | cons call rest ih =>
      obtain ⟨next, next_found, next_entrance, change⟩ :=
        Changes.of_attempt found entrance working.built call
      obtain ⟨last, last_found, last_entrance, last_working, follows⟩ :=
        ih next_found next_entrance (change.working working)
      exact ⟨last, last_found, last_entrance, last_working,
        (change.follows working).trans follows⟩

end Changes

/-! ## Every stage -/

section Stages

variable {graph built : Graph} {call : Call} {batch : Nat}

/-- A graph that has just been built works. -/
theorem build_working (valid : graph.wiring.Valid) (done : graph.build batch = .ok built) :
    ∃ first dispatch, built.dispatch = some dispatch ∧ built.wiring.first = some first ∧
      Working first built.state dispatch := by
  obtain ⟨-, compiled, modules, sink, compiles, placing, sinks, rfl⟩ := build_ok done
  obtain ⟨order, checked, compiles⟩ := Fault.bind_eq_ok.mp compiles
  obtain ⟨expanded, -, compiles⟩ := Fault.bind_eq_ok.mp compiles
  obtain ⟨resolved, resolves, compiles⟩ := Fault.bind_eq_ok.mp compiles
  injection compiles with compiles
  subst compiles
  obtain ⟨-, first, last, layered⟩ := Plan.checkShape_layered checked
  obtain ⟨resolved_length, -⟩ := Plan.resolveFrom_getElem? resolves
  obtain ⟨length_eq, -⟩ := buildModules_getElem? placing (by
    rw [withSink, List.length_modify]
    exact resolved_length)
  obtain ⟨assignments, -, sinks⟩ := Fault.bind_eq_ok.mp sinks
  injection sinks with sinks
  refine ⟨first, _, rfl, layered.first_eq, ?_, valid.first_lt first layered.first_eq, ?_, ?_, ?_,
    by simp, fun _ => ⟨rfl, rfl, rfl⟩, by simp⟩
  · show (modules ++ [sink]).length = graph.wiring.size + 1
    rw [List.length_append, length_eq]
    rfl
  · -- The sink is the last of the modules.
    intro there found
    have at_end : (modules ++ [sink])[modules.length]? = some there := by
      rw [length_eq, ← List.getElem?_toArray]
      exact found
    rw [List.getElem?_concat_length] at at_end
    injection at_end with same
    rw [← same, ← sinks]
  · intro place member
    cases member
  · intro ended
    cases ended

/-- A graph is being wired, or it has been built. -/
inductive Staged (graph : Graph) : Prop
  | wiring (stage : graph.state = .unbuilt) (nothing : graph.dispatch = none)
      (valid : graph.wiring.Valid)
  | working {first : Nat} {dispatch : Dispatch} (found : graph.dispatch = some dispatch)
      (entrance : graph.wiring.first = some first) (working : Working first graph.state dispatch)

/-- Nothing can happen to a graph that has not been built. -/
theorem attempt_event_of_unbuilt (stage : graph.state = .unbuilt)
    (nothing : graph.dispatch = none) (event : Event) :
    (graph.attempt (.event event)).2 = graph := by
  rw [attempt]
  cases acted : graph.act event with
  | none => cases event <;> simp [refused, send, dispatched, nothing]
  | some after =>
      show after = graph
      cases event with
      | link buffer =>
          have linked := (link_ok (eq_ok_of_toOption acted)).1
          rw [stage] at linked
          cases linked
      | start =>
          have started : graph.run = .ok after := eq_ok_of_toOption acted
          unfold run at started
          rw [if_neg (by rw [stage]; decide)] at started
          obtain ⟨linked, -⟩ := Invariant.require_bind_eq_ok.mp started
          rw [stage] at linked
          cases linked
      | send => simp [act, send, dispatched, nothing] at acted
      | work => simp [act, nothing] at acted
      | collect =>
          simp [act, takeOutput, dispatched, nothing, bind, Except.bind, Except.map,
            Except.toOption] at acted
      | kill => simpa [act, kill, nothing] using acted.symm

/-- Sending leaves a graph at its stage. -/
theorem state_of_send (graph : Graph) (chunk : Chunk) :
    (graph.send chunk).2.state = graph.state := by
  unfold send
  split
  case h_1 => rfl
  case h_2 =>
    split
    case isTrue => rfl
    case isFalse =>
      dsimp only
      split <;> rfl

/-- A call that does not go through leaves a graph at its stage. -/
theorem state_of_attempt_false (stopped : (graph.attempt call).1 = false) :
    (graph.attempt call).2.state = graph.state := by
  cases call with
  | event event =>
      rw [attempt] at stopped ⊢
      cases acted : graph.act event with
      | some after =>
          rw [acted] at stopped
          cases stopped
      | none =>
          cases event with
          | send chunk => exact graph.state_of_send chunk
          | _ => rfl
  | _ => exact congrArg Graph.state (eq_of_orElse_false stopped)

/-- A graph that is being wired goes on being wired, or is built. -/
theorem Staged.attempt_of_unbuilt (stage : graph.state = .unbuilt)
    (nothing : graph.dispatch = none) (valid : graph.wiring.Valid) (call : Call) :
    (graph.attempt call).2.Staged := by
  have kept : graph.Staged := .wiring stage nothing valid
  cases call with
  | addModule spec =>
      refine orElse_of kept fun after made => ?_
      cases added : graph.addModule spec with
      | error fault =>
          rw [added] at made
          cases made
      | ok both =>
          rw [added] at made
          injection made with same
          rw [← same, (addModule_ok added).2]
          exact .wiring stage nothing (valid.add spec)
  | connect source target =>
      refine orElse_of kept fun after connected => ?_
      obtain ⟨-, wiring, made, rfl⟩ := connect_ok connected
      exact .wiring stage nothing (valid.connect made)
  | setFirst module =>
      refine orElse_of kept fun after marked => ?_
      obtain ⟨wiring, set, rfl⟩ := setFirst_ok marked
      exact .wiring stage nothing (valid.setFirst set)
  | setLast module =>
      refine orElse_of kept fun after marked => ?_
      obtain ⟨wiring, set, rfl⟩ := setLast_ok marked
      exact .wiring stage nothing (valid.setLast set)
  | build batch =>
      refine orElse_of kept fun after done => ?_
      obtain ⟨first, dispatch, found, entrance, working⟩ := build_working valid done
      exact .working found entrance working
  | event event =>
      rw [attempt_event_of_unbuilt stage nothing]
      exact kept

/-- **Every call leaves a graph that is being wired, or that has been built**, at no earlier
stage. -/
theorem Staged.attempt (staged : graph.Staged) (call : Call) :
    (graph.attempt call).2.Staged ∧
      graph.state.number ≤ (graph.attempt call).2.state.number := by
  cases staged with
  | wiring stage nothing valid =>
      refine ⟨attempt_of_unbuilt stage nothing valid call, ?_⟩
      rw [stage]
      exact Nat.zero_le _
  | working found entrance working =>
      obtain ⟨next, next_found, next_entrance, change⟩ :=
        Changes.of_attempt found entrance working.built call
      exact ⟨.working next_found next_entrance (change.working working), change.number_le⟩

theorem Staged.attempts (staged : graph.Staged) (calls : List Call) :
    (graph.attempts calls).Staged ∧ graph.state.number ≤ (graph.attempts calls).state.number := by
  induction calls generalizing graph with
  | nil => exact ⟨staged, Nat.le_refl _⟩
  | cons call rest ih =>
      obtain ⟨next, onward⟩ := staged.attempt call
      obtain ⟨last, further⟩ := ih next
      exact ⟨last, onward.trans further⟩

end Stages

/-! ## Termination and completion -/

/-- The work of a graph has been ended, and `calls` come later: no queue gains a chunk, workers drop
what they take, input is dropped, and the sink gives what it had and then nothing. -/
structure Over (graph : Graph) (calls : List Call) : Prop where
  ended : (graph.attempts calls).isTerminated = true ∧ (graph.attempts calls).isComplete = false
  dwindles : ∀ origin ∈ graph.dispatch, ∀ last ∈ (graph.attempts calls).dispatch,
    origin.Dwindles last
  drops : ∀ last ∈ (graph.attempts calls).dispatch, ∀ (position : Nat) next,
    last.step (.take position) = some next → next.workers = last.workers
  deaf : ∀ chunk, (graph.attempts calls).send chunk = (.ok false, graph.attempts calls)
  output : graph.handedBy calls ++ (graph.attempts calls).pendingOutput = graph.pendingOutput
  drained : (graph.attempts calls).pendingOutput = [] →
    (graph.attempts calls).takeOutput = .ok (.drained, graph.attempts calls)

/-- A graph is complete, and `calls` come later: nothing ends its work any more. -/
structure Done (graph : Graph) (calls : List Call) : Prop where
  complete : (graph.attempts calls).isComplete = true
  terminate : ∀ last ∈ (graph.attempts calls).dispatch, last.terminate = (false, last)
  kill : (graph.attempts calls).kill = graph.attempts calls ∧
    (graph.attempts calls).isStopped = true

section Ends

variable {graph : Graph} {dispatch : Dispatch} {first : Nat} {stage : GraphState}

theorem isTerminated_eq (found : graph.dispatch = some dispatch) :
    graph.isTerminated = dispatch.terminated := by
  rw [isTerminated, found]

theorem isComplete_eq (found : graph.dispatch = some dispatch) :
    graph.isComplete = dispatch.complete := by
  rw [isComplete, found]

/-- A closed sink where nothing waits says so, and stays as it is. -/
theorem takeOutput_drained (found : graph.dispatch = some dispatch)
    (working : Working first stage dispatch) (ended : dispatch.Ended)
    (nothing : graph.pendingOutput = []) : graph.takeOutput = .ok (.drained, graph) := by
  have inside : dispatch.sink < dispatch.modules.size := by
    rw [working.size_eq]
    exact Nat.lt_succ_self _
  have sink_found := Array.getElem?_eq_getElem inside
  have closed := ended.closed _ _ sink_found
  rw [pendingOutput_eq found, Dispatch.waiting_eq sink_found] at nothing
  have taken : dispatch.modules[dispatch.sink].queue.take =
      (.drained, dispatch.modules[dispatch.sink].queue) := by
    rw [ChunkQueue.take, nothing, closed]
    rfl
  simp only [takeOutput, dispatched, found, bind, Except.bind, sink_found, taken, pure,
    Except.pure, Dispatch.setModule_self sink_found]
  rw [← found]

theorem Working.over (found : graph.dispatch = some dispatch)
    (entrance : graph.wiring.first = some first) (working : Working first graph.state dispatch)
    (terminated : graph.isTerminated = true) (calls : List Call) : graph.Over calls := by
  rw [isTerminated_eq found] at terminated
  obtain ⟨last, last_found, -, last_working, follows⟩ := working.attempts found entrance calls
  obtain ⟨ended, dwindles, output⟩ := follows.dwindles (working.settled terminated)
  refine ⟨⟨?_, ?_⟩, ?_, ?_, ?_, ?_, takeOutput_drained last_found last_working ended⟩
  · rw [isTerminated_eq last_found, ended.terminated]
  · rw [isComplete_eq last_found, ended.incomplete]
  · intro origin origin_mem there there_mem
    obtain rfl := Option.some.inj (found.symm.trans origin_mem)
    obtain rfl := Option.some.inj (last_found.symm.trans there_mem)
    exact dwindles
  · intro there there_mem position next stepped
    obtain rfl := Option.some.inj (last_found.symm.trans there_mem)
    cases Dispatch.moves_of_step stepped with
    | took _ _ _ _ running =>
        rw [ended.terminated] at running
        cases running
    | dropped => rfl
  · intro chunk
    unfold send
    rw [dispatched, last_found]
    simp only [ended.terminated, if_true]
  · rw [pendingOutput_eq last_found, pendingOutput_eq found, follows.sink_eq]
    exact output

/-- A graph is complete only once its workers have been started. -/
theorem Working.begun (working : Working first stage dispatch)
    (complete : dispatch.complete = true) :
    GraphState.running.number ≤ stage.number := by
  have late : ¬ (stage = .built ∨ stage = .linked) := by
    intro early
    rw [(working.early early).2.1] at complete
    cases complete
  cases stage with
  | unbuilt => exact absurd rfl working.built
  | built => exact absurd (Or.inl rfl) late
  | linked => exact absurd (Or.inr rfl) late
  | running | terminated => decide

theorem kill_of_complete (complete : graph.isComplete = true) : graph.kill = graph := by
  unfold kill
  cases found : graph.dispatch with
  | none => rfl
  | some dispatch =>
      rw [isComplete_eq found] at complete
      simp only [complete, if_true]

theorem kill_of_incomplete (found : graph.dispatch = some dispatch)
    (incomplete : graph.isComplete = false) :
    graph.kill = { graph with
      state := .terminated, dispatch := some { dispatch.terminate.2 with dismissed := true } } := by
  rw [isComplete_eq found] at incomplete
  unfold kill
  simp [found, incomplete]

theorem Working.done (found : graph.dispatch = some dispatch)
    (entrance : graph.wiring.first = some first) (working : Working first graph.state dispatch)
    (complete : graph.isComplete = true) (calls : List Call) : graph.Done calls := by
  rw [isComplete_eq found] at complete
  obtain ⟨last, last_found, -, -, follows⟩ := working.attempts found entrance calls
  have last_complete := follows.completes complete
  have is_over : (graph.attempts calls).isComplete = true := by
    rw [isComplete_eq last_found, last_complete]
  refine ⟨is_over, ?_, kill_of_complete is_over, ?_⟩
  · intro there there_mem
    obtain rfl := Option.some.inj (last_found.symm.trans there_mem)
    simp [Dispatch.terminate, last_complete]
  · simp [isStopped, last_found, last_complete]

/-- **After a kill no worker is started**, if the graph had been built. -/
theorem Working.unmanned (found : graph.dispatch = some dispatch)
    (entrance : graph.wiring.first = some first) (working : Working first graph.state dispatch)
    (calls : List Call) :
    (graph.kill.attempts calls).dispatch.map Dispatch.roster = some dispatch.roster := by
  -- The workers that a graph has after the kill are those it had, and a start finds it too late.
  have stays {killed : Graph} {next : Dispatch} (killed_found : killed.dispatch = some next)
      (killed_entrance : killed.wiring.first = some first)
      (killed_working : Working first killed.state next)
      (late : GraphState.running.number ≤ killed.state.number)
      (same : next.roster = dispatch.roster) :
      (killed.attempts calls).dispatch.map Dispatch.roster = some dispatch.roster := by
    obtain ⟨last, last_found, -, -, follows⟩ :=
      killed_working.attempts killed_found killed_entrance calls
    rw [last_found, Option.map_some, follows.staff late, same]
  cases complete : graph.isComplete with
  | true =>
      rw [kill_of_complete complete]
      exact stays found entrance working (working.begun (isComplete_eq found ▸ complete)) rfl
  | false =>
      rw [kill_of_incomplete found complete]
      rw [isComplete_eq found] at complete
      have change : Change first graph.state dispatch [] .terminated _ := .killed complete
      refine stays rfl entrance (change.working working) (GraphState.number_le .running) ?_
      show Dispatch.roster dispatch.terminate.2 = _
      rw [Dispatch.roster, dispatch.terminate_eq.1]
      rfl

end Ends

/-- The course of a graph, whatever `calls` come later. -/
structure Course (graph : Graph) (calls : List Call) : Prop where
  /-- Termination is absorbing. -/
  is_over : graph.isTerminated = true → graph.Over calls
  /-- Completion is final. -/
  done : graph.isComplete = true → graph.Done calls
  apart : ¬ (graph.isComplete = true ∧ graph.isTerminated = true)
  /-- Killing a built graph ends its work, and so does a kernel that fails. -/
  killed : graph.state ≠ .unbuilt → graph.isComplete = false → graph.kill.isTerminated = true
  failed : ∀ (position : Nat) error after,
    graph.act (.work (.leave position (.error error))) = some after →
      graph.isComplete = false → after.isTerminated = true
  /-- The stage never goes back, and a call that does not go through leaves it. -/
  onward : graph.state.number ≤ (graph.attempts calls).state.number
  unmoved : ∀ call, (graph.attempt call).1 = false → (graph.attempt call).2.state = graph.state
  /-- A graph that is killed once it has been built gets no further worker. -/
  unmanned : graph.state ≠ .unbuilt →
    (graph.kill.attempts calls).dispatch.map Dispatch.roster = graph.dispatch.map Dispatch.roster
  /-- A graph that is killed before that does not know of it. -/
  traceless : graph.state = .unbuilt → graph.kill = graph

theorem Staged.course {graph : Graph} (staged : graph.Staged) (calls : List Call) :
    graph.Course calls := by
  have onward := (staged.attempts calls).2
  have unmoved (call : Call) (stopped : (graph.attempt call).1 = false) :=
    state_of_attempt_false stopped
  cases staged with
  | wiring stage nothing valid =>
      have killed : graph.kill = graph := by simp [kill, nothing]
      refine ⟨?_, ?_, ?_, fun built => absurd stage built, ?_, onward, unmoved,
        fun built => absurd stage built, fun _ => killed⟩
      · simp [isTerminated, nothing]
      · simp [isComplete, nothing]
      · simp [isComplete, nothing]
      · simp [act, nothing]
  | @working first dispatch found entrance working =>
      refine ⟨fun ended => working.over found entrance ended calls,
        fun complete => working.done found entrance complete calls, ?_, ?_, ?_, onward, unmoved, ?_,
        fun stage => absurd stage working.built⟩
      · rintro ⟨complete, terminated⟩
        rw [isTerminated_eq found] at terminated
        rw [isComplete_eq found, (working.settled terminated).incomplete] at complete
        cases complete
      · intro _ incomplete
        rw [kill_of_incomplete found incomplete]
        exact Dispatch.terminated_of_terminate (isComplete_eq found ▸ incomplete)
      · intro position error after acted incomplete
        rw [act, found] at acted
        obtain ⟨next, stepped, rfl⟩ := Option.map_eq_some_iff.mp acted
        have moved : dispatch.Moves (.leave position (.error error)) next :=
          Dispatch.moves_of_step stepped
        cases moved with
        | failed =>
            exact Dispatch.terminated_of_terminate (isComplete_eq found ▸ incomplete)
      · intro _
        rw [found]
        exact working.unmanned found entrance calls

/-- **Termination is absorbing and completion is final**, after any calls on a new graph, and
whatever is called later. -/
theorem termination_absorbing (name : String) (settings : GraphSettings) (stream : Stream)
    (earlier later : List Call) :
    ((create name settings stream).attempts earlier).Course later := by
  have created : (create name settings stream).Staged := .wiring rfl rfl .empty
  exact (created.attempts earlier).1.course later

/-- A single module that works on four slots at a time. -/
def loneWiring : List Call := [.addModule (sampleModule "only" 4 2), .setFirst 0, .setLast 0]

/-- It is built for four slots, linked and started. -/
def loneStart : List Call :=
  [.build 4, .event (.link (.create ⟨7, 2⟩ 4 4)), .event .start]

/-- Its worker has taken the only assignment when it is killed. -/
def loneKilled : List Call :=
  loneWiring ++ loneStart ++
    [.event (.send front), .event (.send back), .event (.work (.take 0)), .event .kill]

/-- Its worker has finished the only assignment. -/
def loneFinished : List Call :=
  loneWiring ++ loneStart ++ [.event (.send front), .event (.send back)] ++
    (sampleWork 0).map fun step => .event (.work step)

/-- The worker goes on, the graph is started again, input is sent, and output is asked for. -/
def loneLater : List Call :=
  [.event (.work (.enter 0)), .event (.work (.leave 0 (.ok ()))), .event .start,
    .event (.send front), .event .collect]

/-- A graph that is killed while its worker holds an assignment, and one that is complete. -/
theorem termination_absorbing_sample :
    let lone := create "sample" sample.settings (.blank "nothing")
    ((lone.attempts loneKilled).isTerminated = true ∧
      (lone.attempts loneKilled).Over loneLater) ∧
    ((lone.attempts loneFinished).isComplete = true ∧
      (lone.attempts loneFinished).Done loneLater) := by
  intro lone
  have ended : (lone.attempts loneKilled).isTerminated = true := by decide +kernel
  have complete : (lone.attempts loneFinished).isComplete = true := by decide +kernel
  have killed := termination_absorbing "sample" sample.settings (.blank "nothing") loneKilled
    loneLater
  have finished := termination_absorbing "sample" sample.settings (.blank "nothing") loneFinished
    loneLater
  exact ⟨⟨ended, killed.is_over ended⟩, complete, finished.done complete⟩

/-- A graph that is killed while it is being wired counts as stopped.  Built, linked and run after
that, it starts its worker. -/
theorem unwired_kill_forgotten :
    let killed := (create "sample" sample.settings (.blank "nothing")).attempts
      (loneWiring ++ [.event .kill])
    killed.isStopped = true ∧ killed.dispatch.isNone = true ∧
      (killed.attempts loneStart).dispatch.map Dispatch.roster = some [(0, 0)] := by
  decide +kernel

end Graph

end Mixnet
