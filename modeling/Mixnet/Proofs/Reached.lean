import Mixnet.Proofs.Crew

/-!
# What every play reaches

A play starts with a built graph and leads through sound states only.  This file says once what each
event makes of a graph, and carries the invariants through it, together with what ties a state to
the events behind it: the input that was sent has been received, the workers are those of the
modules, and a calm play has not ended early.

## Main definitions

* `Graph.Turn`: what an event makes of the stage and the dispatch of a graph
* `Graph.Reached`: a graph that a play has reached

## Main statements

* `Graph.Reached.turn`: an event that goes through takes one of these turns
* `Graph.play_induction`: what holds at first and is kept by every turn holds after every play
-/

namespace Mixnet

open Journal

namespace Dispatch

variable {origin dispatch : Dispatch} {first expanded : Nat} {rank : Nat → Nat}

/-! ## Input and output -/

/-- **Accepted input keeps a state sound.** -/
theorem Sound.fed (sound : Sound origin first dispatch) (laid : origin.Laid first expanded rank)
    {module next : Module} {piece : Chunk} {released : List Chunk} {last : Bool}
    (found : dispatch.modules[first]? = some module)
    (delivers : dispatch.Delivers expanded none first piece module next released last) :
    Sound origin first (dispatch.delivered none first piece next released last) := by
  show Sound origin first { dispatch.delivered none first piece next released last with
    workers := dispatch.workers }
  refine sound.delivered laid found delivers rfl (fun inner => absurd rfl inner) ?_
    (fun _ => rfl) (sound.staffed.of_same rfl rfl subset_deliver) fun _ _ found _ => found
  -- Input is nobody's report, so it performs nothing.
  intro id
  rw [performed_deliver, if_neg (by simp)]

theorem setModule_self {id : Nat} {module : Module} (found : dispatch.modules[id]? = some module) :
    dispatch.setModule id module = dispatch := by
  have same : dispatch.modules.setIfInBounds id module = dispatch.modules := by
    apply Array.ext_getElem?
    intro other
    rw [getElem?_setIfInBounds found]
    split
    case isTrue here => rw [here, found]
    case isFalse => rfl
  rw [setModule, same]

/-- **Taking output keeps a state sound.** -/
theorem Sound.collected (sound : Sound origin first dispatch) {module : Module}
    (found : dispatch.modules[dispatch.sink]? = some module) :
    Sound origin first
      (dispatch.setModule dispatch.sink { module with queue := module.queue.take.2 }) := by
  cases waiting : module.queue.chunks with
  | nil =>
      have unchanged : { module with queue := module.queue.take.2 } = module := by
        rw [ChunkQueue.take, waiting]
      rw [unchanged, setModule_self found]
      exact sound
  | cons chunk rest =>
      have popped : { module with queue := module.queue.take.2 } = module.withWaiting rest := by
        rw [ChunkQueue.take, waiting]
        rfl
      rw [popped]
      show Sound origin first { dispatch.setModule dispatch.sink (module.withWaiting rest) with
        workers := dispatch.workers }
      exact sound.pop found waiting (fun _ _ => rfl) 0
        (fun impossible => absurd impossible (Nat.lt_irrefl _)) (fun _ => rfl) (fun _ => rfl)
        sound.staffed fun _ _ found _ => found

end Dispatch

/-! ## Events -/

namespace Graph

variable {built graph after : Graph} {origin dispatch next : Dispatch} {first last expanded : Nat}
  {rank : Nat → Nat} {events : List Event} {event : Event} {stage later : GraphState}

/-- The workers a graph has at a stage. -/
def Manned (origin : Dispatch) (stage : GraphState) (roster : List (Nat × Nat)) : Prop :=
  match stage with
  | .unbuilt => False
  | .built | .linked => roster = []
  | .running => roster = origin.crew.map fun worker => (worker.module, worker.thread)
  | .terminated =>
      roster = [] ∨ roster = origin.crew.map fun worker => (worker.module, worker.thread)

/-- A graph has no workers, or its crew. -/
theorem Manned.none_or_all {roster : List (Nat × Nat)} (manned : Manned origin stage roster) :
    Manned origin .terminated roster := by
  cases stage with
  | unbuilt => exact manned.elim
  | built => exact Or.inl manned
  | linked => exact Or.inl manned
  | running => exact Or.inr manned
  | terminated => exact manned

/-- What an event makes of the stage and the dispatch of a graph. -/
inductive Turn (origin : Dispatch) (first expanded : Nat) (stage : GraphState)
    (dispatch : Dispatch) : Event → GraphState → Dispatch → Prop
  /-- The graph is linked. -/
  | linked {buffer : RoundBuffer} (built : stage = .built) :
      Turn origin first expanded stage dispatch (.link buffer) .linked dispatch
  /-- The crew is hired. -/
  | started (linked : stage = .linked) :
      Turn origin first expanded stage dispatch .start .running
        { dispatch with workers := origin.crew.toArray }
  /-- A graph killed before it ran stays stopped. -/
  | stayed (ended : stage = .terminated) :
      Turn origin first expanded stage dispatch .start stage dispatch
  /-- Input is dropped, because work has been ended. -/
  | dropped {chunk : Chunk} (ended : dispatch.terminated = true) :
      Turn origin first expanded stage dispatch (.send chunk) stage dispatch
  /-- Input is delivered. -/
  | fed {chunk : Chunk} {module next : Module} {released : List Chunk} {last : Bool}
      (running : dispatch.terminated = false) (found : dispatch.modules[first]? = some module)
      (delivers : dispatch.Delivers expanded none first chunk module next released last) :
      Turn origin first expanded stage dispatch (.send chunk) stage
        (dispatch.delivered none first chunk next released last)
  /-- A worker takes a step. -/
  | worked {step : Dispatch.Step} {next : Dispatch} (moved : dispatch.Moves step next) :
      Turn origin first expanded stage dispatch (.work step) stage next
  /-- The oldest finished chunk is taken, if there is one. -/
  | collected {module : Module} (found : dispatch.modules[dispatch.sink]? = some module) :
      Turn origin first expanded stage dispatch .collect stage
        (dispatch.setModule dispatch.sink { module with queue := module.queue.take.2 })
  /-- A complete graph is left alone. -/
  | spared (complete : dispatch.complete = true) :
      Turn origin first expanded stage dispatch .kill stage dispatch
  /-- All work is ended, and the workers are told to leave. -/
  | killed (incomplete : dispatch.complete = false) :
      Turn origin first expanded stage dispatch .kill .terminated
        { dispatch.terminate.2 with dismissed := true }

namespace Turn

/-- **Every turn keeps a state sound.** -/
theorem sound (turn : Turn origin first expanded stage dispatch event later next)
    (laid : origin.Laid first expanded rank) (sound : Dispatch.Sound origin first dispatch)
    (manned : Manned origin stage dispatch.roster) : Dispatch.Sound origin first next := by
  cases turn with
  | started linked =>
      subst linked
      exact sound.start laid (Array.toList_eq_nil_iff.mp (List.map_eq_nil_iff.mp manned))
  | fed running found delivers => exact sound.fed laid found delivers
  | worked moved => exact sound.moves laid moved
  | collected found => exact sound.collected found
  | killed => exact sound.terminate.of_flags (fun unfailed => unfailed) fun _ => rfl
  | _ => exact sound

/-- Every turn keeps a graph manned according to its stage. -/
theorem manned (turn : Turn origin first expanded stage dispatch event later next)
    (laid : origin.Laid first expanded rank) (sound : Dispatch.Sound origin first dispatch)
    (manned : Manned origin stage dispatch.roster) : Manned origin later next.roster := by
  cases turn with
  | linked built =>
      subst built
      exact manned
  | started => rfl
  | worked moved =>
      obtain ⟨roster_eq, -⟩ := moved.steady sound laid
      rw [roster_eq]
      exact manned
  | killed =>
      obtain ⟨workers_eq, -⟩ := dispatch.terminate_eq
      have roster_eq : Dispatch.roster { dispatch.terminate.2 with dismissed := true } =
          dispatch.roster := by
        rw [Dispatch.roster, workers_eq]
        rfl
      rw [roster_eq]
      exact manned.none_or_all
  | _ => exact manned

/-- No turn takes back termination. -/
theorem running (turn : Turn origin first expanded stage dispatch event later next)
    (laid : origin.Laid first expanded rank) (sound : Dispatch.Sound origin first dispatch)
    (going : next.terminated = false) : dispatch.terminated = false := by
  by_contra ended
  rw [Bool.not_eq_false] at ended
  have still : next.terminated = true := by
    cases turn with
    | worked moved =>
        obtain ⟨-, -, stays, -⟩ := moved.steady sound laid
        exact stays ended
    | killed =>
        obtain ⟨-, -, -, stays⟩ := dispatch.terminate_eq
        exact stays ended
    | _ => exact ended
  rw [still] at going
  cases going

/-- The first module receives what is sent, as long as work goes on. -/
theorem received (turn : Turn origin first expanded stage dispatch event later next)
    (laid : origin.Laid first expanded rank) (sound : Dispatch.Sound origin first dispatch)
    (going : next.terminated = false) :
    reportsTo next.journal first = (sent [event]).reverse ++ reportsTo dispatch.journal first := by
  cases turn with
  | dropped ended =>
      rw [ended] at going
      cases going
  | @fed chunk module next released last running found delivers =>
      show reportsTo (deliver dispatch.journal none first chunk released) first = _
      rw [reportsTo_deliver, if_pos rfl]
      rfl
  | worked moved =>
      obtain ⟨-, -, -, received_eq⟩ := moved.steady sound laid
      exact received_eq
  | killed =>
      obtain ⟨-, journal_eq, -⟩ := dispatch.terminate_eq
      exact congrArg (reportsTo · first) journal_eq
  | _ => rfl

/-- A calm turn ends no work and dismisses nobody. -/
theorem calm (turn : Turn origin first expanded stage dispatch event later next)
    (laid : origin.Laid first expanded rank) (sound : Dispatch.Sound origin first dispatch)
    (calm : event.Calm) :
    next.terminated = dispatch.terminated ∧ next.failure = dispatch.failure ∧
      next.dismissed = dispatch.dismissed := by
  cases turn with
  | worked moved =>
      obtain ⟨-, dismissed_eq, -⟩ := moved.steady sound laid
      obtain ⟨terminated_eq, failure_eq⟩ := moved.calm sound laid calm
      exact ⟨terminated_eq, failure_eq, dismissed_eq⟩
  | spared => exact ⟨rfl, rfl, rfl⟩
  | killed => exact calm.elim
  | _ => exact ⟨rfl, rfl, rfl⟩

end Turn

/-! ## Reached graphs -/

/-- A graph that a list of events has reached. -/
structure Reached (built : Graph) (origin : Dispatch) (first : Nat) (events : List Event)
    (graph : Graph) (dispatch : Dispatch) : Prop where
  dispatch_eq : graph.dispatch = some dispatch
  wiring_eq : graph.wiring = built.wiring
  sound : Dispatch.Sound origin first dispatch
  manned : Manned origin graph.state dispatch.roster
  received : dispatch.terminated = false → reportsTo dispatch.journal first = (sent events).reverse
  calm : Calm events → dispatch.terminated = false ∧ dispatch.failure = none ∧
    dispatch.dismissed = false

namespace Reached

/-- A built graph has been reached by nothing. -/
theorem initial (building : Built built origin first last rank) :
    Reached built origin first [] built origin := by
  have untouched := building.laid.untouched
  refine ⟨building.dispatch_eq, rfl, .initial building.laid, ?_, ?_, ?_⟩
  · rw [building.state_eq]
    show origin.roster = []
    rw [untouched]
    rfl
  · intro _
    rw [untouched]
    rfl
  · intro _
    rw [untouched]
    exact ⟨rfl, rfl, rfl⟩

/-- **What has been reached is reached still after a turn.** -/
theorem go (reached : Reached built origin first events graph dispatch)
    (laid : origin.Laid first expanded rank) (dispatch_eq : after.dispatch = some next)
    (wiring_eq : after.wiring = graph.wiring)
    (turn : Turn origin first expanded graph.state dispatch event after.state next) :
    Reached built origin first (events ++ [event]) after next := by
  refine ⟨dispatch_eq, wiring_eq.trans reached.wiring_eq,
    turn.sound laid reached.sound reached.manned, turn.manned laid reached.sound reached.manned,
    ?_, ?_⟩
  · intro going
    rw [turn.received laid reached.sound going,
      reached.received (turn.running laid reached.sound going), sent_append, List.reverse_append]
  · intro all_calm
    obtain ⟨terminated_eq, failure_eq, dismissed_eq⟩ := turn.calm laid reached.sound
      (all_calm event (List.mem_append_right _ (List.mem_singleton_self _)))
    rw [terminated_eq, failure_eq, dismissed_eq]
    apply reached.calm
    intro other member
    exact all_calm other (List.mem_append_left _ member)

/-- Input that does not fault is dropped after termination, or delivered. -/
theorem accepted (building : Built built origin first last rank)
    (reached : Reached built origin first events graph dispatch) {chunk : Chunk} {answer : Bool}
    (sending : graph.send chunk = (.ok answer, after)) :
    dispatch.terminated = true ∧ answer = false ∧ after = graph ∨
      dispatch.terminated = false ∧ ∃ module next released, dispatch.modules[first]? = some module ∧
        module.queue.closed = false ∧
        dispatch.Delivers built.expandedSize none first chunk module next released answer ∧
        after = { graph with
          dispatch := some (dispatch.delivered none first chunk next released answer) } := by
  have first_eq : graph.wiring.first.getD 0 = first := by
    rw [reached.wiring_eq, building.first_eq, Option.getD_some]
  unfold send at sending
  rw [Graph.dispatched, reached.dispatch_eq] at sending
  simp only [first_eq] at sending
  split at sending
  case isTrue ended =>
    injection sending with outcome same
    injection outcome with outcome
    exact Or.inl ⟨ended, outcome.symm, same.symm⟩
  case isFalse running =>
    split at sending
    case isTrue => cases sending
    case isFalse opened =>
      rw [Bool.not_eq_true] at running opened
      cases primes : dispatch.prime none first chunk with
      | mk outcome primed =>
          rw [primes] at sending
          injection sending with outcome_eq same
          subst outcome_eq same
          obtain ⟨module, out, list, found, accepted⟩ := Dispatch.prime_accepted primes
          have fits := reached.sound.accounted.fits building.laid found
          obtain ⟨next, released, flag, delivers⟩ := Dispatch.prime_delivers found fits.sized
            (reached.sound.accounted.kept first module found) accepted none
          -- There is one way to deliver it, and that is what happened.
          have both := delivers.prime_eq.symm.trans primes
          injection both with flag_eq state_eq
          injection flag_eq with flag_eq
          subst flag_eq state_eq
          rw [found, Option.map_some, Option.getD_some] at opened
          exact Or.inr ⟨running, module, next, released, found, opened, delivers, rfl⟩

end Reached

theorem eq_ok_of_toOption {ε α : Type} {outcome : Except ε α} {value : α}
    (some_value : outcome.toOption = some value) : outcome = .ok value := by
  cases outcome with
  | error fault => cases some_value
  | ok other =>
      injection some_value with same
      rw [same]

/-- Linking a built graph gives it a stream, and nothing else. -/
theorem link_ok {buffer : RoundBuffer} (linked : graph.link buffer = .ok after) :
    graph.state = .built ∧ ∃ stream, after = { graph with stream, state := .linked } := by
  unfold link at linked
  obtain ⟨stage, linked⟩ := Invariant.require_bind_eq_ok.mp linked
  obtain ⟨-, linked⟩ := Invariant.require_bind_eq_ok.mp linked
  obtain ⟨stream, -, linked⟩ := Fault.bind_eq_ok.mp linked
  injection linked with linked
  exact ⟨of_decide_eq_true stage, stream, linked.symm⟩

/-- Running a graph hires the workers of its modules, unless it has been killed before. -/
theorem run_ok (found : graph.dispatch = some dispatch) (started : graph.run = .ok after) :
    graph.state = .terminated ∧ after = graph ∨
      graph.state = .linked ∧ after = { graph with
        state := .running
        dispatch := some { dispatch with workers := dispatch.crew.toArray } } := by
  unfold run at started
  split at started
  case isTrue ended =>
    injection started with started
    exact Or.inl ⟨ended, started.symm⟩
  case isFalse =>
    obtain ⟨stage, started⟩ := Invariant.require_bind_eq_ok.mp started
    obtain ⟨same, dispatched, started⟩ := Fault.bind_eq_ok.mp started
    rw [Graph.dispatched, found] at dispatched
    injection dispatched with dispatched
    subst dispatched
    injection started with started
    exact Or.inr ⟨of_decide_eq_true stage, started.symm⟩

/-- Asking for output takes the oldest chunk from the queue of the sink. -/
theorem takeOutput_ok {taken : ChunkQueue.Taken} (found : graph.dispatch = some dispatch)
    (collecting : graph.takeOutput = .ok (taken, after)) :
    ∃ module, dispatch.modules[dispatch.sink]? = some module ∧ taken = module.queue.take.1 ∧
      after = { graph with
        dispatch := some
          (dispatch.setModule dispatch.sink { module with queue := module.queue.take.2 }) } := by
  obtain ⟨same, dispatched, collecting⟩ := Fault.bind_eq_ok.mp collecting
  rw [Graph.dispatched, found] at dispatched
  injection dispatched with dispatched
  subst dispatched
  cases sink_found : dispatch.modules[dispatch.sink]? with
  | none =>
      rw [sink_found] at collecting
      cases collecting
  | some module =>
      rw [sink_found] at collecting
      injection collecting with both
      injection both with taken_eq after_eq
      exact ⟨module, rfl, taken_eq.symm, after_eq.symm⟩

/-- Collecting output takes the oldest chunk from the queue of the sink. -/
theorem collect_ok (found : graph.dispatch = some dispatch)
    (acted : graph.act .collect = some after) :
    ∃ module, dispatch.modules[dispatch.sink]? = some module ∧
      after = { graph with
        dispatch := some
          (dispatch.setModule dispatch.sink { module with queue := module.queue.take.2 }) } := by
  obtain ⟨⟨taken, there⟩, taking, rfl⟩ := Fault.map_eq_ok.mp (eq_ok_of_toOption acted)
  obtain ⟨module, sink_found, -, after_eq⟩ := takeOutput_ok found taking
  exact ⟨module, sink_found, after_eq⟩

/-- **An event that goes through takes one of the turns.** -/
theorem Reached.turn (building : Built built origin first last rank)
    (reached : Reached built origin first events graph dispatch)
    (acted : graph.act event = some after) :
    ∃ next, after.dispatch = some next ∧ after.wiring = graph.wiring ∧
      Turn origin first built.expandedSize graph.state dispatch event after.state next := by
  cases event with
  | link buffer =>
      obtain ⟨stage, stream, rfl⟩ := link_ok (eq_ok_of_toOption acted)
      exact ⟨dispatch, reached.dispatch_eq, rfl, .linked stage⟩
  | start =>
      rcases run_ok reached.dispatch_eq (eq_ok_of_toOption acted) with
        ⟨ended, rfl⟩ | ⟨stage, rfl⟩
      · exact ⟨dispatch, reached.dispatch_eq, rfl, .stayed ended⟩
      · have crew_eq : dispatch.crew = origin.crew := reached.sound.accounted.crew_eq
        rw [crew_eq]
        exact ⟨_, rfl, rfl, .started stage⟩
  | send chunk =>
      rw [Graph.act] at acted
      split at acted
      case h_2 => cases acted
      case h_1 answer there sending =>
        injection acted with acted
        subst acted
        rcases reached.accepted building sending with ⟨ended, -, rfl⟩ |
          ⟨running, module, next, released, found, -, delivers, rfl⟩
        · exact ⟨dispatch, reached.dispatch_eq, rfl, .dropped ended⟩
        · exact ⟨_, rfl, rfl, .fed running found delivers⟩
  | work step =>
      rw [Graph.act, reached.dispatch_eq] at acted
      obtain ⟨next, stepped, rfl⟩ := Option.map_eq_some_iff.mp acted
      exact ⟨next, rfl, rfl, .worked (Dispatch.moves_of_step stepped)⟩
  | collect =>
      obtain ⟨module, found, rfl⟩ := collect_ok reached.dispatch_eq acted
      exact ⟨_, rfl, rfl, .collected found⟩
  | kill =>
      injection acted with acted
      subst acted
      unfold kill
      rw [reached.dispatch_eq]
      dsimp only
      cases complete : dispatch.complete with
      | true =>
          refine ⟨dispatch, by simp [reached.dispatch_eq], by simp, ?_⟩
          simpa using .spared complete
      | false => exact ⟨_, rfl, rfl, .killed complete⟩

/-- **What holds of a built graph and is kept by every turn holds after every play.** -/
theorem play_induction (building : Built built origin first last rank)
    {motive : List Event → Graph → Dispatch → Prop} (initial : motive [] built origin)
    (turn : ∀ events event graph after dispatch next, built.play events = some graph →
      Reached built origin first events graph dispatch → motive events graph dispatch →
        Turn origin first built.expandedSize graph.state dispatch event after.state next →
          motive (events ++ [event]) after next)
    (played : built.play events = some graph) :
    ∃ dispatch,
      Reached built origin first events graph dispatch ∧ motive events graph dispatch := by
  induction events using List.reverseRecOn generalizing graph with
  | nil =>
      injection played with played
      subst played
      exact ⟨origin, .initial building, initial⟩
  | append_singleton earlier event ih =>
      obtain ⟨before, played, acted⟩ := play_concat played
      obtain ⟨dispatch, reached, kept⟩ := ih played
      obtain ⟨next, dispatch_eq, wiring_eq, turned⟩ := reached.turn building acted
      exact ⟨next, reached.go building.laid dispatch_eq wiring_eq turned,
        turn earlier event before graph dispatch next played reached kept turned⟩

/-- **Every play of a built graph leads through sound states.** -/
theorem reached_of_play (building : Built built origin first last rank)
    (played : built.play events = some graph) :
    ∃ dispatch, Reached built origin first events graph dispatch := by
  obtain ⟨dispatch, reached, -⟩ := play_induction building
    (motive := fun _ _ _ => True) trivial (fun _ _ _ _ _ _ _ _ _ _ => trivial) played
  exact ⟨dispatch, reached⟩

end Graph

end Mixnet
