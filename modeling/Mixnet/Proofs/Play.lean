import Mathlib.Algebra.BigOperators.Group.List.Basic
import Mixnet.Graph

/-!
# Playing a graph

Whatever happens to a built graph is one sequence of events: it is linked and started, input is
sent, workers take steps, output is collected, and it may be killed.  A play is such a sequence, and
a law about every order of events is a law about every play.

## Main definitions

* `Graph.Event`, `Graph.act`, `Graph.play`: what can happen to a built graph
* `Graph.sent`: the chunks sent in a play
* `Graph.Calm`: no kernel fails and nobody ends the work
* `Dispatch.Moves`: the steps of workers, one constructor for each way a step can go
* `Dispatch.total`: a quantity summed over all workers

## Main statements

* `Dispatch.moves_of_step`: a step goes one of these ways
* `Dispatch.total_setActivity`: one worker doing something else changes its own share

## Design notes

An event that faults does not lead anywhere, except for the fault of a worker, which the worker
keeps.  Whether a send can fault is therefore a question about `Graph.send`, not about plays.
-/

namespace Mixnet

/-! ## Plays -/

namespace Graph

/-- What can happen to a built graph. -/
inductive Event where
  /-- It is linked to a round buffer. -/
  | link (buffer : RoundBuffer)
  /-- Its workers are started. -/
  | start
  /-- A chunk of input is sent. -/
  | send (chunk : Chunk)
  /-- A worker takes a step. -/
  | work (step : Dispatch.Step)
  /-- A finished chunk is asked for. -/
  | collect
  /-- The graph is killed. -/
  | kill

/-- The graph after an event, if the event goes through. -/
def act (graph : Graph) : Event → Option Graph
  | .link buffer => (graph.link buffer).toOption
  | .start => graph.run.toOption
  | .send chunk =>
      match graph.send chunk with
      | (.ok _, after) => some after
      | (.error _, _) => none
  | .work step =>
      (graph.dispatch.bind (·.step step)).map fun dispatch =>
        { graph with dispatch := some dispatch }
  | .collect => (graph.takeOutput.map Prod.snd).toOption
  | .kill => some graph.kill

/-- The graph after a list of events, if each goes through. -/
def play (graph : Graph) : List Event → Option Graph
  | [] => some graph
  | event :: rest => (graph.act event).bind (play · rest)

/-- The chunks sent by a list of events. -/
def sent (events : List Event) : List Chunk :=
  events.filterMap fun
    | .send chunk => some chunk
    | _ => none

/-- An event is calm if no kernel fails by it and it does not end the work. -/
def Event.Calm : Event → Prop
  | .work (.leave _ result) => result = .ok ()
  | .kill => False
  | _ => True

/-- Nothing that happens ends the work early. -/
def Calm (events : List Event) : Prop := ∀ event ∈ events, event.Calm

/-- The number of steps that workers take in a list of events. -/
def steps (events : List Event) : Nat :=
  events.countP fun
    | .work _ => true
    | _ => false

theorem play_append (graph : Graph) (earlier later : List Event) :
    graph.play (earlier ++ later) = (graph.play earlier).bind (·.play later) := by
  induction earlier generalizing graph with
  | nil => rfl
  | cons event earlier ih =>
      rw [List.cons_append, play, play]
      cases graph.act event with
      | none => rfl
      | some next => exact ih next

/-- The last event of a play happens to the graph that the others lead to. -/
theorem play_concat {graph after : Graph} {events : List Event} {event : Event}
    (played : graph.play (events ++ [event]) = some after) :
    ∃ before, graph.play events = some before ∧ before.act event = some after := by
  rw [play_append] at played
  obtain ⟨before, reached, last⟩ := Option.bind_eq_some_iff.mp played
  refine ⟨before, reached, ?_⟩
  simpa [play, Option.bind_eq_some_iff] using last

@[simp] theorem sent_append (earlier later : List Event) :
    sent (earlier ++ later) = sent earlier ++ sent later :=
  List.filterMap_append

end Graph

/-! ## Steps of workers -/

/-- A chunk taken from a queue is the one that has waited longest. -/
theorem ChunkQueue.of_take_chunk {queue after : ChunkQueue} {chunk : Chunk}
    (taken : queue.take = (.chunk chunk, after)) :
    ∃ rest, queue.chunks = chunk :: rest ∧ after = { queue with chunks := rest } := by
  cases waiting : queue.chunks with
  | nil =>
      -- An empty queue has nothing to give, whether it is closed or not.
      simp only [take, waiting] at taken
      split at taken <;> simp at taken
  | cons first rest =>
      rw [take, waiting] at taken
      injection taken with same queue_eq
      injection same with same
      exact ⟨rest, by rw [same], queue_eq.symm⟩

/-- A module with other assignments waiting. -/
def Module.withWaiting (module : Module) (chunks : List Chunk) : Module :=
  { module with queue := { module.queue with chunks } }

namespace Dispatch

/-- The ways a step of a worker can go. -/
inductive Moves (dispatch : Dispatch) : Step → Dispatch → Prop
  /-- An idle worker takes an assignment. -/
  | took {position : Nat} {worker : Worker} {module : Module} {chunk : Chunk} {rest : List Chunk}
      (here : dispatch.workers[position]? = some worker) (idle : worker.activity = .idle)
      (found : dispatch.modules[worker.module]? = some module)
      (waiting : module.queue.chunks = chunk :: rest) (running : dispatch.terminated = false) :
      Moves dispatch (.take position)
        ((dispatch.setModule worker.module (module.withWaiting rest)).setActivity position
          (.working (module.tasks chunk)))
  /-- An idle worker drops an assignment, because work has been ended. -/
  | dropped {position : Nat} {worker : Worker} {module : Module} {chunk : Chunk} {rest : List Chunk}
      (here : dispatch.workers[position]? = some worker) (idle : worker.activity = .idle)
      (found : dispatch.modules[worker.module]? = some module)
      (waiting : module.queue.chunks = chunk :: rest) (ended : dispatch.terminated = true) :
      Moves dispatch (.take position)
        (dispatch.setModule worker.module (module.withWaiting rest))
  /-- A worker enters the kernel. -/
  | entered {position : Nat} {worker : Worker} {chunk : Chunk} {rest : List Task}
      (here : dispatch.workers[position]? = some worker)
      (next : worker.activity = .working (.call chunk :: rest)) :
      Moves dispatch (.enter position)
        ((dispatch.observe (.called worker.module chunk)).setActivity position
          (.calling chunk rest))
  /-- A worker returns from the kernel. -/
  | returned {position : Nat} {worker : Worker} {chunk : Chunk} {rest : List Task}
      (here : dispatch.workers[position]? = some worker)
      (inside : worker.activity = .calling chunk rest) :
      Moves dispatch (.leave position (.ok ()))
        ((dispatch.observe (.returned worker.module chunk (.ok ()))).setActivity position
          (.working rest))
  /-- A worker leaves the kernel with an error. -/
  | failed {position : Nat} {worker : Worker} {chunk : Chunk} {rest : List Task}
      {error : KernelError} (here : dispatch.workers[position]? = some worker)
      (inside : worker.activity = .calling chunk rest) :
      Moves dispatch (.leave position (.error error))
        (((dispatch.observe (.returned worker.module chunk (.error error))).setActivity position
          .idle).fail worker.module error)
  /-- A worker has finished an assignment. -/
  | finished {position : Nat} {worker : Worker}
      (here : dispatch.workers[position]? = some worker) (done : worker.activity = .working []) :
      Moves dispatch (.proceed position) (dispatch.setActivity position .idle)
  /-- A worker looks whether to go on, and does. -/
  | passed {position : Nat} {worker : Worker} {rest : List Task}
      (here : dispatch.workers[position]? = some worker)
      (next : worker.activity = .working (.checkpoint :: rest))
      (running : dispatch.terminated = false) :
      Moves dispatch (.proceed position) (dispatch.setActivity position (.working rest))
  /-- A worker looks whether to go on, and gives up. -/
  | stopped {position : Nat} {worker : Worker} {rest : List Task}
      (here : dispatch.workers[position]? = some worker)
      (next : worker.activity = .working (.checkpoint :: rest))
      (ended : dispatch.terminated = true) :
      Moves dispatch (.proceed position) (dispatch.setActivity position .idle)
  /-- A worker reports a piece. -/
  | reported {position target : Nat} {worker : Worker} {piece : Chunk} {rest : List Task}
      {last : Bool} {primed : Dispatch} (here : dispatch.workers[position]? = some worker)
      (next : worker.activity = .working (.report target piece :: rest))
      (done : dispatch.prime (some worker.module) target piece = (.ok last, primed)) :
      Moves dispatch (.proceed position) (primed.setActivity position (.working rest))
  /-- A worker meets a fault. -/
  | crashed {position target : Nat} {worker : Worker} {piece : Chunk} {rest : List Task}
      {fault : Fault} {primed : Dispatch} (here : dispatch.workers[position]? = some worker)
      (next : worker.activity = .working (.report target piece :: rest))
      (refused : dispatch.prime (some worker.module) target piece = (.error fault, primed)) :
      Moves dispatch (.proceed position) (primed.setActivity position (.crashed fault))
  /-- A worker goes. -/
  | departed {position : Nat} {worker : Worker} {module : Module}
      (here : dispatch.workers[position]? = some worker) (idle : worker.activity = .idle)
      (found : dispatch.modules[worker.module]? = some module)
      (free : dispatch.dismissed = true ∨ module.queue.isDrained = true) :
      Moves dispatch (.depart position) (dispatch.setActivity position .exited)

/-- A worker that takes an assignment goes on to work on it, or drops it after termination. -/
theorem moves_of_take {dispatch after : Dispatch} {position : Nat}
    (stepped : dispatch.step (.take position) = some after) :
    dispatch.Moves (.take position) after := by
  obtain ⟨worker, here, stepped⟩ := Option.bind_eq_some_iff.mp stepped
  obtain ⟨module, found, stepped⟩ := Option.bind_eq_some_iff.mp stepped
  split at stepped
  case h_2 => cases stepped
  case h_1 chunk queue idle taken =>
    obtain ⟨rest, waiting, rfl⟩ := ChunkQueue.of_take_chunk taken
    injection stepped with stepped
    subst stepped
    cases ended : dispatch.terminated with
    | false =>
        simp only [Bool.false_eq_true, if_false]
        exact .took here idle found waiting ended
    | true =>
        simp only [if_true]
        exact .dropped here idle found waiting ended

/-- A worker that proceeds does the next of its tasks. -/
theorem moves_of_proceed {dispatch after : Dispatch} {position : Nat}
    (stepped : dispatch.step (.proceed position) = some after) :
    dispatch.Moves (.proceed position) after := by
  obtain ⟨worker, here, stepped⟩ := Option.bind_eq_some_iff.mp stepped
  split at stepped
  case h_1 done =>
    injection stepped with stepped
    subst stepped
    exact .finished here done
  case h_2 rest next =>
    injection stepped with stepped
    subst stepped
    cases ended : dispatch.terminated with
    | false => exact .passed here next ended
    | true => exact .stopped here next ended
  case h_3 target piece rest next =>
    cases outcome : dispatch.prime (some worker.module) target piece with
    | mk answer primed =>
        rw [outcome] at stepped
        cases answer with
        | ok last =>
            injection stepped with stepped
            subst stepped
            exact .reported here next outcome
        | error fault =>
            injection stepped with stepped
            subst stepped
            exact .crashed here next outcome
  case h_4 => cases stepped

/-- **A step goes one of these ways.** -/
theorem moves_of_step {dispatch after : Dispatch} {step : Step}
    (stepped : dispatch.step step = some after) : dispatch.Moves step after := by
  cases step with
  | take position => exact moves_of_take stepped
  | enter position =>
      obtain ⟨worker, here, stepped⟩ := Option.bind_eq_some_iff.mp stepped
      split at stepped
      case h_2 => cases stepped
      case h_1 chunk rest next =>
        injection stepped with stepped
        subst stepped
        exact .entered here next
  | leave position result =>
      obtain ⟨worker, here, stepped⟩ := Option.bind_eq_some_iff.mp stepped
      split at stepped
      case h_2 => cases stepped
      case h_1 chunk rest inside =>
        cases result with
        | ok =>
            injection stepped with stepped
            subst stepped
            exact .returned here inside
        | error error =>
            injection stepped with stepped
            subst stepped
            exact .failed here inside
  | proceed position => exact moves_of_proceed stepped
  | depart position =>
      obtain ⟨worker, here, stepped⟩ := Option.bind_eq_some_iff.mp stepped
      obtain ⟨module, found, stepped⟩ := Option.bind_eq_some_iff.mp stepped
      split at stepped
      case isFalse => cases stepped
      case isTrue condition =>
        injection stepped with stepped
        subst stepped
        exact .departed here condition.1 found condition.2

/-! ## Sums over workers -/

/-- A quantity summed over all workers. -/
def total {M : Type} [AddCommMonoid M] (dispatch : Dispatch) (value : Worker → M) : M :=
  (dispatch.workers.toList.map value).sum

/-- Changing one worker of a list changes its own share of a sum. -/
theorem sum_map_modify {M : Type} [AddCommMonoid M] (change : Worker → Worker)
    (value : Worker → M) {workers : List Worker} {position : Nat} {worker : Worker}
    (here : workers[position]? = some worker) :
    ((workers.modify position change).map value).sum + value worker =
      (workers.map value).sum + value (change worker) := by
  induction workers generalizing position with
  | nil => cases here
  | cons head rest ih =>
      cases position with
      | zero =>
          injection here with here
          subst here
          simp only [List.modify_zero_cons, List.map_cons, List.sum_cons]
          rw [add_assoc, add_comm, add_comm (rest.map value).sum]
      | succ position =>
          simp only [List.modify_succ_cons, List.map_cons, List.sum_cons, add_assoc]
          rw [ih here]

/-- **One worker doing something else changes its own share**, and nothing else. -/
theorem total_setActivity {M : Type} [AddCommMonoid M] {dispatch : Dispatch} {position : Nat}
    {worker : Worker} (here : dispatch.workers[position]? = some worker) (activity : Activity)
    (value : Worker → M) :
    (dispatch.setActivity position activity).total value + value worker =
      dispatch.total value + value { worker with activity } := by
  have in_list : dispatch.workers.toList[position]? = some worker := by
    rw [Array.getElem?_toList]
    exact here
  have modified := sum_map_modify (fun other => { other with activity }) value in_list
  rw [← Array.toList_modify] at modified
  exact modified

end Dispatch

end Mixnet
