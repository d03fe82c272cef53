import Mixnet.Proofs.Reached

/-!
# What waits, and what leaves

Assignments are put at the end of a queue and taken from its front, by workers or, at the sink, by
whoever asks for finished chunks.  What has been collected from a graph, together with what still
waits at its sink, is what the sink has queued.

## Main definitions

* `Dispatch.waiting`: the assignments that wait at a module
* `Graph.collected`: the chunks that a play takes out of a graph

## Main statements

* `Graph.collected_perm`: what was collected, and what waits, is what the sink has queued
-/

namespace Mixnet

open Journal

namespace Dispatch

variable {origin dispatch after : Dispatch} {first expanded : Nat} {rank : Nat → Nat}

/-- The assignments that wait at a module. -/
def waiting (dispatch : Dispatch) (id : Nat) : List Chunk :=
  (dispatch.modules[id]?.map (·.queue.chunks)).getD []

theorem waiting_eq {id : Nat} {module : Module} (found : dispatch.modules[id]? = some module) :
    dispatch.waiting id = module.queue.chunks := by
  rw [waiting, found, Option.map_some, Option.getD_some]

/-- Nothing waits before anything has happened. -/
theorem Laid.waiting_eq_nil (laid : origin.Laid first expanded rank) (id : Nat) :
    origin.waiting id = [] := by
  cases found : origin.modules[id]? with
  | none => rw [waiting, found, Option.map_none, Option.getD_none]
  | some module =>
      rw [waiting_eq found, ← (laid.unworked id module found).1]
      rfl

/-- A module with another queue changes what waits there, and nowhere else. -/
theorem waiting_setModule {id : Nat} {module : Module} (found : dispatch.modules[id]? = some module)
    (next : Module) (other : Nat) :
    (dispatch.setModule id next).waiting other =
      if other = id then next.queue.chunks else dispatch.waiting other := by
  unfold waiting setModule
  rw [getElem?_setIfInBounds found]
  split <;> rfl

/-- Ending all work leaves what waits where it is. -/
theorem waiting_terminate (dispatch : Dispatch) :
    dispatch.terminate.2.waiting = dispatch.waiting := by
  unfold terminate
  split
  case isTrue => rfl
  case isFalse =>
    funext id
    unfold waiting
    simp only [Array.getElem?_map, Option.map_map]
    rfl

/-- What a report releases waits behind what waited before. -/
theorem Delivers.waiting_eq {source : Option Nat} {target : Nat} {piece : Chunk}
    {module next : Module} {released : List Chunk} {last : Bool}
    (delivers : dispatch.Delivers expanded source target piece module next released last)
    (found : dispatch.modules[target]? = some module) (id : Nat) :
    (dispatch.delivered source target piece next released last).waiting id =
      if id = target then dispatch.waiting id ++ released else dispatch.waiting id := by
  refine (waiting_setModule found next id).trans ?_
  split
  case isTrue here => rw [here, Dispatch.waiting_eq found, delivers.chunks_eq]
  case isFalse => rfl

/-- What is queued for the sink waits there in ascending order, and no worker takes it away.  After
termination nothing is queued. -/
theorem Moves.output {step : Step} (sound : Sound origin first dispatch)
    (laid : origin.Laid first expanded rank) (moved : dispatch.Moves step after) :
    ∃ released, after.waiting dispatch.sink = dispatch.waiting dispatch.sink ++ released ∧
      (queuedOn after.journal dispatch.sink).Perm
        (queuedOn dispatch.journal dispatch.sink ++ released) ∧
      released.Pairwise (·.start < ·.start) ∧ (after.terminated = true → released = []) := by
  have of_same {next : Dispatch}
      (waiting_eq : next.waiting dispatch.sink = dispatch.waiting dispatch.sink)
      (queued_eq : queuedOn next.journal dispatch.sink = queuedOn dispatch.journal dispatch.sink) :
      ∃ released, next.waiting dispatch.sink = dispatch.waiting dispatch.sink ++ released ∧
        (queuedOn next.journal dispatch.sink).Perm
          (queuedOn dispatch.journal dispatch.sink ++ released) ∧
        released.Pairwise (·.start < ·.start) ∧ (next.terminated = true → released = []) := by
    refine ⟨[], ?_, ?_, List.Pairwise.nil, fun _ => rfl⟩
    · rw [waiting_eq, List.append_nil]
    · rw [queued_eq, List.append_nil]
  cases moved with
  -- Workers belong to modules of the wiring, and the sink is none of them.
  | took here idle found waiting running =>
      refine of_same ((waiting_setModule found _ _).trans (if_neg ?_)) rfl
      exact (sound.staffed _ _ here).1.ne'
  | dropped here idle found waiting ended =>
      refine of_same ((waiting_setModule found _ _).trans (if_neg ?_)) rfl
      exact (sound.staffed _ _ here).1.ne'
  | entered => exact of_same rfl (queuedOn_cons _ _)
  | returned => exact of_same rfl (queuedOn_cons _ _)
  | @failed position worker chunk rest error here inside =>
      obtain ⟨-, journal_eq, -⟩ := fail_eq
        ((dispatch.observe (.returned worker.module chunk (.error error))).setActivity position
          .idle) worker.module error
      refine of_same (congrFun (waiting_terminate _) _) ?_
      rw [journal_eq]
      exact queuedOn_cons _ _
  | @reported position target worker piece rest last primed here next done =>
      obtain ⟨module, after, released, found, delivers, rfl⟩ := sound.reports laid here next done
      have waits := delivers.waiting_eq found dispatch.sink
      have queued : queuedOn (deliver dispatch.journal (some worker.module) target piece released)
          dispatch.sink = _ := queuedOn_deliver dispatch.sink
      by_cases at_sink : dispatch.sink = target
      · rw [if_pos at_sink] at waits queued
        refine ⟨released, waits, ?_, delivers.ascending, ?_⟩
        · show (queuedOn (deliver _ _ _ _ _) _).Perm _
          rw [queued]
          exact List.perm_append_comm.trans ((List.reverse_perm released).append_left _)
        · intro ended
          have closed := (sound.accounted.kept _ _ found).closed_iff.mpr (Or.inl ended)
          exact List.self_eq_append_right.mp
            ((congrArg ChunkQueue.chunks (delivers.closed_of_closed closed)).symm.trans
              delivers.chunks_eq)
      · rw [if_neg at_sink] at waits queued
        exact of_same waits queued
  | crashed here next refused => exact (sound.not_refused laid here next refused).elim
  | _ => exact of_same rfl rfl

end Dispatch

/-! ## Collected chunks -/

namespace Graph

/-- What an event takes out of a graph. -/
def yielded (graph : Graph) : Event → List Chunk
  | .collect =>
      match graph.takeOutput with
      | .ok (.chunk chunk, _) => [chunk]
      | _ => []
  | _ => []

/-- The chunks that a list of events takes out of a graph, oldest first. -/
def collected (graph : Graph) : List Event → List Chunk
  | [] => []
  | event :: rest => graph.yielded event ++ ((graph.act event).map (·.collected rest)).getD []

variable {built graph : Graph} {origin dispatch next : Dispatch} {first last expanded : Nat}
  {rank : Nat → Nat} {events : List Event} {event : Event} {later : GraphState}

theorem collected_concat (played : built.play events = some graph) (event : Event) :
    built.collected (events ++ [event]) = built.collected events ++ graph.yielded event := by
  induction events generalizing built with
  | nil =>
      injection played with played
      subst played
      show built.yielded event ++ ((built.act event).map fun _ => []).getD [] = built.yielded event
      cases built.act event <;> exact List.append_nil _
  | cons earlier events ih =>
      obtain ⟨between, acted, played⟩ := Option.bind_eq_some_iff.mp played
      rw [List.cons_append, collected, collected, acted, Option.map_some, Option.getD_some,
        Option.map_some, Option.getD_some, ih played, List.append_assoc]

/-- What a turn takes out of a graph is the front of what waited at the sink, and what it queues
there waits behind, in ascending order. -/
theorem Turn.output (turn : Turn origin first expanded graph.state dispatch event later next)
    (reached : Reached built origin first events graph dispatch)
    (laid : origin.Laid first expanded rank) :
    ∃ released, graph.yielded event ++ next.waiting dispatch.sink =
        dispatch.waiting dispatch.sink ++ released ∧
      (queuedOn next.journal dispatch.sink).Perm
        (queuedOn dispatch.journal dispatch.sink ++ released) ∧
      released.Pairwise (·.start < ·.start) ∧ (next.terminated = true → released = []) := by
  have nothing (other : List Chunk) : other = other ++ [] := (List.append_nil _).symm
  cases turn with
  | @fed chunk module next_module released last running found delivers =>
      have inner : dispatch.sink ≠ first := by
        rw [reached.sound.accounted.sink_eq]
        exact laid.first_lt.ne'
      have waits := delivers.waiting_eq found dispatch.sink
      rw [if_neg inner] at waits
      refine ⟨[], ?_, ?_, List.Pairwise.nil, fun _ => rfl⟩
      · rw [waits]
        exact nothing _
      · show (queuedOn (deliver _ _ _ _ _) _).Perm _
        rw [queuedOn_deliver, if_neg inner, List.append_nil]
  | worked moved => exact moved.output reached.sound laid
  | @collected module found =>
      have takes : graph.takeOutput = .ok (module.queue.take.1, { graph with
          dispatch := some (dispatch.setModule dispatch.sink
            { module with queue := module.queue.take.2 }) }) := by
        simp only [takeOutput, Graph.dispatched, reached.dispatch_eq, found, bind, Except.bind,
          pure, Except.pure]
      refine ⟨[], ?_, ?_, List.Pairwise.nil, fun _ => rfl⟩
      · rw [yielded, takes, Dispatch.waiting_setModule found, if_pos rfl, Dispatch.waiting_eq found,
          List.append_nil, ChunkQueue.take]
        cases chunks_eq : module.queue.chunks with
        | nil => cases module.queue.closed <;> simp [chunks_eq]
        | cons chunk rest => rfl
      · rw [List.append_nil]
        exact List.Perm.refl _
  | killed =>
      obtain ⟨-, journal_eq, -⟩ := dispatch.terminate_eq
      refine ⟨[], (congrFun dispatch.waiting_terminate _).trans (nothing _), ?_, List.Pairwise.nil,
        fun _ => rfl⟩
      rw [List.append_nil]
      exact List.Perm.of_eq (congrArg (queuedOn · dispatch.sink) journal_eq)
  | _ => exact ⟨[], nothing _, by rw [List.append_nil], List.Pairwise.nil, fun _ => rfl⟩

/-- The finished chunks that wait are those at the sink. -/
theorem pendingOutput_eq (found : graph.dispatch = some dispatch) :
    graph.pendingOutput = dispatch.waiting dispatch.sink := by
  rw [pendingOutput, found]
  rfl

theorem Reached.pendingOutput_eq (reached : Reached built origin first events graph dispatch) :
    graph.pendingOutput = dispatch.waiting origin.sink := by
  rw [Graph.pendingOutput_eq reached.dispatch_eq, reached.sound.accounted.sink_eq]

/-- **What was collected, and what waits, is what the sink has queued.** -/
theorem collected_perm (building : Built built origin first last rank)
    (played : built.play events = some graph) :
    ∃ dispatch, Reached built origin first events graph dispatch ∧
      (built.collected events ++ graph.pendingOutput).Perm
        (queuedOn dispatch.journal origin.sink) := by
  have initial : (built.collected [] ++ origin.waiting origin.sink).Perm
      (queuedOn origin.journal origin.sink) := by
    rw [building.laid.waiting_eq_nil, building.laid.untouched]
    exact List.Perm.refl _
  obtain ⟨dispatch, reached, same⟩ := play_induction building
    (motive := fun events _ dispatch =>
      (built.collected events ++ dispatch.waiting origin.sink).Perm
        (queuedOn dispatch.journal origin.sink))
    initial (fun earlier event before _ dispatch next played reached same turn => by
      obtain ⟨released, taken, queued, -⟩ := turn.output reached building.laid
      rw [reached.sound.accounted.sink_eq] at taken queued
      rw [collected_concat played, List.append_assoc, taken, ← List.append_assoc]
      exact (same.append_right released).trans queued.symm) played
  refine ⟨dispatch, reached, ?_⟩
  rw [reached.pendingOutput_eq]
  exact same

/-- What was collected, and what waits at the sink of a graph that has been reached, is what the
sink has queued. -/
theorem Reached.collected_perm (reached : Reached built origin first events graph dispatch)
    (building : Built built origin first last rank) (played : built.play events = some graph) :
    (built.collected events ++ dispatch.waiting origin.sink).Perm
      (queuedOn dispatch.journal origin.sink) := by
  obtain ⟨same, again, queued⟩ := Graph.collected_perm building played
  obtain rfl : same = dispatch :=
    Option.some.inj (again.dispatch_eq.symm.trans reached.dispatch_eq)
  rwa [reached.pendingOutput_eq] at queued

end Graph

end Mixnet
