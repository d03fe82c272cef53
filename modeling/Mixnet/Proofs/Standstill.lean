import Mixnet.Proofs.Decline
import Mixnet.Proofs.Finished
import Mixnet.Proofs.Rest

/-!
# Where no kernel is called any more

A kill comes to its end once nothing is left to wait for: the graph is complete, or its workers have
gone.  This file says what that is worth.  Where the workers have gone after a kill, no kernel is
called any more.  Where the graph is complete, that holds of the modules that feed the last one, as
each of them has returned on the whole batch; a module on a side branch may still begin.

## Main definitions

* `Graph.Becomes`: a graph later on, whatever has happened to it or to its stream
* `Graph.Proceeds`: a graph later on, of which nobody has taken output
* `Graph.Arrived`: a graph that has been built, and what has become of it
* `Graph.Stopping`, `Graph.Stopped`: a graph that has been killed, and one whose kill has come to
  its end
* `Graph.Rests`: a module whose kernel is called no more

## Main statements

* `Dispatch.Sound.not_entering`: a kernel that has returned on the whole batch is entered no more
* `Graph.Becomes.stopped`: a kill that has come to its end stays there
* `Graph.Becomes.rests`: a module at rest stays at rest, and its kernel is not called
-/

namespace Mixnet

open Journal

/-! ## Calls -/

namespace Dispatch

variable {origin dispatch next : Dispatch} {first expanded id position : Nat} {rank : Nat → Nat}
  {worker : Worker} {chunk : Chunk} {rest : List Task}

/-- A kernel that has returned on the whole batch is in no call. -/
theorem Sound.not_calling (sound : Sound origin first dispatch)
    (laid : origin.Laid first expanded rank) (here : dispatch.workers[position]? = some worker)
    (everywhere : ∀ slot < expanded, Returned dispatch.journal worker.module slot) :
    worker.activity ≠ .calling chunk rest := by
  intro inside
  obtain ⟨wired, -⟩ := sound.staffed position worker here
  obtain ⟨module, found⟩ := sound.exists_module laid wired.le
  have entered : chunk ∈ dispatch.inKernel worker.module := by
    have within := inside_le_inKernel here
    rw [inside, Activity.inside] at within
    exact Multiset.mem_of_le within (Multiset.mem_singleton_self _)
  obtain ⟨slot, in_batch, covers⟩ :=
    sound.exists_slot_of_called laid (sound.returning.called entered)
  obtain ⟨earlier, returned, earlier_covers⟩ := everywhere slot in_batch
  -- This call, and the one that has returned on the slot, would be two.
  have both : ((chunk :: returnedOn dispatch.journal worker.module : List Chunk) : Multiset Chunk) ≤
      calledOn dispatch.journal worker.module := by
    rw [← sound.returning worker.module, ← Multiset.cons_coe, ← Multiset.singleton_add, add_comm]
    exact Multiset.add_le_add_left (Multiset.singleton_le.mpr entered)
  have counted : Chunk.coverage (chunk :: returnedOn dispatch.journal worker.module) slot ≤
      Chunk.coverage (calledOn dispatch.journal worker.module) slot :=
    (Multiset.coe_le.mp both).countP_le _
  rw [Chunk.coverage_cons, if_pos covers] at counted
  have before := one_le_coverage_returnedOn returned earlier_covers
  have once := sound.conserved.calls_once sound.accounted laid found wired slot
  omega

/-- **A kernel that has returned on the whole batch is entered no more.** -/
theorem Sound.not_entering (sound : Sound origin first dispatch)
    (laid : origin.Laid first expanded rank) (here : dispatch.workers[position]? = some worker)
    (everywhere : ∀ slot < expanded, Returned dispatch.journal worker.module slot) :
    worker.activity ≠ .working (.call chunk :: rest) := by
  intro next
  -- A worker that entered the kernel would be in a call of a sound state.
  have entered := sound.entered laid here next
  have there := getElem?_setActivity here (.calling chunk rest) position
  rw [if_pos rfl] at there
  refine entered.not_calling laid there (fun slot inside => ?_) rfl
  exact (everywhere slot inside).mono (List.subset_cons_self _ _)

/-- A kernel is called by a worker that had the call before it, and not otherwise. -/
theorem Moves.calledOn_eq {step : Step} (moved : dispatch.Moves step next)
    (sound : Sound origin first dispatch) (laid : origin.Laid first expanded rank)
    (unasked : ∀ (position : Nat) worker chunk rest, dispatch.workers[position]? = some worker →
      worker.module = id → worker.activity ≠ .working (.call chunk :: rest)) :
    calledOn next.journal id = calledOn dispatch.journal id := by
  cases moved with
  | @entered position worker chunk rest here asked =>
      have elsewhere : worker.module ≠ id := fun same => unasked _ _ _ _ here same asked
      show calledOn (.called worker.module chunk :: dispatch.journal) id = _
      simp [elsewhere]
  | @returned position worker chunk rest here inside =>
      show calledOn (.returned worker.module chunk (.ok ()) :: dispatch.journal) id = _
      simp
  | @failed position worker chunk rest error here inside =>
      obtain ⟨-, journal_eq, -⟩ := fail_eq ((dispatch.observe (.returned worker.module chunk
        (.error error))).setActivity position .idle) worker.module error
      rw [journal_eq]
      show calledOn (.returned worker.module chunk (.error error) :: dispatch.journal) id = _
      simp
  | reported here asked done =>
      obtain ⟨module, after, released, -, -, rfl⟩ := sound.reports laid here asked done
      exact calledOn_deliver id
  | crashed here asked refused => exact (sound.not_refused laid here asked refused).elim
  | _ => rfl

end Dispatch

namespace Graph

variable {graph built linked after : Graph} {origin dispatch next : Dispatch}
  {first last expanded id : Nat} {rank : Nat → Nat} {stage later : GraphState} {event : Event}
  {events : List Event}

/-- The chunks that the kernel of a module has been called on, newest first. -/
def callsOf (graph : Graph) (id : Nat) : List Chunk :=
  (graph.dispatch.map fun dispatch => calledOn dispatch.journal id).getD []

/-! ## Turns -/

namespace Turn

/-- No turn takes back completion. -/
theorem completes (turn : Turn origin first expanded stage dispatch event later next)
    (complete : dispatch.complete = true) : next.complete = true := by
  cases turn with
  | fed =>
      show (dispatch.complete || _) = true
      rw [complete, Bool.true_or]
  | worked moved => exact moved.evolves.completes complete
  | killed incomplete =>
      rw [complete] at incomplete
      cases incomplete
  | _ => exact complete

theorem calledOn_eq (turn : Turn origin first expanded stage dispatch event later next)
    (laid : origin.Laid first expanded rank) (sound : Dispatch.Sound origin first dispatch)
    (unasked : ∀ (position : Nat) worker chunk rest, dispatch.workers[position]? = some worker →
      worker.module = id → worker.activity ≠ .working (.call chunk :: rest)) :
    calledOn next.journal id = calledOn dispatch.journal id := by
  cases turn with
  | fed => exact calledOn_deliver id
  | worked moved => exact moved.calledOn_eq sound laid unasked
  | killed =>
      obtain ⟨-, journal_eq, -⟩ := dispatch.terminate_eq
      exact congrArg (calledOn · id) journal_eq
  | _ => rfl

/-- The last stage is never left. -/
theorem terminated (turn : Turn origin first expanded stage dispatch event later next)
    (is_over : stage = .terminated) : later = .terminated := by
  cases turn with
  | linked built => cases built.symm.trans is_over
  | started linked => cases linked.symm.trans is_over
  | killed => rfl
  | _ => exact is_over

/-- Workers that have gone at the last stage do not come back. -/
theorem deserted (turn : Turn origin first expanded stage dispatch event later next)
    (is_over : stage = .terminated) (gone : dispatch.isDeserted = true) :
    next.isDeserted = true := by
  cases turn with
  | started linked => cases linked.symm.trans is_over
  | worked moved => exact (Dispatch.not_moves_of_deserted gone moved).elim
  | killed =>
      obtain ⟨workers_eq, -⟩ := dispatch.terminate_eq
      show dispatch.terminate.2.workers.all _ = true
      rw [workers_eq]
      exact gone
  | _ => exact gone

end Turn

/-! ## What becomes of a graph -/

/-- What can happen to a graph at once. -/
inductive Touched (graph : Graph) : Graph → Prop
  /-- An event. -/
  | acted {event : Event} {after : Graph} (acted : graph.act event = some after) :
      Touched graph after
  /-- A change of its stream. -/
  | streamed (stream : Stream) : Touched graph { graph with stream }

/-- A graph later on. -/
def Becomes : Graph → Graph → Prop := Relation.ReflTransGen Touched

/-- What can happen to a graph at once while nobody takes its output. -/
inductive Stirred (graph : Graph) : Graph → Prop
  /-- An event. -/
  | acted {event : Event} {after : Graph} (acted : graph.act event = some after)
      (other : event ≠ .collect) : Stirred graph after
  /-- A change of its stream. -/
  | streamed (stream : Stream) : Stirred graph { graph with stream }

/-- A graph later on, of which nobody has taken output. -/
def Proceeds : Graph → Graph → Prop := Relation.ReflTransGen Stirred

theorem Stirred.touched (stirred : graph.Stirred after) : graph.Touched after := by
  cases stirred with
  | acted acted => exact .acted acted
  | streamed stream => exact .streamed stream

theorem Proceeds.becomes (proceeds : graph.Proceeds after) : graph.Becomes after :=
  Relation.ReflTransGen.mono (fun _ _ => Stirred.touched) graph after proceeds

/-- A graph that has been built, and that events have brought to where it is. -/
inductive Arrived (graph : Graph) : Prop
  | of_reached {built : Graph} {origin dispatch : Dispatch} {first last : Nat} {rank : Nat → Nat}
      {events : List Event} (building : Built built origin first last rank)
      (valid : built.wiring.Valid) (reached : Reached built origin first events graph dispatch)

/-- A graph that has just been linked has come that far. -/
theorem arrived_of_link {batch : Nat} {buffer : RoundBuffer} (wired : graph.Wired)
    (few : ∀ module, (graph.wiring.inputsOf module).length < Word.limit 32)
    (building : graph.build batch = .ok built) (linking : built.link buffer = .ok linked) :
    linked.Arrived := by
  obtain ⟨wiring_eq, origin, first, last, rank, building⟩ := build_built wired few building
  have acted : built.act (.link buffer) = some linked := by
    rw [act, linking]
    rfl
  have initial := Reached.initial building
  obtain ⟨next, dispatch_eq, same_wiring, turn⟩ := initial.turn building acted
  exact .of_reached building (wiring_eq ▸ wired.valid.1)
    (initial.go building.laid dispatch_eq same_wiring turn)

/-- Whatever happens to a graph that has come so far, it comes further. -/
theorem Touched.arrived (touched : graph.Touched after) (arrived : graph.Arrived) :
    after.Arrived := by
  obtain ⟨building, valid, reached⟩ := arrived
  cases touched with
  | acted acted =>
      obtain ⟨next, dispatch_eq, wiring_eq, turn⟩ := reached.turn building acted
      exact .of_reached building valid (reached.go building.laid dispatch_eq wiring_eq turn)
  | streamed stream =>
      refine .of_reached building valid ⟨reached.dispatch_eq, reached.wiring_eq, reached.sound,
        reached.manned, reached.received, reached.calm⟩

theorem Becomes.arrived (becomes : graph.Becomes after) (arrived : graph.Arrived) :
    after.Arrived := by
  induction becomes with
  | refl => exact arrived
  | tail _ touched ih => exact touched.arrived ih

/-! ## Kills -/

/-- A graph that has been killed: it was complete, or its work has been ended. -/
def Stopping (graph : Graph) : Prop := graph.isComplete = true ∨ graph.state = .terminated

/-- A graph whose kill has come to its end: it was complete, or its workers have gone since. -/
def Stopped (graph : Graph) : Prop := graph.isComplete = true ∨
  graph.state = .terminated ∧ ∀ dispatch ∈ graph.dispatch, dispatch.isDeserted = true

/-- **A kill that is answered has come to its end.** -/
theorem Stopping.stopped (stopping : graph.Stopping) (still : graph.isStopped = true) :
    graph.Stopped := by
  rcases stopping with complete | is_over
  · exact Or.inl complete
  · cases found : graph.dispatch with
    | none => exact Or.inr ⟨is_over, by simp [found]⟩
    | some dispatch =>
        simp only [isStopped, found, Bool.or_eq_true] at still
        rcases still with complete | gone
        · left
          simpa [isComplete, found] using complete
        · right
          refine ⟨is_over, ?_⟩
          simpa [found] using gone

theorem Arrived.stopping_kill (arrived : graph.Arrived) : graph.kill.Stopping := by
  obtain ⟨-, -, reached⟩ := arrived
  have found := reached.dispatch_eq
  unfold kill
  rw [found]
  dsimp only
  split
  case isTrue complete =>
    left
    simpa [isComplete, found] using complete
  case isFalse => exact Or.inr rfl

/-- A graph that is complete stays complete. -/
theorem Touched.complete (touched : graph.Touched after) (arrived : graph.Arrived)
    (complete : graph.isComplete = true) : after.isComplete = true := by
  obtain ⟨building, -, reached⟩ := arrived
  cases touched with
  | streamed stream => exact complete
  | acted acted =>
      obtain ⟨next, dispatch_eq, -, turn⟩ := reached.turn building acted
      rw [isComplete, reached.dispatch_eq] at complete
      rw [isComplete, dispatch_eq]
      exact turn.completes complete

theorem Touched.stopping (touched : graph.Touched after) (arrived : graph.Arrived)
    (stopping : graph.Stopping) : after.Stopping := by
  rcases stopping with complete | is_over
  · exact Or.inl (touched.complete arrived complete)
  · obtain ⟨building, -, reached⟩ := arrived
    cases touched with
    | streamed stream => exact Or.inr is_over
    | acted acted =>
        obtain ⟨next, -, -, turn⟩ := reached.turn building acted
        exact Or.inr (turn.terminated is_over)

/-- Workers that have gone after a kill do not come back. -/
theorem Touched.deserted (touched : graph.Touched after) (arrived : graph.Arrived)
    (is_over : graph.state = .terminated)
    (gone : ∀ dispatch ∈ graph.dispatch, dispatch.isDeserted = true) :
    after.state = .terminated ∧ ∀ dispatch ∈ after.dispatch, dispatch.isDeserted = true := by
  obtain ⟨building, -, reached⟩ := arrived
  cases touched with
  | streamed stream => exact ⟨is_over, gone⟩
  | acted acted =>
      obtain ⟨next, dispatch_eq, -, turn⟩ := reached.turn building acted
      refine ⟨turn.terminated is_over, ?_⟩
      rintro dispatch member
      obtain rfl := Option.some.inj (dispatch_eq.symm.trans member)
      exact turn.deserted is_over (gone _ reached.dispatch_eq)

theorem Touched.stopped (touched : graph.Touched after) (arrived : graph.Arrived)
    (stopped : graph.Stopped) : after.Stopped := by
  rcases stopped with complete | ⟨is_over, gone⟩
  · exact Or.inl (touched.complete arrived complete)
  · exact Or.inr (touched.deserted arrived is_over gone)

theorem Becomes.stopping (becomes : graph.Becomes after) (arrived : graph.Arrived)
    (stopping : graph.Stopping) : after.Stopping := by
  induction becomes with
  | refl => exact stopping
  | tail earlier touched ih => exact touched.stopping (Becomes.arrived earlier arrived) ih

/-- **A kill that has come to its end stays there.** -/
theorem Becomes.stopped (becomes : graph.Becomes after) (arrived : graph.Arrived)
    (stopped : graph.Stopped) : after.Stopped := by
  induction becomes with
  | refl => exact stopped
  | tail earlier touched ih => exact touched.stopped (Becomes.arrived earlier arrived) ih

/-! ## Modules at rest -/

/-- The last module can be reached from a module. -/
def FeedsEnd (graph : Graph) (id : Nat) : Prop :=
  ∀ last ∈ graph.wiring.last, Feeds graph.wiring id last

/-- A module whose kernel is called no more: the workers of the graph have gone after a kill, or the
graph is complete and the last module can be reached from this one. -/
inductive Rests (graph : Graph) (id : Nat) : Prop
  | deserted (is_over : graph.state = .terminated)
      (gone : ∀ dispatch ∈ graph.dispatch, dispatch.isDeserted = true)
  | finished (complete : graph.isComplete = true) (feeds : graph.FeedsEnd id)

/-- Every module of a graph is at rest. -/
def Silent (graph : Graph) : Prop := ∀ id < graph.wiring.size, graph.Rests id

/-- A graph whose kill has come to its end has every module at rest, if it is not complete, and
every module from which the last one can be reached. -/
theorem Stopped.rests (stopped : graph.Stopped)
    (feeds : graph.isComplete = true → graph.FeedsEnd id) : graph.Rests id := by
  rcases stopped with complete | ⟨is_over, gone⟩
  · exact .finished complete (feeds complete)
  · exact .deserted is_over gone

/-- A worker of a module at rest is in no call, and comes to none. -/
theorem Reached.outside {position : Nat} {worker : Worker} {chunk : Chunk} {rest : List Task}
    (building : Built built origin first last rank)
    (reached : Reached built origin first events graph dispatch) (valid : built.wiring.Valid)
    (rests : graph.Rests worker.module) (here : dispatch.workers[position]? = some worker) :
    worker.activity ≠ .calling chunk rest ∧ worker.activity ≠ .working (.call chunk :: rest) := by
  cases rests with
  | deserted is_over gone =>
      have exited := Dispatch.exited_of_deserted (gone _ reached.dispatch_eq) here
      simp [exited]
  | finished complete feeds =>
      rw [isComplete, reached.dispatch_eq] at complete
      rw [FeedsEnd, reached.wiring_eq] at feeds
      have everywhere : ∀ slot < built.expandedSize,
          Returned dispatch.journal worker.module slot := fun slot inside =>
        reached.returned_of_complete building valid complete (feeds last building.last_eq) inside
      exact ⟨reached.sound.not_calling building.laid here everywhere,
        reached.sound.not_entering building.laid here everywhere⟩

/-- The wiring of a graph that has been built is final. -/
theorem Touched.wiring_eq (touched : graph.Touched after) (arrived : graph.Arrived) :
    after.wiring = graph.wiring := by
  obtain ⟨building, -, reached⟩ := arrived
  cases touched with
  | streamed stream => rfl
  | acted acted =>
      obtain ⟨-, -, wiring_eq, -⟩ := reached.turn building acted
      exact wiring_eq

theorem Touched.rests (touched : graph.Touched after) (arrived : graph.Arrived)
    (rests : graph.Rests id) : after.Rests id := by
  cases rests with
  | deserted is_over gone =>
      obtain ⟨still_over, still_gone⟩ := touched.deserted arrived is_over gone
      exact .deserted still_over still_gone
  | finished complete feeds =>
      refine .finished (touched.complete arrived complete) ?_
      rw [FeedsEnd, touched.wiring_eq arrived]
      exact feeds

/-- The kernel of a module at rest is not called. -/
theorem Touched.callsOf_eq (touched : graph.Touched after) (arrived : graph.Arrived)
    (rests : graph.Rests id) : after.callsOf id = graph.callsOf id := by
  obtain ⟨building, valid, reached⟩ := arrived
  cases touched with
  | streamed stream => rfl
  | acted acted =>
      obtain ⟨next, dispatch_eq, -, turn⟩ := reached.turn building acted
      simp only [callsOf, dispatch_eq, reached.dispatch_eq, Option.map_some, Option.getD_some]
      refine turn.calledOn_eq building.laid reached.sound ?_
      rintro position worker chunk rest here rfl
      exact (reached.outside building valid rests here).2

/-- **A module at rest stays at rest**, and its kernel is not called. -/
theorem Becomes.rests (becomes : graph.Becomes after) (arrived : graph.Arrived)
    (rests : graph.Rests id) : after.Rests id ∧ after.callsOf id = graph.callsOf id := by
  induction becomes with
  | refl => exact ⟨rests, rfl⟩
  | tail earlier touched ih =>
      obtain ⟨rests, calls_eq⟩ := ih
      have arrived := Becomes.arrived earlier arrived
      exact ⟨touched.rests arrived rests, (touched.callsOf_eq arrived rests).trans calls_eq⟩

theorem Becomes.silent (becomes : graph.Becomes after) (arrived : graph.Arrived)
    (silent : graph.Silent) : after.Silent := by
  have wiring_eq : after.wiring = graph.wiring := by
    induction becomes with
    | refl => rfl
    | tail earlier touched ih =>
        exact (touched.wiring_eq (Becomes.arrived earlier arrived)).trans ih
  intro id known
  rw [wiring_eq] at known
  exact (becomes.rests arrived (silent id known)).1

end Graph

end Mixnet
