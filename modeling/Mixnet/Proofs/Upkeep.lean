import Mixnet.Proofs.Containment
import Mixnet.Proofs.Standstill

/-!
# What a node does to its graphs and to its secrets

A node touches the graphs of its rounds in many places: it delivers input, starts and kills graphs,
takes their output, and lets their workers act.  All of this can be done to a graph by events of its
own, so whatever holds of a graph and is kept by these is kept by the node.  The secrets of a round
change only when they are erased, and when a worker is inside a kernel.

## Main definitions

* `Round.Leads`, `Node.Leads`: graphs go on, and the secrets stay
* `Node.Upkeep`: what an event means for graphs and secrets
* `Node.Whence`: where a phase comes from
* `Node.Event.Wired`: the graphs that are handed to a round come from wiring
* `Node.Arrived`: every graph has been built, and has come to where it is by events

## Main statements

* `Node.upkeep_of_turn`: what any event means for graphs and secrets
* `Node.arrived_of_play`: every graph of a node has been built, and has come this far by events
* `Node.becomes_of_play`: what a play makes of a graph
-/

namespace Mixnet

/-! ## Graphs -/

namespace Graph

variable {graph : Graph} {dispatch : Dispatch} {sink : Module} {taken left : List Chunk}

/-- The graph with a dispatch where other chunks wait at the sink. -/
theorem setPendingOutput_eq (found : graph.dispatch = some dispatch)
    (sink_found : dispatch.modules[dispatch.sink]? = some sink) (chunks : List Chunk) :
    graph.setPendingOutput chunks = { graph with
      dispatch := some (dispatch.setModule dispatch.sink (sink.withWaiting chunks)) } := by
  simp only [setPendingOutput, found, Option.map_some, sink_found]
  rfl

/-- Chunks that wait at the sink can be taken, one after the other. -/
theorem becomes_of_taken (found : graph.dispatch = some dispatch)
    (sink_found : dispatch.modules[dispatch.sink]? = some sink)
    (waiting : sink.queue.chunks = taken ++ left) :
    graph.Becomes (graph.setPendingOutput left) := by
  induction taken generalizing graph dispatch sink with
  | nil =>
      have unchanged : sink.withWaiting left = sink := by
        rw [Module.withWaiting, ← List.nil_append left, ← waiting]
      rw [setPendingOutput_eq found sink_found, unchanged, Dispatch.setModule_self sink_found,
        ← found]
      exact .refl
  | cons chunk taken ih =>
      have inside : dispatch.sink < dispatch.modules.size :=
        (Array.getElem?_eq_some_iff.mp sink_found).1
      have there : (dispatch.setModule dispatch.sink
          (sink.withWaiting (taken ++ left))).modules[dispatch.sink]? =
            some (sink.withWaiting (taken ++ left)) :=
        Array.getElem?_setIfInBounds_self_of_lt inside
      have fewer := setPendingOutput_eq found sink_found (taken ++ left)
      -- One chunk is taken, and the others are left to the rest of the induction.
      have collected : graph.act .collect = some (graph.setPendingOutput (taken ++ left)) := by
        have oldest : sink.queue.take =
            (.chunk chunk, { sink.queue with chunks := taken ++ left }) := by
          rw [ChunkQueue.take, waiting]
          rfl
        rw [fewer]
        simp only [act, takeOutput, dispatched, found, bind, Except.bind, sink_found, oldest, pure,
          Except.pure, Except.map, Except.toOption]
        rfl
      have twice : (graph.setPendingOutput (taken ++ left)).setPendingOutput left =
          graph.setPendingOutput left := by
        rw [fewer, setPendingOutput_eq found sink_found, setPendingOutput_eq rfl there]
        simp [Dispatch.setModule, Module.withWaiting]
      rw [← twice]
      refine .head (.acted collected) ?_
      rw [fewer]
      exact ih rfl there rfl

theorem becomes_setPendingOutput (split : graph.pendingOutput = taken ++ left) :
    graph.Becomes (graph.setPendingOutput left) := by
  unfold pendingOutput at split
  cases found : graph.dispatch with
  | none =>
      have same : graph.setPendingOutput left = graph := by
        rw [setPendingOutput, found, Option.map_none, ← found]
      rw [same]
      exact .refl
  | some dispatch =>
      rw [found, Option.bind_some] at split
      cases sink_found : dispatch.modules[dispatch.sink]? with
      | none =>
          have same : graph.setPendingOutput left = graph := by
            simp only [setPendingOutput, found, Option.map_some, sink_found]
            rw [← found]
          rw [same]
          exact .refl
      | some sink =>
          rw [sink_found] at split
          exact becomes_of_taken found sink_found split

/-- A graph that answers when it is asked for output has been built. -/
theorem exists_of_takeOutput {output : ChunkQueue.Taken} {after : Graph}
    (answered : graph.takeOutput = .ok (output, after)) :
    ∃ dispatch sink, graph.dispatch = some dispatch ∧
      dispatch.modules[dispatch.sink]? = some sink ∧ output = sink.queue.take.1 ∧
      after = { graph with
        dispatch := some
          (dispatch.setModule dispatch.sink { sink with queue := sink.queue.take.2 }) } := by
  obtain ⟨dispatch, dispatched, -⟩ := Fault.bind_eq_ok.mp answered
  have found : graph.dispatch = some dispatch := by
    rw [Graph.dispatched] at dispatched
    split at dispatched
    case h_1 other known =>
      injection dispatched with same
      rw [known, same]
    case h_2 => cases dispatched
  obtain ⟨sink, taken⟩ := takeOutput_ok found answered
  exact ⟨dispatch, sink, found, taken⟩

/-- Who asks for output gets the oldest chunk that waits. -/
theorem takeOutput_chunk {chunk : Chunk} {after : Graph}
    (taken : graph.takeOutput = .ok (.chunk chunk, after)) :
    ∃ left, graph.pendingOutput = chunk :: left ∧ after = graph.setPendingOutput left := by
  obtain ⟨dispatch, sink, found, sink_found, oldest, rfl⟩ := exists_of_takeOutput taken
  rw [ChunkQueue.take.eq_def] at oldest ⊢
  cases waiting : sink.queue.chunks with
  | nil =>
      rw [waiting] at oldest
      cases closed : sink.queue.closed <;> rw [closed] at oldest <;> cases oldest
  | cons first left =>
      rw [waiting] at oldest
      injection oldest with same
      refine ⟨left, ?_, ?_⟩
      · rw [pendingOutput_eq found, Dispatch.waiting_eq sink_found, waiting, same]
      · rw [setPendingOutput_eq found sink_found]
        rfl

/-- Nothing waits in a graph that says so. -/
theorem pendingOutput_of_drained {after : Graph}
    (drained : graph.takeOutput = .ok (.drained, after)) : graph.pendingOutput = [] := by
  obtain ⟨dispatch, sink, found, sink_found, same, -⟩ := exists_of_takeOutput drained
  rw [pendingOutput_eq found, Dispatch.waiting_eq sink_found]
  cases waiting : sink.queue.chunks with
  | nil => rfl
  | cons chunk rest =>
      rw [ChunkQueue.take, waiting] at same
      cases same

theorem proceeds_of_send {chunk : Chunk} {answer : Bool} {after : Graph}
    (sent : graph.send chunk = (.ok answer, after)) : graph.Proceeds after := by
  refine .single (.acted (show graph.act (.send chunk) = some after from ?_) (by simp))
  rw [act, sent]

end Graph

/-- A transmission leaves the last of the chunks that it was offered. -/
theorem Transmission.exists_of_readAll (transmitter : Transmitter) (context : TransmitContext)
    (transmission : Transmission) (chunks : List Chunk) :
    ∃ taken, chunks = taken ++ (transmission.readAll transmitter context chunks).2 := by
  induction chunks generalizing transmission with
  | nil => exact ⟨[], rfl⟩
  | cons chunk rest ih =>
      rw [readAll]
      split
      case isFalse => exact ⟨[], rfl⟩
      case isTrue =>
        obtain ⟨taken, split⟩ := ih (transmission.read transmitter context chunk)
        exact ⟨chunk :: taken, by rw [List.cons_append, ← split]⟩

/-! ## Phases -/

namespace Phase

variable {phase : Phase}

/-- The graph of a phase goes on, each time as `touches` says, and what it was given stays. -/
structure Leads (touches : Graph → Graph → Prop) (before after : Phase) : Prop where
  graph : Relation.ReflTransGen touches before.graph after.graph
  transmitter_eq : after.transmitter = before.transmitter
  binding_eq : after.binding = before.binding

namespace Leads

variable {touches : Graph → Graph → Prop} {before between after : Phase}

theorem refl (phase : Phase) : phase.Leads touches phase := ⟨.refl, rfl, rfl⟩

theorem trans (first : before.Leads touches between) (second : between.Leads touches after) :
    before.Leads touches after :=
  ⟨first.graph.trans second.graph, second.transmitter_eq.trans first.transmitter_eq,
    second.binding_eq.trans first.binding_eq⟩

theorem touched (leads : before.Leads Graph.Stirred after) : before.Leads Graph.Touched after :=
  ⟨Graph.Proceeds.becomes leads.graph, leads.transmitter_eq, leads.binding_eq⟩

theorem becomes (leads : before.Leads Graph.Touched after) : before.graph.Becomes after.graph :=
  leads.graph

/-- The graph of a phase is killed. -/
theorem kill (phase : Phase) :
    phase.Leads Graph.Stirred { phase with graph := phase.graph.kill } :=
  ⟨.single (.acted (show phase.graph.act .kill = _ from rfl) (by simp)), rfl, rfl⟩

end Leads

/-- A move changes the state at most. -/
theorem exists_moveTo_eq (phase : Phase) (target : PhaseState) :
    ∃ state, (phase.moveTo target).2 = { phase with state } := by
  rw [moveTo]
  split
  case isTrue => exact ⟨phase.state, rfl⟩
  case isFalse =>
    split
    case isTrue => exact ⟨target, rfl⟩
    case isFalse => exact ⟨phase.state, rfl⟩

theorem exists_fail_eq (phase : Phase) : ∃ state, phase.fail.2 = { phase with state } := by
  rw [fail]
  split
  case isTrue => exact ⟨.error, rfl⟩
  case isFalse => exact ⟨phase.state, rfl⟩

theorem leads_moveStep (phase : Phase) (target : PhaseState) :
    (phase.moveStep target).phase.kind = phase.kind ∧
      phase.Leads Graph.Stirred (phase.moveStep target).phase := by
  obtain ⟨state, moved⟩ := phase.exists_moveTo_eq target
  show (phase.moveTo target).2.kind = _ ∧ phase.Leads Graph.Stirred (phase.moveTo target).2
  rw [moved]
  exact ⟨rfl, .refl, rfl, rfl⟩

theorem leads_fail (phase : Phase) :
    phase.fail.2.kind = phase.kind ∧ phase.Leads Graph.Stirred phase.fail.2 := by
  obtain ⟨state, failed⟩ := phase.exists_fail_eq
  rw [failed]
  exact ⟨rfl, .refl, rfl, rfl⟩

/-- Input that is taken is sent to the graph, and the padding behind it. -/
theorem proceeds_of_send {chunk : Chunk} {last : Bool}
    (sent : (phase.send chunk).outcome = .ok last) :
    phase.graph.Proceeds (phase.send chunk).phase.graph := by
  show phase.graph.Proceeds (phase.sendPadded chunk).2
  replace sent : (phase.sendPadded chunk).1 = .ok last := sent
  unfold sendPadded at sent ⊢
  split at sent
  case h_1 => cases sent
  case h_2 answer between first =>
    have before := Graph.proceeds_of_send first
    unfold sendPadding at sent ⊢
    split at sent
    case isFalse elsewhere =>
      simp only [if_neg elsewhere]
      exact before
    case isTrue here =>
      simp only [if_pos here]
      split at sent
      case h_1 => cases sent
      case h_2 => exact before
      case h_3 padding _ =>
        cases second : between.send padding with
        | mk outcome after =>
            rw [second] at sent
            subst sent
            exact before.trans (Graph.proceeds_of_send second)

end Phase

/-! ## Rounds -/

section Options

variable {α : Type} {relates weaker : α → α → Prop}

theorem rel_mono (weakens : ∀ former later, relates former later → weaker former later)
    {former later : Option α} (rel : Option.Rel relates former later) :
    Option.Rel weaker former later := by
  cases rel with
  | none => exact .none
  | some related => exact .some (weakens _ _ related)

theorem rel_refl (refl : ∀ value, relates value value) (value : Option α) :
    Option.Rel relates value value := by
  cases value with
  | none => exact .none
  | some value => exact .some (refl value)

theorem rel_trans (trans : ∀ first second third, relates first second → relates second third →
      relates first third) {first second third : Option α}
    (former : Option.Rel relates first second) (latter : Option.Rel relates second third) :
    Option.Rel relates first third := by
  cases former with
  | none => exact latter
  | some early =>
      cases latter with
      | some late => exact .some (trans _ _ _ early late)

theorem exists_right_of_rel {former : α} {later : Option α}
    (rel : Option.Rel relates (some former) later) :
    ∃ other, later = some other ∧ relates former other := by
  cases rel with
  | some related => exact ⟨_, rfl, related⟩

theorem exists_left_of_rel {former : Option α} {later : α}
    (rel : Option.Rel relates former (some later)) :
    ∃ other, former = some other ∧ relates other later := by
  cases rel with
  | some related => exact ⟨_, rfl, related⟩

end Options

/-- The graphs of a round go on, and its secrets stay. -/
structure Round.Leads (touches : Graph → Graph → Prop) (before after : Round) : Prop where
  phases : ∀ kind, Option.Rel (Phase.Leads touches) (before.phase? kind) (after.phase? kind)
  buffer_eq : after.buffer = before.buffer

/-- Killing a round kills the graph of each phase. -/
theorem Round.phase?_kill (round : Round) (kind : PhaseKind) : round.kill.phase? kind =
    (round.phase? kind).map fun phase => { phase with graph := phase.graph.kill } := by
  rw [phase?, kill, List.find?_map]
  rfl

namespace Round.Leads

variable {touches : Graph → Graph → Prop} {before between after : Round} {phase former : Phase}

/-- Nothing has happened to the phases. -/
theorem of_phases_eq (phases_eq : after.phases = before.phases)
    (buffer_eq : after.buffer = before.buffer) : before.Leads touches after := by
  refine ⟨fun kind => ?_, buffer_eq⟩
  have same : after.phase? kind = before.phase? kind := by rw [phase?, phases_eq, phase?]
  rw [same]
  exact rel_refl .refl _

theorem refl (round : Round) : round.Leads touches round := of_phases_eq rfl rfl

theorem trans (first : before.Leads touches between) (second : between.Leads touches after) :
    before.Leads touches after :=
  ⟨fun kind => rel_trans (fun _ _ _ early late => early.trans late) (first.phases kind)
      (second.phases kind), second.buffer_eq.trans first.buffer_eq⟩

theorem setPhase (found : before.phase? phase.kind = some former)
    (leads : former.Leads touches phase) : before.Leads touches (before.setPhase phase) := by
  refine ⟨fun kind => ?_, rfl⟩
  rw [phase?_setPhase]
  split
  case isTrue same =>
    rw [same, found]
    exact .some leads
  case isFalse => exact rel_refl .refl _

theorem kill (round : Round) : round.Leads Graph.Stirred round.kill := by
  refine ⟨fun kind => ?_, rfl⟩
  rw [phase?_kill]
  cases round.phase? kind with
  | none => exact .none
  | some phase => exact .some (.kill phase)

/-- An event that is delivered without a fault. -/
theorem of_drives {target : Phase} {event : Event} {delivery : Delivery}
    (found : before.phase? target.kind = some target)
    (drives : before.Drives target event delivery)
    (heard : ∀ fault, delivery.outcome ≠ .error (.fault fault)) :
    before.Leads Graph.Stirred delivery.round := by
  have streamed (stream : Stream) : target.Leads Graph.Stirred (target.withStream stream) :=
    ⟨.single (.streamed stream), rfl, rfl⟩
  cases drives with
  | misplaced | unready => exact refl before
  | @spoiled _ _ _ _ stream =>
      exact setPhase (show before.phase? (target.withStream stream).kind = _ from found)
        (streamed stream)
  | crashed => exact absurd rfl (heard _)
  | @sent slots chunk stream last range taken accepted =>
      have fed := (streamed stream).graph.trans (Phase.proceeds_of_send accepted)
      exact setPhase (show before.phase?
        ((target.withStream stream).send chunk).phase.claim.2.kind = _ from found) ⟨fed, rfl, rfl⟩
  | started =>
      exact setPhase (show before.phase? target.claim.2.kind = _ from found) ⟨.refl, rfl, rfl⟩
  | verified =>
      exact setPhase (show before.phase? target.kind = _ from found) ⟨.refl, rfl, rfl⟩

end Round.Leads

/-! ## Nodes -/

namespace Node

variable {node between next after : Node} {position : Nat} {round changed : Round} {ref : PhaseRef}
  {phase former : Phase} {event : Event}

/-- The graphs of all rounds go on, and the secrets stay. -/
def Leads (touches : Graph → Graph → Prop) (node next : Node) : Prop :=
  ∀ position : Nat, Option.Rel (Round.Leads touches) node.rounds[position]? next.rounds[position]?

namespace Leads

variable {touches : Graph → Graph → Prop}

theorem of_rounds_eq (same : next.rounds = node.rounds) : node.Leads touches next := by
  intro position
  rw [same]
  exact rel_refl Round.Leads.refl _

theorem refl (node : Node) : node.Leads touches node := of_rounds_eq rfl

theorem trans (first : node.Leads touches between) (second : between.Leads touches next) :
    node.Leads touches next := by
  intro position
  refine rel_trans ?_ (first position) (second position)
  intro _ _ _
  exact Round.Leads.trans

theorem setRound (there : node.rounds[position]? = some round)
    (leads : round.Leads touches changed) :
    node.Leads touches (node.setRound position changed) := by
  intro index
  rw [getElem?_setRound there]
  split
  case isTrue here =>
    rw [here, there]
    exact .some leads
  case isFalse => exact rel_refl Round.Leads.refl _

theorem setPhase (there : node.phase? ref = some former) (kind_eq : phase.kind = ref.kind)
    (leads : former.Leads touches phase) : node.Leads touches (node.setPhase ref phase) := by
  obtain ⟨round, there⟩ := exists_round_of_phase? there
  obtain ⟨found, here⟩ := phaseAt?_eq_some.mp there
  rw [setPhase_eq there]
  exact setRound found (.setPhase (kind_eq ▸ here) leads)

theorem failRound (node : Node) (position : Nat) (error : RoundError) :
    node.Leads Graph.Stirred (node.failRound position error).2 := by
  cases there : node.rounds[position]? with
  | none =>
      rw [Node.failRound, there]
      exact refl node
  | some round =>
      obtain ⟨failure, events, failed⟩ := failRound_eq there error
      rw [failed]
      have failing : node.Leads Graph.Stirred (node.setRound position { round with failure }) :=
        setRound there (.of_phases_eq rfl rfl)
      exact failing.trans (of_rounds_eq rfl)

theorem failRun (there : node.phaseAt? ref = some (round, phase)) (error : RoundError) :
    node.Leads Graph.Stirred (node.failRun ref phase error) := by
  have kind_eq : phase.kind = ref.kind := kind_of_phaseAt? there
  obtain ⟨fallen_kind, fallen⟩ := Phase.leads_fail { phase with graph := phase.graph.kill }
  have freed : node.Leads Graph.Stirred node.freed := of_rounds_eq rfl
  have found : node.freed.phase? ref = some phase := phase?_of_phaseAt? there
  have stopped := setPhase found (fallen_kind.trans kind_eq) ((Phase.Leads.kill phase).trans fallen)
  exact (freed.trans stopped).trans (failRound _ ref.round error)

theorem emitConclusion (node : Node) (context : TransmitContext) (conclusion : Conclusion) :
    node.Leads Graph.Stirred (node.emitConclusion context conclusion) :=
  of_rounds_eq (rounds_emitConclusion node context conclusion)

theorem applyStep {step : PhaseStep} (there : node.phase? ref = some former)
    (kind_eq : step.phase.kind = ref.kind) (leads : former.Leads Graph.Stirred step.phase)
    (roundId : Nat) : node.Leads Graph.Stirred (node.applyStep ref roundId step) :=
  (setPhase there kind_eq leads).trans (of_rounds_eq rfl)

theorem stopConsumer (node : Node) (fault : Fault) :
    node.Leads Graph.Stirred (node.stopConsumer fault) :=
  of_rounds_eq rfl

theorem start (there : node.phaseAt? ref = some (round, phase)) :
    node.Leads Graph.Stirred (node.start ref round phase) := by
  have found := phase?_of_phaseAt? there
  have kind_eq : phase.kind = ref.kind := kind_of_phaseAt? there
  obtain ⟨active_kind, active⟩ : phase.activate.phase.kind = phase.kind ∧
      phase.Leads Graph.Stirred phase.activate.phase := phase.leads_moveStep .active
  have activated : node.Leads Graph.Stirred (node.applyStep ref round.id phase.activate) :=
    applyStep found (active_kind.trans kind_eq) active round.id
  rw [Node.start]
  split
  case isTrue =>
    obtain ⟨failed_kind, failed⟩ := phase.leads_fail
    exact setPhase found (failed_kind.trans kind_eq) failed
  case isFalse =>
    dsimp only
    split
    case h_1 => exact activated.trans (stopConsumer _ _)
    case h_2 => exact activated
    case h_3 =>
      split
      case h_1 => exact activated.trans (stopConsumer _ _)
      case h_2 graph ran =>
        have run : phase.activate.phase.graph.Proceeds graph := by
          refine .single
            (.acted (show phase.activate.phase.graph.act .start = some graph from ?_) (by simp))
          rw [Graph.act, ran]
          rfl
        have there : (node.applyStep ref round.id phase.activate).phase? ref =
            some phase.activate.phase := by
          show (node.setPhase ref phase.activate.phase).phase? ref = _
          rw [phase?_setPhase there _ (active_kind.trans kind_eq), Function.update_self]
        have begun : (node.applyStep ref round.id phase.activate).Leads Graph.Stirred
            ((node.applyStep ref round.id phase.activate).setPhase ref
              { phase.activate.phase with graph }) :=
          setPhase there (active_kind.trans kind_eq) ⟨run, rfl, rfl⟩
        exact (activated.trans begun).trans (of_rounds_eq rfl)

theorem closeRun (there : node.phaseAt? ref = some (round, phase)) (report : Report) :
    node.Leads Graph.Stirred (node.closeRun ref round phase report) := by
  have found := phase?_of_phaseAt? there
  have kind_eq : phase.kind = ref.kind := kind_of_phaseAt? there
  rw [Node.closeRun]
  split
  case h_1 =>
    obtain ⟨final_kind, final⟩ :=
      phase.leads_moveStep (if phase.verification then .computed else .verified)
    have finalized (transmitted : Node) (same : transmitted.rounds = node.rounds) :
        node.Leads Graph.Stirred (transmitted.applyStep ref round.id phase.finalize) := by
      have known : transmitted.phase? ref = some phase := by
        rw [phase?_eq, same, ← phase?_eq, found]
      exact (of_rounds_eq same).trans
        (applyStep known (final_kind.trans kind_eq) final round.id)
    dsimp only
    split
    case h_1 =>
      refine trans ?_ (stopConsumer _ _)
      exact finalized _ rfl
    case h_2 => exact finalized _ rfl
  case h_2 error _ => exact failRun there error

theorem touched (leads : node.Leads Graph.Stirred next) : node.Leads Graph.Touched next := by
  intro position
  refine rel_mono (fun former later leads => ?_) (leads position)
  exact ⟨fun kind => rel_mono (fun _ _ => Phase.Leads.touched) (leads.phases kind),
    leads.buffer_eq⟩

/-- Graphs go on, and then some of the output of a phase is taken. -/
theorem tapped {taken left : List Chunk} (leads : node.Leads Graph.Stirred between)
    (there : between.phaseAt? ref = some (round, phase))
    (split : phase.graph.pendingOutput = taken ++ left)
    (rounds_eq : next.rounds = (between.setPhase ref
      { phase with graph := phase.graph.setPendingOutput left }).rounds) :
    node.Leads Graph.Touched next := by
  have tap : between.Leads Graph.Touched (between.setPhase ref
      { phase with graph := phase.graph.setPendingOutput left }) :=
    setPhase (phase?_of_phaseAt? there) (show phase.kind = ref.kind from kind_of_phaseAt? there)
      ⟨Graph.becomes_setPendingOutput split, rfl, rfl⟩
  exact (leads.touched.trans tap).trans (of_rounds_eq rounds_eq)

/-- A round keeps its secrets while its graphs go on. -/
theorem exists_later (leads : node.Leads touches next)
    (there : node.rounds[position]? = some round) :
    ∃ later, next.rounds[position]? = some later ∧ later.buffer = round.buffer := by
  have rel := leads position
  rw [there] at rel
  obtain ⟨later, found, leads⟩ := exists_right_of_rel rel
  exact ⟨later, found, leads.buffer_eq⟩

end Leads

/-- The graphs of all rounds go on. -/
def Continues (touches : Graph → Graph → Prop) (node next : Node) : Prop :=
  ∀ ref, Option.Rel (Phase.Leads touches) (node.phase? ref) (next.phase? ref)

namespace Continues

variable {touches : Graph → Graph → Prop}

theorem of_leads (leads : node.Leads touches next) : node.Continues touches next := by
  intro ref
  have rounds := leads ref.round
  rw [phase?_eq, phase?_eq]
  generalize node.rounds[ref.round]? = former at rounds ⊢
  generalize next.rounds[ref.round]? = later at rounds ⊢
  cases rounds with
  | none => exact .none
  | some leads => exact leads.phases ref.kind

/-- Erasing the secrets of a round leaves its phases. -/
theorem erase (there : node.rounds[position]? = some round) :
    node.Continues touches (node.setRound position round.erase) := by
  intro ref
  have same : (node.setRound position round.erase).phase? ref = node.phase? ref := by
    rw [phase?_setRound there]
    split
    case isTrue here =>
      rw [phase?_eq, here, there]
      rfl
    case isFalse => rfl
  rw [same]
  exact rel_refl .refl _

/-- A write changes the stream of a graph at most. -/
theorem write (there : node.phaseAt? ref = some (round, phase)) (write : KernelWrite) :
    node.Continues Graph.Stirred (node.afterWrite ref round phase write) := by
  intro other
  have kind_eq : phase.kind = ref.kind := kind_of_phaseAt? there
  rw [afterWrite]
  generalize write.apply { stream := phase.graph.stream, buffer := round.buffer } = workspace
  have changed : (node.setRound ref.round { round.setPhase (phase.withStream workspace.stream) with
      buffer := workspace.buffer }).phase? =
        Function.update node.phase? ref (some (phase.withStream workspace.stream)) :=
    phase?_setRound_setPhase there
      (show (phase.withStream workspace.stream).kind = ref.kind from kind_eq) rfl
  rw [changed, Function.update_apply]
  split
  case isTrue same =>
    rw [same, phase?_of_phaseAt? there]
    exact .some ⟨.single (.streamed workspace.stream), rfl, rfl⟩
  case isFalse => exact rel_refl .refl _

theorem exists_later (continues : node.Continues touches next)
    (found : node.phase? ref = some phase) :
    ∃ later, next.phase? ref = some later ∧ phase.Leads touches later := by
  have rel := continues ref
  rw [found] at rel
  exact exists_right_of_rel rel

theorem exists_former (continues : node.Continues touches next)
    (found : next.phase? ref = some phase) :
    ∃ former, node.phase? ref = some former ∧ former.Leads touches phase := by
  have rel := continues ref
  rw [found] at rel
  exact exists_left_of_rel rel

theorem touched (continues : node.Continues Graph.Stirred next) :
    node.Continues Graph.Touched next :=
  fun ref => rel_mono (fun _ _ => Phase.Leads.touched) (continues ref)

end Continues

/-! ## Upkeep -/

/-- A transmission that outlives its run takes some of what is left of the output, unless it had
ended before. -/
theorem abandonTransmission_cases (node : Node) (running : RunningPhase PhaseRef) :
    node.abandonTransmission running = node ∨
      running.result = none ∧ ∃ round phase taken left,
        node.phaseAt? running.phase = some (round, phase) ∧
        phase.graph.pendingOutput = taken ++ left ∧
        (node.abandonTransmission running).rounds = (node.setPhase running.phase
          { phase with graph := phase.graph.setPendingOutput left }).rounds := by
  rw [abandonTransmission]
  split
  case h_2 => exact Or.inl rfl
  case h_1 round phase unended there =>
    dsimp only
    obtain ⟨taken, split⟩ := running.transmission.exists_of_readAll phase.transmitter
      (contextOf round phase) phase.graph.pendingOutput
    exact Or.inr ⟨unended, round, phase, taken, _, there, split, rounds_emitConclusion _ _ _⟩

/-- What an event means for graphs and secrets. -/
inductive Upkeep (node : Node) : Event → Node → Prop
  /-- Graphs go on, and the secrets stay. -/
  | led {event : Event} {next : Node} (leads : node.Leads Graph.Stirred next) :
      Upkeep node event next
  /-- Graphs go on, and then some of the output of the running phase is taken. -/
  | tapped {event : Event} {between next : Node} {running : RunningPhase PhaseRef}
      {round : Round} {phase : Phase} {taken left : List Chunk}
      (by_transmitter : event = .transmit ∨ event = .expire)
      (runs : node.queue.running = some running) (leads : node.Leads Graph.Stirred between)
      (there : between.phaseAt? running.phase = some (round, phase))
      (split : phase.graph.pendingOutput = taken ++ left)
      (rounds_eq : next.rounds = (between.setPhase running.phase
        { phase with graph := phase.graph.setPendingOutput left }).rounds) :
      Upkeep node event next
  /-- A round comes in. -/
  | opened {roundId batchSize : Nat} {nodes : List NodeId} {declared : List PhaseDeclaration}
      {responses : ResponseMap} {topology : Topology} {round : Round} {next : Node}
      (made : Round.create node.group roundId topology batchSize
        (declared.map PhaseDeclaration.phase) responses = .ok round)
      (pushed : next.rounds = node.rounds.push round) :
      Upkeep node (.create roundId nodes batchSize declared responses) next
  /-- The secrets of a round are overwritten. -/
  | erased {position : Nat} {round : Round} (there : node.rounds[position]? = some round) :
      Upkeep node (.erase position) (node.setRound position round.erase)
  /-- A kernel writes. -/
  | wrote {ref : PhaseRef} {worker : Nat} {write : KernelWrite} {round : Round} {phase : Phase}
      (there : node.phaseAt? ref = some (round, phase))
      (inside : phase.graph.isCalling worker = true) :
      Upkeep node (.write ref worker write) (node.afterWrite ref round phase write)

/-- **What any event means for graphs and secrets.** -/
theorem upkeep_of_turn (turn : node.Turn event next) : node.Upkeep event next := by
  cases turn with
  | refused => exact .led (.refl node)
  | created made added => exact .opened made rfl
  | @driven roundId position tag event round target live running found drives heard =>
      have driven : node.Leads Graph.Stirred
          (node.setRound position (round.deliver tag event).round) :=
        .setRound (roundAt?_eq_some live) (.of_drives found drives heard)
      refine .led (driven.trans (.of_rounds_eq ?_))
      rw [afterDelivery]
      split <;> rfl
  | @dropped roundId position round live =>
      have killed : node.Leads Graph.Stirred (node.setRound position round.kill) :=
        .setRound (roundAt?_eq_some live) (.kill round)
      exact .led (killed.trans (.of_rounds_eq rfl))
  | erased there => exact .erased there
  | missed => exact .led (.of_rounds_eq rfl)
  | @started ref rest round phase unstopped idle next_up there =>
      have taken : node.Leads Graph.Stirred (node.withWaiting rest) := .of_rounds_eq rfl
      have there : (node.withWaiting rest).phaseAt? ref = some (round, phase) := there
      exact .led (taken.trans (.start there))
  | concluded runs there =>
      refine .led (.trans ?_ (.emitConclusion _ _ _))
      exact .of_rounds_eq rfl
  | @took running round phase chunk graph runs there taken =>
      obtain ⟨left, waiting, rfl⟩ := Graph.takeOutput_chunk taken
      have split : phase.graph.pendingOutput = [chunk] ++ left := waiting
      exact .tapped (Or.inl rfl) runs (.refl node) there split rfl
  | broke => exact .led (.stopConsumer node _)
  | unstarted runs there => exact .led (.failRun there _)
  | finished runs ended there => exact .led (.closeRun there _)
  | @expired running round phase runs there =>
      have closed := Leads.closeRun there
        (.expired (phase.timeout.getD node.config.phaseTimeout))
      rcases abandonTransmission_cases (node.closeRun running.phase round phase
          (.expired (phase.timeout.getD node.config.phaseTimeout))) running with
        unheard | ⟨-, round, phase, taken, left, later, split, rounds_eq⟩
      · rw [unheard]
        exact .led closed
      · exact .tapped (Or.inr rfl) runs closed later split rounds_eq
  | @worked ref step round phase graph there acted =>
      have kind_eq : phase.kind = ref.kind := kind_of_phaseAt? there
      exact .led (.setPhase (phase?_of_phaseAt? there) kind_eq
        ⟨.single (.acted acted (by simp)), rfl, rfl⟩)
  | wrote there inside => exact .wrote there inside
  | closed => exact .led (.of_rounds_eq rfl)

/-- An event touches the graphs of the rounds that are there, or brings another round in. -/
theorem Upkeep.continues (upkeep : node.Upkeep event next) :
    node.Continues Graph.Touched next ∨
      ∃ roundId batchSize nodes declared responses topology round,
        event = .create roundId nodes batchSize declared responses ∧
        Round.create node.group roundId topology batchSize
          (declared.map PhaseDeclaration.phase) responses = .ok round ∧
        next.rounds = node.rounds.push round := by
  cases upkeep with
  | led leads => exact Or.inl (.of_leads leads.touched)
  | tapped _ _ leads there split rounds_eq =>
      exact Or.inl (.of_leads (leads.tapped there split rounds_eq))
  | opened made pushed => exact Or.inr ⟨_, _, _, _, _, _, _, rfl, made, pushed⟩
  | erased there => exact Or.inl (.erase there)
  | wrote there => exact Or.inl (Continues.write there _).touched

/-- The graphs of rounds that are there go on. -/
theorem Upkeep.becomes (upkeep : node.Upkeep event next) (found : node.phase? ref = some phase) :
    ∃ later, next.phase? ref = some later ∧ phase.graph.Becomes later.graph := by
  rcases upkeep.continues with
    continues | ⟨_, _, _, _, _, _, round, -, made, pushed⟩
  · obtain ⟨later, there, leads⟩ := continues.exists_later found
    exact ⟨later, there, leads.becomes⟩
  · obtain ⟨round, there⟩ := exists_round_of_phase? found
    obtain ⟨there, here⟩ := phaseAt?_eq_some.mp there
    refine ⟨phase, ?_, .refl⟩
    rw [phase?_eq, getElem?_of_push pushed there, Option.bind_some, here]

/-- The secrets of a round change when they are erased, and when a worker is inside a kernel. -/
theorem Upkeep.buffer (upkeep : node.Upkeep event next)
    (there : node.rounds[position]? = some round) : ∃ later, next.rounds[position]? = some later ∧
      (later.buffer = round.buffer ∨ later.buffer = round.buffer.erase ∨
        ∃ kind phase worker, node.phase? { round := position, kind } = some phase ∧
          phase.graph.isCalling worker = true) := by
  have kept (leads : node.Leads Graph.Touched next) :
      ∃ later, next.rounds[position]? = some later ∧ (later.buffer = round.buffer ∨
        later.buffer = round.buffer.erase ∨ ∃ kind phase worker,
          node.phase? { round := position, kind } = some phase ∧
            phase.graph.isCalling worker = true) := by
    obtain ⟨later, found, same⟩ := leads.exists_later there
    exact ⟨later, found, Or.inl same⟩
  cases upkeep with
  | led leads => exact kept leads.touched
  | tapped _ _ leads here split rounds_eq => exact kept (leads.tapped here split rounds_eq)
  | opened made pushed => exact ⟨round, getElem?_of_push pushed there, Or.inl rfl⟩
  | @erased other former known =>
      rw [getElem?_setRound known]
      by_cases here : position = other
      · rw [if_pos here]
        subst here
        obtain rfl := Option.some.inj (known.symm.trans there)
        exact ⟨_, rfl, Or.inr (Or.inl rfl)⟩
      · rw [if_neg here]
        exact ⟨round, there, Or.inl rfl⟩
  | @wrote ref worker write former phase known inside =>
      obtain ⟨found, -⟩ := phaseAt?_eq_some.mp known
      rw [afterWrite, getElem?_setRound found]
      by_cases here : position = ref.round
      · rw [if_pos here]
        subst here
        exact ⟨_, rfl, Or.inr (Or.inr ⟨ref.kind, phase, worker, phase?_of_phaseAt? known, inside⟩)⟩
      · rw [if_neg here]
        exact ⟨round, there, Or.inl rfl⟩

/-! ## Where graphs come from -/

/-- Where a phase comes from that is there after an event. -/
inductive Whence (node : Node) (event : Event) (ref : PhaseRef) (phase : Phase) : Prop
  /-- It was there, and nobody has taken output of its graph. -/
  | kept {former : Phase} (known : node.phase? ref = some former)
      (leads : former.Leads Graph.Stirred phase)
  /-- It was running, and some of its output may have been taken. -/
  | tapped {former : Phase} {running : RunningPhase PhaseRef}
      (by_transmitter : event = .transmit ∨ event = .expire)
      (runs : node.queue.running = some running) (here : running.phase = ref)
      (known : node.phase? ref = some former) (leads : former.Leads Graph.Touched phase)
  /-- It has come in with its round, built and linked. -/
  | opened {roundId batchSize : Nat} {nodes : List NodeId} {declared : List PhaseDeclaration}
      {responses : ResponseMap} {declaration : PhaseDeclaration} {built : Graph}
      {buffer : RoundBuffer}
      (absent : node.phase? ref = none)
      (event_eq : event = .create roundId nodes batchSize declared responses)
      (member : declaration ∈ declared) (builds : declaration.graph.build batchSize = .ok built)
      (links : built.link buffer = .ok phase.graph)
      (transmitter_eq : phase.transmitter = declaration.transmitter)
      (binding_eq : phase.binding = some { roundId, batchSize })

theorem Upkeep.whence (upkeep : node.Upkeep event next) (found : next.phase? ref = some phase) :
    node.Whence event ref phase := by
  have continued (continues : node.Continues Graph.Stirred next) : node.Whence event ref phase := by
    obtain ⟨former, known, leads⟩ := continues.exists_former found
    exact .kept known leads
  cases upkeep with
  | led leads => exact continued (.of_leads leads)
  | @tapped _ between _ running round tapped taken left by_transmitter runs leads there split
      rounds_eq =>
      by_cases here : running.phase = ref
      · obtain ⟨former, known, leads⟩ :=
          (Continues.of_leads (leads.tapped there split rounds_eq)).exists_former found
        exact .tapped by_transmitter runs here known leads
      · -- The other phases are what they were before output was taken.
        have kind_eq : tapped.kind = running.phase.kind := kind_of_phaseAt? there
        have tap := phase?_setPhase there
          { tapped with graph := tapped.graph.setPendingOutput left } kind_eq
        rw [phase?_eq, rounds_eq, ← phase?_eq, tap, Function.update_of_ne (Ne.symm here)] at found
        obtain ⟨former, known, leads⟩ := (Continues.of_leads leads).exists_former found
        exact .kept known leads
  | @opened _ _ _ declared _ _ round _ made pushed =>
      rw [phase?_eq, pushed, Array.getElem?_push] at found
      split at found
      case isFalse =>
        rw [← phase?_eq] at found
        exact .kept found (.refl phase)
      case isTrue position_eq =>
        -- The graph is one of those that were handed in, built and linked.
        have here := Round.mem_of_phase? found
        have absent : node.phase? ref = none := by
          rw [phase?_eq, position_eq, Array.getElem?_eq_none le_rfl, Option.bind_none]
        obtain ⟨-, -, buffer, embeds⟩ := Round.create_spec made
        obtain ⟨other, member, graph, binding, rfl, built, builds, links⟩ :=
          embeds.origin phase here
        obtain ⟨declaration, declared_mem, rfl⟩ := List.mem_map.mp member
        exact .opened absent rfl declared_mem builds links rfl
          (Round.binding_of_create made _ here)
  | erased there => exact continued (.erase there)
  | wrote there => exact continued (.write there _)

/-- The graphs that are handed to a round come from wiring. -/
def Event.Wired : Event → Prop
  | .create _ _ _ declared _ => ∀ phase ∈ declared, phase.graph.Wired ∧
      ∀ module, (phase.graph.wiring.inputsOf module).length < Word.limit 32
  | _ => True

/-- Every graph has been built, and has come to where it is by events. -/
def Arrived (node : Node) : Prop :=
  ∀ ref phase, node.phase? ref = some phase → phase.graph.Arrived

theorem Upkeep.arrived (upkeep : node.Upkeep event next) (wired : event.Wired)
    (arrived : node.Arrived) : next.Arrived := by
  intro ref phase found
  cases upkeep.whence found with
  | kept known leads => exact leads.touched.becomes.arrived (arrived ref _ known)
  | tapped _ _ _ known leads => exact leads.becomes.arrived (arrived ref _ known)
  | opened _ event_eq member builds links =>
      subst event_eq
      obtain ⟨plain, few⟩ := wired _ member
      exact Graph.arrived_of_link plain few builds links

/-! ## Plays -/

theorem Arrived.play (arrived : node.Arrived) {events : List Event}
    (wired : ∀ event ∈ events, event.Wired) (played : node.play events = some after) :
    after.Arrived := by
  induction events generalizing node with
  | nil =>
      injection played with same
      exact same ▸ arrived
  | cons event events ih =>
      obtain ⟨next, acted, continued⟩ := Option.bind_eq_some_iff.mp played
      have upkeep := upkeep_of_turn (turn_of_act acted)
      exact ih (upkeep.arrived (wired event List.mem_cons_self) arrived)
        (fun other member => wired other (List.mem_cons_of_mem _ member)) continued

/-- **Every graph of a node has been built**, and has come to where it is by events. -/
theorem arrived_of_play {id : NodeId} {config : NodeConfig} {group : CyclicGroup}
    (created : create id config group = .ok node) {events : List Event}
    (wired : ∀ event ∈ events, event.Wired) (played : node.play events = some after) :
    after.Arrived := by
  refine Arrived.play ?_ wired played
  intro ref phase found
  rw [phase?_eq, (of_create created).1] at found
  cases found

/-- **What a play makes of a graph.** -/
theorem becomes_of_play {events : List Event} (played : node.play events = some after)
    (found : node.phase? ref = some phase) :
    ∃ later, after.phase? ref = some later ∧ phase.graph.Becomes later.graph := by
  refine play_induction
    (motive := fun middle => ∃ later, middle.phase? ref = some later ∧
      phase.graph.Becomes later.graph) ?_ ?_ played
  · exact ⟨phase, found, .refl⟩
  · rintro before event next ⟨middle, there, earlier⟩ acted
    obtain ⟨later, found, becomes⟩ := (upkeep_of_turn (turn_of_act acted)).becomes there
    exact ⟨later, found, earlier.trans becomes⟩

end Node

end Mixnet
