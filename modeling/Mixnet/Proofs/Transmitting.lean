import Mixnet.Proofs.Emission
import Mixnet.Proofs.Gathering
import Mixnet.Proofs.Upkeep

/-!
# What a running transmission reads

The transmitter of the running phase takes one chunk at a time, while the graph goes on, other
rounds come and go, and the queue of finished batches is used by others.  Its transmission is kept
between two events by the consumer.  As long as no slot changes once it has been read, the
transmission has read at each time what it would read of all chunks that it has taken, and in the
end what it would read of all that the sink has emitted.  So the end of a transmission of a node
is the end of a transmission over these chunks.

## Main definitions

* `Node.notices`, `Node.output`: what transmissions have sent out of the node
* `Node.Shares`: a run of a node that shares its queue of finished batches
* `Node.Ends`: an event that ends the transmission of the running phase
* `Node.Quiet`: an event that ends no transmission
* `Node.Sourced`: the sinks of all graphs are in order
* `Node.Step.taken`: the chunks that are taken in a step
* `Node.Steady`: what is read stays as it was read

## Main statements

* `Node.quiet_or_ends`: an event sends nothing out, or ends a transmission
* `Node.Shares.sourced`: in any run, the sinks of all graphs are in order
* `Node.Shares.reads`: a transmission has read what it would read of the chunks that it has taken
* `Node.Ends.conclusion_eq`: it ends as a transmission does over all that the sink has emitted

## Design notes

Between two events of the node the queue of finished batches may become anything at all.  So nothing
here depends on who takes batches out, on when that happens, or on what else is put in.
-/

namespace Mixnet

/-! ## Graphs of which output is taken -/

namespace Graph

variable {graph : Graph} {dispatch : Dispatch} {first : Nat} {front left : List Chunk}

theorem isComplete_setPendingOutput (graph : Graph) (chunks : List Chunk) :
    (graph.setPendingOutput chunks).isComplete = graph.isComplete := by
  rw [setPendingOutput, isComplete, isComplete]
  cases graph.dispatch with
  | none => rfl
  | some dispatch =>
      dsimp only [Option.map_some]
      split <;> rfl

/-- What has been emitted is what had been emitted, whoever takes it. -/
theorem emitted_setPendingOutput (graph : Graph) (chunks : List Chunk) :
    (graph.setPendingOutput chunks).emitted = graph.emitted := by
  rw [setPendingOutput, emitted, emitted]
  cases graph.dispatch with
  | none => rfl
  | some dispatch =>
      dsimp only [Option.map_some]
      split <;> rfl

/-- What is left of the output waits. -/
theorem pendingOutput_setPendingOutput (split : graph.pendingOutput = front ++ left) :
    (graph.setPendingOutput left).pendingOutput = left := by
  unfold pendingOutput at split ⊢
  rw [setPendingOutput]
  cases found : graph.dispatch with
  | none =>
      rw [found] at split
      exact (List.append_eq_nil_iff.mp split.symm).2.symm
  | some dispatch =>
      rw [found, Option.bind_some] at split
      cases sink_found : dispatch.modules[dispatch.sink]? with
      | none =>
          rw [sink_found] at split
          simp only [Option.map_some, sink_found, Option.bind_some]
          exact (List.append_eq_nil_iff.mp split.symm).2.symm
      | some sink =>
          obtain ⟨inside, -⟩ := Array.getElem?_eq_some_iff.mp sink_found
          simp only [Option.map_some, sink_found, Option.bind_some, Dispatch.setModule]
          rw [Array.getElem?_setIfInBounds_self_of_lt inside]
          rfl

/-- **Chunks that are taken go behind those taken before.** -/
theorem Emits.taken_setPendingOutput (emits : graph.Emits first dispatch)
    (split : graph.pendingOutput = front ++ left) :
    (graph.setPendingOutput left).taken = graph.taken ++ front := by
  apply taken_eq_of_append
  rw [emitted_setPendingOutput, pendingOutput_setPendingOutput split, emits.emitted_split, split,
    List.append_assoc]

end Graph

/-- The call of a notifier that an event tells of, with the number of the round. -/
def NodeEvent.call? : NodeEvent → Option (Nat × PeerCall)
  | .notified call roundId => some (roundId, call)
  | _ => none

/-- A phase keeps its batch size, which is that of its round. -/
theorem Phase.Leads.batchSize_eq {before after : Phase} {first : Nat} {dispatch : Dispatch}
    (leads : before.Leads Graph.Touched after) (emits : before.graph.Emits first dispatch) :
    after.batchSize = before.batchSize := by
  rw [Phase.batchSize, Phase.batchSize, leads.binding_eq, (emits.sizes_eq leads.becomes).2]

namespace Node

variable {node before next after : Node} {event : Event} {earlier steps : List Step} {step : Step}
  {ref : PhaseRef} {round : Round} {phase : Phase} {running : RunningPhase PhaseRef}
  {conclusion : Conclusion} {message : Nat → Except StreamError Slot}

/-! ## What leaves a node at the end of a transmission -/

/-- The calls of notifiers, each with the number of its round, oldest first. -/
def notices (node : Node) : List (Nat × PeerCall) :=
  node.events.reverse.filterMap NodeEvent.call?

/-- What transmissions have sent out of a node: the queue of finished batches, and the calls. -/
def output (node : Node) : BatchQueue CompletedRound × List (Nat × PeerCall) :=
  (node.completed, node.notices)

theorem notices_emit (node : Node) (event : NodeEvent) :
    (node.emit event).notices = node.notices ++ event.call?.toList := by
  rw [notices, emit, List.reverse_cons, List.filterMap_append, List.filterMap_cons,
    List.filterMap_nil]
  cases event.call? <;> rfl

theorem notices_emit_of_none {event : NodeEvent} (silent : event.call? = none) :
    (node.emit event).notices = node.notices := by
  rw [notices_emit, silent, Option.toList_none, List.append_nil]

/-- The end of a transmission tells of the calls that were made, and of no others. -/
theorem notices_emitConclusion (node : Node) (context : TransmitContext)
    (conclusion : Conclusion) : (node.emitConclusion context conclusion).notices =
      node.notices ++ conclusion.notified.map (Prod.mk context.roundId) := by
  have told (calls : List PeerCall) (start : Node) :
      (calls.foldl (fun told call => told.emit (.notified call context.roundId)) start).notices =
        start.notices ++ calls.map (Prod.mk context.roundId) := by
    induction calls generalizing start with
    | nil => exact (List.append_nil _).symm
    | cons call calls ih =>
        rw [List.foldl_cons, ih, notices_emit, List.map_cons, List.append_assoc]
        rfl
  rw [emitConclusion]
  split
  · exact told _ _
  · rw [told, notices_emit_of_none rfl]

theorem output_setPhase (node : Node) (ref : PhaseRef) (phase : Phase) :
    (node.setPhase ref phase).output = node.output := by
  rw [setPhase]
  split <;> rfl

theorem output_failRound (node : Node) (position : Nat) (error : RoundError) :
    (node.failRound position error).2.output = node.output := by
  rw [failRound]
  split
  · rfl
  · dsimp only
    split
    · exact congrArg (Prod.mk node.completed) (notices_emit_of_none rfl)
    · rfl

theorem output_failRun (node : Node) (ref : PhaseRef) (phase : Phase) (error : RoundError) :
    (node.failRun ref phase error).output = node.output := by
  rw [failRun, output_failRound, output_setPhase]
  rfl

theorem output_closeRun (node : Node) (ref : PhaseRef) (round : Round)
    (active : phase.state = .active) (report : Report) :
    (node.closeRun ref round phase report).output = node.output := by
  rcases closeRun_cases node ref round active report with ⟨-, earlier, later, closed⟩ |
    ⟨error, -, closed⟩
  · rw [closed]
    exact output_setPhase _ _ _
  · rw [closed]
    exact output_failRun node ref phase error

theorem running_failRun (there : node.phaseAt? ref = some (round, phase))
    (active : phase.state = .active) (error : RoundError) :
    (node.failRun ref phase error).queue.running = none :=
  Option.map_eq_none_iff.mp (congrArg Docket.running (docket_failRun there active error))

/-- A run that is closed is over. -/
theorem running_closeRun (there : node.phaseAt? ref = some (round, phase))
    (active : phase.state = .active) (report : Report) :
    (node.closeRun ref round phase report).queue.running = none := by
  rcases closeRun_cases node ref round active report with ⟨-, earlier, later, closed⟩ |
    ⟨error, -, closed⟩
  · rw [closed]
    exact congrArg ResourceQueue.running (queue_setPhase _ _ _)
  · rw [closed]
    exact running_failRun there active error

theorem phaseAt?_setPhase (there : node.phaseAt? ref = some (round, phase)) {changed : Phase}
    (kind_eq : changed.kind = phase.kind) :
    (node.setPhase ref changed).phaseAt? ref = some (round.setPhase changed, changed) := by
  obtain ⟨found, here⟩ := phaseAt?_eq_some.mp there
  refine phaseAt?_eq_some.mpr ⟨?_, ?_⟩
  · rw [setPhase_eq there, getElem?_setRound found, if_pos rfl]
  · rw [Round.phase?_setPhase, kind_eq, if_pos (Round.kind_of_phase? here).symm, here,
      Option.map_some]

/-- What a transmitter may know does not depend on what waits at the sink. -/
theorem contextOf_setPendingOutput (round : Round) (phase : Phase) (left : List Chunk) :
    contextOf (round.setPhase { phase with graph := phase.graph.setPendingOutput left })
      { phase with graph := phase.graph.setPendingOutput left } = contextOf round phase := by
  simp only [contextOf, Graph.isComplete_setPendingOutput]
  rfl

/-- An event ends the transmission of the running phase, and what is sent out is its conclusion.
The transmitter has read what was left of the output of the graph, as far as it takes any. -/
structure Ends (node : Node) (event : Event) (next : Node) (running : RunningPhase PhaseRef)
    (round : Round) (phase : Phase) (conclusion : Conclusion) : Prop where
  runs : node.queue.running = some running
  unended : running.result = none
  by_transmitter : event = .transmit ∨ event = .expire
  there : next.phaseAt? running.phase = some (round, phase)
  concludes : ∃ former middle, node.phase? running.phase = some former ∧
    former.Leads Graph.Stirred middle ∧ middle.Leads Graph.Touched phase ∧
    phase.graph.emitted = middle.graph.emitted ∧
    conclusion = (running.transmission.readAll phase.transmitter (contextOf round phase)
      middle.graph.pendingOutput).1.conclude phase.transmitter (contextOf round phase)
        node.completed
  output_eq : next.output = (conclusion.completed,
    node.notices ++ conclusion.notified.map (Prod.mk round.id))
  ended : ∀ later, next.queue.running = some later → later.result = some conclusion.result

/-- The transmission ends while its phase runs. -/
theorem ends_of_conclude (runs : node.queue.running = some running)
    (there : node.phaseAt? running.phase = some (round, phase)) (unended : running.result = none)
    (exhausted : running.transmission.isReading phase.transmitter = true →
      ∃ left, phase.graph.takeOutput = .ok (.drained, left)) :
    Ends node .transmit (node.concludeTransmission running round phase) running round phase
      (running.transmission.conclude phase.transmitter (contextOf round phase)
        node.completed) := by
  -- Nothing is left to be read.
  have nothing : (running.transmission.readAll phase.transmitter (contextOf round phase)
      phase.graph.pendingOutput).1 = running.transmission := by
    by_cases reading : running.transmission.isReading phase.transmitter = true
    · obtain ⟨left, drained⟩ := exhausted reading
      rw [Graph.pendingOutput_of_drained drained]
      rfl
    · rw [Bool.not_eq_true] at reading
      rw [Transmission.readAll_of_idle reading]
  rw [concludeTransmission]
  dsimp only
  obtain ⟨events, emitted⟩ := emitConclusion_eq
    { node with
      completed := (running.transmission.conclude phase.transmitter (contextOf round phase)
        node.completed).completed
      queue := { node.queue with running := some { running with
        result := some (running.transmission.conclude phase.transmitter (contextOf round phase)
          node.completed).result } } }
    (contextOf round phase) (running.transmission.conclude phase.transmitter
      (contextOf round phase) node.completed)
  refine ⟨runs, unended, Or.inl rfl, ?_, ⟨phase, phase, phase?_of_phaseAt? there, .refl phase,
    .refl phase, rfl, by rw [nothing]⟩, ?_, ?_⟩
  · rw [emitted]
    exact there
  · refine Prod.ext ?_ (notices_emitConclusion _ _ _)
    rw [emitted]
    rfl
  · rw [emitted]
    intro later runs_later
    injection runs_later with same
    rw [← same]

/-- The transmission outlives its run, and ends behind it. -/
theorem ends_of_abandon {closed : Node} (runs : node.queue.running = some running)
    (there : node.phaseAt? running.phase = some (round, phase)) (unended : running.result = none)
    (leads : node.Leads Graph.Stirred closed) (output_eq : closed.output = node.output)
    (idle : closed.queue.running = none) : ∃ round phase conclusion,
      Ends node .expire (closed.abandonTransmission running) running round phase conclusion := by
  obtain ⟨middle, found, stirred⟩ :=
    (Continues.of_leads leads).exists_later (phase?_of_phaseAt? there)
  obtain ⟨round, later⟩ := exists_round_of_phase? found
  obtain ⟨completed_eq, notices_eq⟩ := Prod.mk.inj output_eq
  rw [abandonTransmission, unended, later]
  dsimp only
  obtain ⟨taken, split⟩ := running.transmission.exists_of_readAll middle.transmitter
    (contextOf round middle) middle.graph.pendingOutput
  rw [completed_eq]
  generalize reads : running.transmission.readAll middle.transmitter (contextOf round middle)
    middle.graph.pendingOutput = reading at split ⊢
  have taps := phaseAt?_setPhase later (show
    Phase.kind { middle with graph := middle.graph.setPendingOutput reading.2 } = _ from rfl)
  have context_eq := contextOf_setPendingOutput round middle reading.2
  obtain ⟨events, emitted⟩ := emitConclusion_eq
    { closed.setPhase running.phase
        { middle with graph := middle.graph.setPendingOutput reading.2 } with
      completed := (reading.1.conclude middle.transmitter (contextOf round middle)
        node.completed).completed }
    (contextOf round middle)
    (reading.1.conclude middle.transmitter (contextOf round middle) node.completed)
  refine ⟨round.setPhase { middle with graph := middle.graph.setPendingOutput reading.2 },
    { middle with graph := middle.graph.setPendingOutput reading.2 },
    reading.1.conclude middle.transmitter (contextOf round middle) node.completed,
    runs, unended, Or.inr rfl, ?_, ⟨_, middle, phase?_of_phaseAt? there, stirred,
      ⟨Graph.becomes_setPendingOutput split, rfl, rfl⟩, Graph.emitted_setPendingOutput _ _, ?_⟩,
    ?_, ?_⟩
  · rw [emitted]
    exact taps
  · rw [context_eq, reads]
  · refine Prod.ext (by rw [emitted]; rfl) ((notices_emitConclusion _ _ _).trans ?_)
    have kept := congrArg Prod.snd (output_setPhase closed running.phase
      { middle with graph := middle.graph.setPendingOutput reading.2 })
    exact congrArg (· ++ _) (kept.trans notices_eq)
  · rw [emitted]
    intro last runs_last
    have quiet : (closed.setPhase running.phase
        { middle with graph := middle.graph.setPendingOutput reading.2 }).queue.running = none := by
      rw [queue_setPhase, idle]
    cases quiet.symm.trans runs_last

/-- How the run of a phase that goes on after an event has got there, if its transmission does not
end by the event. -/
inductive Resumes (node : Node) (event : Event) (next : Node) (running : RunningPhase PhaseRef) :
    Prop
  /-- It has just begun. -/
  | began (waits : running.phase ∈ node.docket.waiting) (fresh : running.transmission = .start)
      (unended : running.result = none)
  /-- Nothing has happened to it. -/
  | kept (runs : node.queue.running = some running)
      (other : ¬ (event = .transmit ∨ event = .expire))
  /-- The transmitter has taken a chunk. -/
  | took {earlier : RunningPhase PhaseRef} {round : Round} {phase : Phase} {chunk : Chunk}
      {left : List Chunk} (runs : node.queue.running = some earlier)
      (unended : earlier.result = none)
      (there : node.phaseAt? earlier.phase = some (round, phase))
      (reading : earlier.transmission.isReading phase.transmitter = true)
      (waiting : phase.graph.pendingOutput = chunk :: left)
      (running_eq : running = { earlier with
        transmission := earlier.transmission.read phase.transmitter (contextOf round phase)
          chunk })
      (rounds_eq : next.rounds = (node.setPhase earlier.phase
        { phase with graph := phase.graph.setPendingOutput left }).rounds)

/-- An event that ends no transmission. -/
structure Quiet (node : Node) (event : Event) (next : Node) : Prop where
  output_eq : next.output = node.output
  unexpired : event = .expire →
    ∀ running, node.queue.running = some running → running.result.isSome = true
  resumes : ∀ running, next.queue.running = some running → node.Resumes event next running

namespace Quiet

/-- The consumer is left alone. -/
theorem of_running_eq (output_eq : next.output = node.output)
    (running_eq : next.queue.running = node.queue.running)
    (other : ¬ (event = .transmit ∨ event = .expire)) : node.Quiet event next :=
  ⟨output_eq, fun expires => (other (Or.inr expires)).elim,
    fun _ runs => .kept (running_eq ▸ runs) other⟩

/-- The consumer has nothing to do afterwards. -/
theorem of_idle (output_eq : next.output = node.output) (idle : next.queue.running = none)
    (unexpired : event = .expire →
      ∀ running, node.queue.running = some running → running.result.isSome = true) :
    node.Quiet event next :=
  ⟨output_eq, unexpired, fun _ runs => by cases idle.symm.trans runs⟩

end Quiet

/-- **An event sends nothing out of the node, or ends a transmission.** -/
theorem quiet_or_ends (sound : node.docket.Sound) (acted : node.act event = some next) :
    node.Quiet event next ∨
      ∃ running round phase conclusion, Ends node event next running round phase conclusion := by
  cases turn_of_act acted with
  | refused _ _ request => exact Or.inl (.of_running_eq rfl rfl request)
  | created | dropped | erased | missed | wrote | closed =>
      exact Or.inl (.of_running_eq rfl rfl (by simp))
  | driven =>
      refine Or.inl (.of_running_eq ?_ ?_ (by simp))
      · rw [afterDelivery]
        split <;> rfl
      · rw [afterDelivery]
        split
        case h_2 => rfl
        case h_1 => exact ResourceQueue.push_running _ _
  | @started ref rest round phase unstopped idle next_up there =>
      have initialized : phase.state = .initialized :=
        (sound.next_up next_up (standing?_of_phaseAt? there)).1
      refine Or.inl ?_
      rcases start_cases (node.withWaiting rest) ref round initialized with ⟨-, failed⟩ |
        ⟨-, fault, -, stopped⟩ | ⟨-, graph, -, begins⟩
      · rw [failed]
        refine .of_idle (output_setPhase _ _ _) ?_ (by simp)
        rw [queue_setPhase]
        exact idle
      · rw [stopped]
        exact .of_idle (output_setPhase _ _ _) rfl (by simp)
      · rw [begins]
        refine ⟨(output_setPhase _ _ _).trans (output_setPhase _ _ _), (by simp), ?_⟩
        intro running runs
        injection runs with begun
        subst begun
        refine .began ?_ rfl rfl
        show ref ∈ node.queue.waiting
        rw [next_up]
        exact List.mem_cons_self
  | concluded runs there unended exhausted =>
      exact Or.inr ⟨_, _, _, _, ends_of_conclude runs there unended exhausted⟩
  | took runs_before there taken unended reading =>
      refine Or.inl ⟨output_setPhase _ _ _, (by simp), fun running runs => ?_⟩
      injection runs with later
      obtain ⟨left, waiting, rfl⟩ := Graph.takeOutput_chunk taken
      exact .took runs_before unended there reading waiting later.symm rfl
  | broke => exact Or.inl (.of_idle rfl rfl (by simp))
  | unstarted runs there =>
      have active := active_of_running sound runs there
      exact Or.inl (.of_idle (output_failRun _ _ _ _) (running_failRun there active _) (by simp))
  | finished runs ended there =>
      have active := active_of_running sound runs there
      exact Or.inl (.of_idle (output_closeRun _ _ _ active _) (running_closeRun there active _)
        (by simp))
  | @expired running round phase runs there =>
      have active := active_of_running sound runs there
      have kept := output_closeRun node running.phase round active
        (.expired (phase.timeout.getD node.config.phaseTimeout))
      have idle := running_closeRun there active
        (.expired (phase.timeout.getD node.config.phaseTimeout))
      cases unended : running.result with
      | some result =>
          rw [abandonTransmission, unended]
          refine Or.inl (.of_idle kept idle fun _ other runs_other => ?_)
          rw [← Option.some.inj (runs.symm.trans runs_other), unended]
          rfl
      | none =>
          exact Or.inr ⟨running, ends_of_abandon runs there unended (.closeRun there _) kept idle⟩
  | worked =>
      exact Or.inl (.of_running_eq (output_setPhase _ _ _)
        (congrArg ResourceQueue.running (queue_setPhase _ _ _)) (by simp))

/-- A transmission that has not ended was under way before, or begins. -/
theorem resumes_of_act (sound : node.docket.Sound) (acted : node.act event = some next)
    (runs : next.queue.running = some running) (unended : running.result = none) :
    node.Resumes event next running := by
  rcases quiet_or_ends sound acted with quiet | ⟨_, _, _, _, ends⟩
  · exact quiet.resumes running runs
  · cases unended.symm.trans (ends.ended running runs)

/-- A transmission whose run has a result afterwards, or whose time is up, has ended. -/
theorem exists_ends (sound : node.docket.Sound) (acted : node.act event = some next)
    (runs : node.queue.running = some running) (unended : running.result = none)
    (ended : event = .expire ∨
      ∃ later, next.queue.running = some later ∧ later.result.isSome = true) :
    ∃ round phase conclusion, Ends node event next running round phase conclusion := by
  rcases quiet_or_ends sound acted with quiet | ⟨other, round, phase, conclusion, ends⟩
  · refine absurd unended (Option.isSome_iff_ne_none.mp ?_)
    rcases ended with expires | ⟨later, later_runs, known⟩
    · exact quiet.unexpired expires running runs
    · cases quiet.resumes later later_runs with
      | began _ _ fresh =>
          rw [fresh] at known
          cases known
      | kept runs_before =>
          rw [Option.some.inj (runs.symm.trans runs_before)]
          exact known
      | took runs_before _ _ _ _ running_eq =>
          rw [Option.some.inj (runs.symm.trans runs_before)]
          rw [running_eq] at known
          exact known
  · obtain rfl := Option.some.inj (ends.runs.symm.trans runs)
    exact ⟨round, phase, conclusion, ends⟩

/-! ## The sinks of a node -/

/-- The graphs that are handed to a round come from wiring, however many inputs a module has. -/
def Event.Assembled : Event → Prop
  | .create _ _ _ declared _ => ∀ phase ∈ declared, phase.graph.Wired
  | _ => True

/-- The sinks of all graphs are in order, and no output has been taken of a phase that has not
begun. -/
structure Sourced (node : Node) : Prop where
  emits : ∀ ref phase, node.phase? ref = some phase →
    (∃ first dispatch, phase.graph.Emits first dispatch) ∧
      phase.batchSize ≤ phase.graph.expandedSize
  untaken : ∀ ref phase, node.phase? ref = some phase →
    phase.graph.taken = [] ∨ node.docket.Begun ref

/-- What has begun stays so. -/
theorem begun_of_act (sound : node.docket.Sound) (acted : node.act event = some next)
    (begun : node.docket.Begun ref) : next.docket.Begun ref := by
  obtain ⟨move, warranted⟩ := (turn_of_act acted).warranted sound
  exact (warranted.shift.fate sound ref).begun_mono begun

/-- The phase that runs has begun. -/
theorem begun_of_running (sound : node.docket.Sound) (runs : node.queue.running = some running) :
    node.docket.Begun running.phase := by
  obtain ⟨standing, there, active⟩ := sound.active _ (running_docket runs)
  refine ⟨standing, there, ?_⟩
  rw [active]
  decide

/-- A phase whose graph has gone on keeps what holds of it. -/
theorem Sourced.emits_of_leads {former : Phase} (sourced : node.Sourced)
    (known : node.phase? ref = some former) (leads : former.Leads Graph.Touched phase) :
    (∃ first dispatch, phase.graph.Emits first dispatch) ∧
      phase.batchSize ≤ phase.graph.expandedSize := by
  obtain ⟨⟨first, dispatch, emits⟩, fits⟩ := sourced.emits ref former known
  obtain ⟨next, later⟩ := emits.becomes leads.becomes
  refine ⟨⟨first, next, later⟩, ?_⟩
  rw [leads.batchSize_eq emits, (emits.sizes_eq leads.becomes).2]
  exact fits

/-- Where nobody takes output, what has been taken stays the same. -/
theorem Sourced.taken_eq {former : Phase} (sourced : node.Sourced)
    (known : node.phase? ref = some former) (leads : former.Leads Graph.Stirred phase) :
    phase.graph.taken = former.graph.taken := by
  obtain ⟨⟨first, dispatch, emits⟩, -⟩ := sourced.emits ref former known
  exact emits.taken_eq_of_proceeds leads.graph

/-- **Every event leaves the sinks of all graphs in order.** -/
theorem Sourced.act (sourced : node.Sourced) (sound : node.docket.Sound)
    (assembled : event.Assembled) (acted : node.act event = some next) : next.Sourced := by
  have upkeep := upkeep_of_turn (turn_of_act acted)
  -- A phase that comes in is in order because it has just been built.
  have fresh {phase : Phase} {roundId batchSize : Nat} {nodes : List NodeId}
      {declared : List PhaseDeclaration} {responses : ResponseMap}
      {declaration : PhaseDeclaration} {built : Graph} {buffer : RoundBuffer}
      (event_eq : event = .create roundId nodes batchSize declared responses)
      (member : declaration ∈ declared)
      (builds : declaration.graph.build batchSize = .ok built)
      (links : built.link buffer = .ok phase.graph)
      (binding_eq : phase.binding = some { roundId, batchSize }) :
      ((∃ first dispatch, phase.graph.Emits first dispatch) ∧
        phase.batchSize ≤ phase.graph.expandedSize) ∧ phase.graph.taken = [] := by
    subst event_eq
    obtain ⟨⟨first, dispatch, emits⟩, nothing⟩ :=
      Graph.emits_of_build (assembled declaration member) builds
    have linked : built.Proceeds phase.graph := by
      refine .single (.acted (show built.act (.link buffer) = some phase.graph from ?_) (by simp))
      rw [Graph.act, links]
      rfl
    obtain ⟨later, still⟩ := emits.becomes linked.becomes
    refine ⟨⟨⟨first, later, still⟩, ?_⟩, ?_⟩
    · rw [Phase.batchSize, binding_eq, (emits.sizes_eq linked.becomes).2]
      exact Graph.batch_le_of_build builds
    · rw [emits.taken_eq_of_proceeds linked, Graph.taken, nothing, List.take_nil]
  refine ⟨fun ref phase found => ?_, fun ref phase found => ?_⟩
  · cases upkeep.whence found with
    | kept known leads => exact sourced.emits_of_leads known leads.touched
    | tapped _ _ _ known leads => exact sourced.emits_of_leads known leads
    | opened _ event_eq member builds links _ binding_eq =>
        exact (fresh event_eq member builds links binding_eq).1
  · cases upkeep.whence found with
    | kept known leads =>
        rw [sourced.taken_eq known leads]
        exact (sourced.untaken ref _ known).imp_right (begun_of_act sound acted)
    | tapped _ runs here =>
        subst here
        exact Or.inr (begun_of_act sound acted (begun_of_running sound runs))
    | opened _ event_eq member builds links _ binding_eq =>
        exact Or.inl (fresh event_eq member builds links binding_eq).2

/-! ## What a transmission has read -/

/-- The chunks that have been taken of a phase. -/
def taken (node : Node) (ref : PhaseRef) : List Chunk :=
  ((node.phase? ref).map fun phase => phase.graph.taken).getD []

/-- The chunks that are taken of a phase in a step. -/
def Step.taken (step : Step) (ref : PhaseRef) : List Chunk :=
  (step.after.taken ref).drop (step.before.taken ref).length

theorem taken_eq (found : node.phase? ref = some phase) : node.taken ref = phase.graph.taken := by
  rw [taken, found, Option.map_some, Option.getD_some]

/-- What is read of a phase in a run is what `message` says: when a chunk is taken, the slots of it
that are read are those. -/
def Steady (steps : List Step) (ref : PhaseRef) (message : Nat → Except StreamError Slot) : Prop :=
  ∀ step ∈ steps, ∀ phase ∈ step.before.phase? ref,
    ∀ index ∈ phase.transmitter.indices phase.batchSize (step.taken ref),
      phase.graph.stream.output index = message index

instance : Decidable (Steady steps ref message) :=
  inferInstanceAs (Decidable (∀ step ∈ steps, ∀ phase ∈ step.before.phase? ref,
    ∀ index ∈ phase.transmitter.indices phase.batchSize (step.taken ref),
      phase.graph.stream.output index = message index))

/-- A transmission that has not ended has read what `message` says of the chunks that have been
taken. -/
def Reads (node : Node) (ref : PhaseRef) (message : Nat → Except StreamError Slot) : Prop :=
  ∀ running phase, node.queue.running = some running → running.phase = ref →
    running.result = none → node.phase? ref = some phase →
      running.transmission = Transmission.readSlots message .start
        (phase.transmitter.indices phase.batchSize phase.graph.taken)

theorem phase?_ne_none {standing : Standing} (there : node.docket.standing? ref = some standing) :
    node.phase? ref ≠ none := by
  intro absent
  rw [standing?_docket, absent] at there
  cases there

/-- **Every event lets a transmission read the chunks that it takes, and no others.** -/
theorem Reads.act (reads : node.Reads ref message) (sound : node.docket.Sound)
    (sourced : node.Sourced) (acted : node.act event = some next)
    (steady : Steady [⟨node, event, next⟩] ref message) : next.Reads ref message := by
  intro running phase runs here unended found
  subst here
  have upkeep := upkeep_of_turn (turn_of_act acted)
  cases resumes_of_act sound acted runs unended with
  | began waits fresh =>
      -- Nothing has been taken of a phase that has not begun.
      have unbegun : ¬ node.docket.Begun running.phase :=
        fun ⟨_, there, begun⟩ => sound.not_waiting there begun waits
      have untaken : phase.graph.taken = [] := by
        cases upkeep.whence found with
        | kept known leads =>
            rw [sourced.taken_eq known leads]
            exact (sourced.untaken _ _ known).resolve_right unbegun
        | tapped _ ran here =>
            rw [← here] at unbegun
            exact (unbegun (begun_of_running sound ran)).elim
        | opened absent =>
            obtain ⟨standing, there, -⟩ := sound.ready _ waits
            exact (phase?_ne_none there absent).elim
      rw [fresh, untaken, Transmitter.indices_nil]
      rfl
  | kept ran other =>
      cases upkeep.whence found with
      | @kept former known leads =>
          obtain ⟨⟨first, dispatch, emits⟩, -⟩ := sourced.emits _ former known
          rw [sourced.taken_eq known leads, leads.transmitter_eq,
            leads.touched.batchSize_eq emits]
          exact reads running former ran rfl unended known
      | tapped by_transmitter => exact (other by_transmitter).elim
      | opened absent =>
          obtain ⟨standing, there, -⟩ := sound.active _ (running_docket ran)
          exact (phase?_ne_none there absent).elim
  | @took earlier round former chunk left ran unended_before there reading waiting running_eq
      rounds_eq =>
      subst running_eq
      have known := phase?_of_phaseAt? there
      obtain ⟨⟨first, dispatch, emits⟩, -⟩ := sourced.emits _ former known
      have split : former.graph.pendingOutput = [chunk] ++ left := waiting
      have taken_eq := emits.taken_setPendingOutput split
      have leads : former.Leads Graph.Touched
          { former with graph := former.graph.setPendingOutput left } :=
        ⟨Graph.becomes_setPendingOutput split, rfl, rfl⟩
      have kind_eq : former.kind = earlier.phase.kind := kind_of_phaseAt? there
      have tap := phase?_setPhase there
        { former with graph := former.graph.setPendingOutput left } kind_eq
      have later := found
      rw [phase?_eq, rounds_eq, ← phase?_eq, tap, Function.update_self] at later
      obtain rfl := Option.some.inj later
      have alike := steady _ (List.mem_singleton_self _) former known
      have one : Step.taken ⟨node, event, next⟩ earlier.phase = [chunk] := by
        rw [Step.taken, Node.taken_eq known, Node.taken_eq found, taken_eq, List.drop_left]
      rw [one] at alike
      have unspoiled : earlier.transmission.error.isNone = true := by
        rw [Transmission.isReading, Bool.and_eq_true] at reading
        exact reading.2
      rw [leads.batchSize_eq emits, taken_eq, Transmitter.indices_append,
        Transmission.readSlots_append _ rfl, ← reads earlier former ran rfl unended_before known,
        if_pos unspoiled, Transmission.read_eq]
      exact Transmission.readSlots_congr alike _

/-- **A transmission ends as it does over all that the sink has emitted**, if it has read until then
what can be read in the end. -/
theorem Ends.conclusion_eq (ends : Ends node event next running round phase conclusion)
    (sourced : node.Sourced) (reads : node.Reads running.phase phase.graph.stream.output) :
    conclusion = phase.transmitter.transmit (contextOf round phase) node.completed
      phase.graph.emitted := by
  obtain ⟨former, middle, known, stirred, touched, emitted_eq, rfl⟩ := ends.concludes
  obtain ⟨⟨first, dispatch, emits⟩, -⟩ := sourced.emits _ former known
  obtain ⟨between, still⟩ := emits.becomes stirred.touched.becomes
  have leads := stirred.touched.trans touched
  have everything : phase.graph.emitted = former.graph.taken ++ middle.graph.pendingOutput := by
    rw [emitted_eq, still.emitted_split, sourced.taken_eq known stirred]
  have read : running.transmission = Transmission.readSlots (contextOf round phase).message .start
      (phase.transmitter.indices (contextOf round phase).batchSize former.graph.taken) := by
    rw [reads running former ends.runs rfl ends.unended known, leads.transmitter_eq,
      ← leads.batchSize_eq emits]
    rfl
  rw [Transmitter.transmit_eq, everything, ← Transmission.readAll_append, ← read]

/-! ## Runs in company -/

/-- The node with another queue of finished batches. -/
def withCompleted (node : Node) (completed : BatchQueue CompletedRound) : Node :=
  { node with completed }

/-- A run of a node that shares its queue of finished batches: before each event, others may have
changed the queue. -/
inductive Shares (node : Node) : List Step → Node → Prop
  /-- Nothing has happened yet. -/
  | start : Shares node [] node
  /-- An event follows. -/
  | go {steps : List Step} {before after : Node} {event : Event}
      (completed : BatchQueue CompletedRound) (shares : Shares node steps before)
      (acted : (before.withCompleted completed).act event = some after) :
      Shares node (steps ++ [⟨before.withCompleted completed, event, after⟩]) after

namespace Shares

/-- A play is a run in which nobody else touches the queue. -/
theorem of_play {events : List Event} (played : node.play events = some after) :
    node.Shares (node.steps events) after := by
  induction events using List.reverseRecOn generalizing after with
  | nil =>
      injection played with same
      subst same
      exact .start
  | append_singleton events event ih =>
      obtain ⟨before, reached, acted⟩ := play_concat played
      rw [steps_concat reached acted]
      exact .go before.completed (ih reached) acted

/-- What no event can undo holds at the end of a run, too. -/
theorem induction {motive : Node → Prop} (start : motive node)
    (shared : ∀ node completed, motive node → motive (node.withCompleted completed))
    (keeps : ∀ before event next, motive before → before.act event = some next → motive next)
    (shares : node.Shares steps after) : motive after := by
  induction shares with
  | start => exact start
  | go completed _ acted ih => exact keeps _ _ _ (shared _ completed ih) acted

/-- A step of a run happens to a node that the run has reached. -/
theorem of_mem (shares : node.Shares steps after) (member : step ∈ steps) :
    ∃ earlier before completed, node.Shares earlier before ∧
      step.before = before.withCompleted completed ∧
      step.before.act step.event = some step.after := by
  induction shares with
  | start => cases member
  | go completed shares acted ih =>
      rcases List.mem_append.mp member with member | member
      · exact ih member
      · obtain rfl := List.mem_singleton.mp member
        exact ⟨_, _, completed, shares, rfl, acted⟩

/-- The last step of a run happens to a node that the others lead to. -/
theorem of_concat (shares : node.Shares (earlier ++ [step]) after) :
    ∃ before completed, node.Shares earlier before ∧
      step.before = before.withCompleted completed ∧
      step.before.act step.event = some step.after ∧ step.after = after := by
  generalize run : earlier ++ [step] = steps at shares
  cases shares with
  | start => exact absurd run (List.append_ne_nil_of_right_ne_nil _ (List.cons_ne_nil _ _))
  | go completed shares acted =>
      obtain ⟨rfl, same⟩ := List.append_inj' run rfl
      obtain rfl := (List.cons.inj same).1
      exact ⟨_, completed, shares, rfl, acted, rfl⟩

variable {id : NodeId} {config : NodeConfig} {group : CyclicGroup}

/-- A run keeps its docket sound, and the round of the running phase spared. -/
theorem sound (created : create id config group = .ok node) (shares : node.Shares steps after) :
    after.docket.Sound ∧ after.Spared := by
  refine induction (motive := fun node => node.docket.Sound ∧ node.Spared) ?_
    (fun _ _ holds => holds) ?_ shares
  · obtain ⟨empty, idle, quiet⟩ := of_create created
    exact ⟨(Tally.nil empty idle quiet).sound, (Tally.nil empty idle quiet).spared⟩
  · rintro before event next ⟨sound, spared⟩ acted
    obtain ⟨move, warranted⟩ := (turn_of_act acted).warranted sound
    exact ⟨warranted.shift.sound sound, spared.act sound acted⟩

/-- A phase has the transmitter that it was declared with. -/
theorem exists_declared (created : create id config group = .ok node)
    (shares : node.Shares steps after) (found : after.phase? ref = some phase) :
    ∃ step ∈ steps, ∃ roundId nodes batchSize declared responses,
      step.event = .create roundId nodes batchSize declared responses ∧
        ∃ declaration ∈ declared, phase.transmitter = declaration.transmitter := by
  induction shares generalizing ref phase with
  | start =>
      rw [phase?_eq, (of_create created).1] at found
      cases found
  | go completed _ acted ih =>
      cases (upkeep_of_turn (turn_of_act acted)).whence found with
      | kept known leads =>
          obtain ⟨step, member, declares⟩ := ih known
          rw [leads.transmitter_eq]
          exact ⟨step, List.mem_append_left _ member, declares⟩
      | tapped _ _ _ known leads =>
          obtain ⟨step, member, declares⟩ := ih known
          rw [leads.transmitter_eq]
          exact ⟨step, List.mem_append_left _ member, declares⟩
      | opened _ event_eq member _ _ transmitter_eq =>
          exact ⟨_, List.mem_append_right _ (List.mem_singleton_self _), _, _, _, _, _, event_eq,
            _, member, transmitter_eq⟩

/-- **In any run, the sinks of all graphs are in order.** -/
theorem sourced (created : create id config group = .ok node) (shares : node.Shares steps after)
    (assembled : ∀ step ∈ steps, step.event.Assembled) : after.Sourced := by
  induction shares with
  | start =>
      obtain ⟨empty, -, -⟩ := of_create created
      have nowhere (ref : PhaseRef) : node.phase? ref = none := by
        rw [phase?_eq, empty]
        rfl
      constructor <;> intro ref phase found <;> cases (nowhere ref).symm.trans found
  | @go steps before after event completed shares acted ih =>
      have sourced := ih fun step member => assembled step (List.mem_append_left _ member)
      have middle : (before.withCompleted completed).Sourced := ⟨sourced.emits, sourced.untaken⟩
      exact middle.act (shares.sound created).1
        (assembled _ (List.mem_append_right _ (List.mem_singleton_self _))) acted

/-- **In any run, a transmission has read what it would read of the chunks that it has taken**, as
long as no slot changes that it has read. -/
theorem reads (created : create id config group = .ok node) (shares : node.Shares steps after)
    (assembled : ∀ step ∈ steps, step.event.Assembled) (steady : Steady steps ref message) :
    after.Reads ref message := by
  induction shares with
  | start =>
      obtain ⟨-, idle, -⟩ := of_create created
      intro running phase runs
      rw [idle] at runs
      cases runs
  | @go steps before after event completed shares acted ih =>
      have assembled_before (step : Step) (member : step ∈ steps) : step.event.Assembled :=
        assembled step (List.mem_append_left _ member)
      have reads := ih assembled_before fun step member =>
        steady step (List.mem_append_left _ member)
      have sourced := shares.sourced created assembled_before
      have middle : (before.withCompleted completed).Sourced := ⟨sourced.emits, sourced.untaken⟩
      have middle_reads : (before.withCompleted completed).Reads ref message := reads
      exact middle_reads.act (shares.sound created).1 middle acted fun step member =>
        steady step (List.mem_append_right _ member)

end Shares

end Node

end Mixnet
