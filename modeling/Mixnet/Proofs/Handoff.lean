import Mixnet.Proofs.Transmitting

/-!
# One batch for a phase

The last transmitter of a round hands over the whole batch or nothing.  In a run of a node, whatever
others do to the queue of finished batches, it does so at the end of the transmission of the running
phase, over all that the sink of the phase has emitted, and the peers that it tells are told there.
A transmission ends once, and a phase runs once, so a phase whose transmitter finishes the round
hands over one batch at most.

## Main definitions

* `Node.Spent`: a phase whose transmission has ended
* `Node.Step.handed`, `Node.handed`: the batches that a phase hands over
* `Node.Handover`: the law of what phases hand over
* `Node.Step.EndsTransmission`: a step in which the transmission of the running phase ends
* `Node.Step.Concludes`: what has been sent out in such a step

## Main statements

* `Node.Spent.act`: what is spent stays so
* `Node.Shares.concludes`: a transmission that finishes the round ends as the law of a handoff says
* `FinishRealtime.batch_handoff`: a transmission hands over a whole batch or none, and in a run a
  phase hands over one at most

## Design notes

A report that is refused leaves its worker where it is, and what was counted of it stays counted.
So only of a graph without such a worker is it known that the sink emits each chunk once.
-/

namespace Mixnet

namespace Node

variable {node before next after : Node} {event : Event} {earlier steps : List Step} {step : Step}
  {ref : PhaseRef} {round : Round} {phase : Phase} {running : RunningPhase PhaseRef}
  {conclusion : Conclusion} {notify : Nat → NodeId → Nat → Notice}

/-! ## A transmission ends once -/

/-- The transmission of a phase has ended: the phase has begun, and if it still runs, there is a
result. -/
structure Spent (node : Node) (ref : PhaseRef) : Prop where
  begun : node.docket.Begun ref
  ended : ∀ running, node.queue.running = some running → running.phase = ref →
    running.result.isSome = true

/-- **What is spent stays so.** -/
theorem Spent.act (spent : node.Spent ref) (sound : node.docket.Sound)
    (acted : node.act event = some next) : next.Spent ref := by
  refine ⟨begun_of_act sound acted spent.begun, ?_⟩
  intro running runs here
  subst here
  by_contra unended
  rw [Option.not_isSome_iff_eq_none] at unended
  cases resumes_of_act sound acted runs unended with
  | began waits =>
      obtain ⟨standing, there, begun⟩ := spent.begun
      exact sound.not_waiting there begun waits
  | kept ran =>
      have ended := spent.ended running ran rfl
      rw [unended] at ended
      cases ended
  | took ran unended_before _ _ _ running_eq =>
      have ended := spent.ended _ ran (congrArg RunningPhase.phase running_eq).symm
      rw [unended_before] at ended
      cases ended

/-- The end of a transmission spends its phase, which was not spent before. -/
theorem Ends.spends (ends : Ends node event next running round phase conclusion)
    (sound : node.docket.Sound) (acted : node.act event = some next) :
    ¬ node.Spent running.phase ∧ next.Spent running.phase := by
  constructor
  · intro spent
    have ended := spent.ended running ends.runs rfl
    rw [ends.unended] at ended
    cases ended
  · refine ⟨begun_of_act sound acted (begun_of_running sound ends.runs), fun later runs _ => ?_⟩
    rw [ends.ended later runs]
    rfl

/-! ## The law -/

/-- The batches that a phase hands over in a step, if it runs. -/
def Step.handed (step : Step) (ref : PhaseRef) : List CompletedRound :=
  if step.before.queue.running.map RunningPhase.phase = some ref then
    step.after.completed.items.drop step.before.completed.items.length
  else []

/-- The batches that a phase hands over in a run. -/
def handed (steps : List Step) (ref : PhaseRef) : List CompletedRound :=
  steps.flatMap fun step => step.handed ref

/-- The transmitter under a reference, if there is one, finishes the round. -/
def Finishes (node : Node) (ref : PhaseRef) : Prop :=
  ∀ phase, node.phase? ref = some phase →
    ∃ notify, phase.transmitter = FinishRealtime.transmitter notify

/-- A phase keeps its transmitter. -/
theorem Finishes.of_act (sound : node.docket.Sound) (spared : node.Spared)
    (acted : node.act event = some next) (finishes : next.Finishes ref) : node.Finishes ref := by
  intro phase there
  have effect := effect_of_act sound spared acted
  rw [phase?_eq] at there
  obtain ⟨round, here, known⟩ := Option.bind_eq_some_iff.mp there
  obtain ⟨after, later⟩ := effect.stays here
  have same := congrFun (effect.transmitter_eq here later) ref.kind
  rw [Round.transmitter?, Round.transmitter?, known, Option.map_some] at same
  obtain ⟨changed, found, transmits⟩ := Option.map_eq_some_iff.mp same
  rw [← transmits]
  refine finishes changed ?_
  rw [phase?_eq, later, Option.bind_some, found]

/-- The end of a transmission that finishes the round hands over a batch of the round, of a complete
graph, or nothing. -/
theorem Ends.hands (ends : Ends node event next running round phase conclusion)
    (finishes : next.Finishes running.phase) :
    next.completed = node.completed ∨ ∃ batch, next.completed =
        { node.completed with items := node.completed.items ++ [batch] } ∧
      batch.roundId = round.id ∧ batch.slots.length = phase.batchSize ∧
      phase.graph.isComplete = true := by
  obtain ⟨notify, transmits⟩ := finishes phase (phase?_of_phaseAt? ends.there)
  obtain ⟨_, middle, -, -, -, -, rfl⟩ := ends.concludes
  have completed_eq := congrArg Prod.fst ends.output_eq
  rw [transmits] at completed_eq
  generalize (running.transmission.readAll (FinishRealtime.transmitter notify)
    (contextOf round phase) middle.graph.pendingOutput).1 = transmission at completed_eq
  by_cases clear : FinishRealtime.Clear (contextOf round phase) node.completed transmission
  · rw [clear.conclude_eq] at completed_eq
    exact Or.inr ⟨_, completed_eq, rfl, FinishRealtime.length_gather .., clear.complete⟩
  · obtain ⟨error, silent⟩ := FinishRealtime.conclude_of_not_clear clear
    rw [silent] at completed_eq
    exact Or.inl completed_eq

/-- What a phase that finishes the round hands over in a step: nothing, or one batch at the end of
its transmission. -/
inductive Step.Hands (step : Step) (ref : PhaseRef) : Prop
  | nothing (nothing : step.handed ref = [])
      (kept : step.before.queue.running.map RunningPhase.phase = some ref →
        step.after.completed = step.before.completed)
  | batch {running : RunningPhase PhaseRef} {round : Round} {phase : Phase}
      {conclusion : Conclusion} {batch : CompletedRound} (here : running.phase = ref)
      (ends : Ends step.before step.event step.after running round phase conclusion)
      (one : step.handed ref = [batch])
      (pushes : step.after.completed =
        { step.before.completed with items := step.before.completed.items ++ [batch] })
      (id_eq : batch.roundId = round.id) (length_eq : batch.slots.length = phase.batchSize)
      (complete : phase.graph.isComplete = true)

theorem Step.hands (step : Step) (sound : step.before.docket.Sound)
    (acted : step.before.act step.event = some step.after) (finishes : step.after.Finishes ref) :
    step.Hands ref := by
  have quiet (kept : step.after.completed = step.before.completed) : step.Hands ref := by
    refine .nothing ?_ fun _ => kept
    rw [handed, kept, List.drop_length, ite_self]
  rcases quiet_or_ends sound acted with still | ⟨running, round, phase, conclusion, ends⟩
  · exact quiet (congrArg Prod.fst still.output_eq)
  · by_cases here : running.phase = ref
    · subst here
      rcases ends.hands finishes with kept | ⟨batch, pushes, id_eq, length_eq, complete⟩
      · exact quiet kept
      · have runs : step.before.queue.running.map RunningPhase.phase = some running.phase := by
          rw [ends.runs, Option.map_some]
        refine .batch rfl ends ?_ pushes id_eq length_eq complete
        rw [handed, if_pos runs, pushes, List.drop_left]
    · have elsewhere : step.before.queue.running.map RunningPhase.phase ≠ some ref := by
        rw [ends.runs, Option.map_some]
        exact fun same => here (Option.some.inj same)
      exact .nothing (if_neg elsewhere) fun runs => (elsewhere runs).elim

/-- **The law of what phases hand over**, for a run that leads to a node. -/
structure Handover (steps : List Step) (after : Node) : Prop where
  /-- The queue of finished batches changes only at the end of the transmission of the running
  phase, and peers are only told there. -/
  from_running : ∀ step ∈ steps, step.after.output ≠ step.before.output →
    ∃ running, step.before.queue.running = some running ∧ running.result = none ∧
      (step.event = .transmit ∨ step.event = .expire)
  /-- What a phase that finishes the round hands over goes behind what waits. -/
  appends : ∀ step ∈ steps, ∀ ref, step.after.Finishes ref →
    step.before.queue.running.map RunningPhase.phase = some ref →
      step.after.completed = { step.before.completed with
        items := step.before.completed.items ++ step.handed ref }
  /-- It is a batch of the round, and comes of a complete graph. -/
  whole : ∀ step ∈ steps, ∀ ref round phase, step.after.Finishes ref →
    step.after.phaseAt? ref = some (round, phase) → ∀ batch ∈ step.handed ref,
      batch.roundId = round.id ∧ batch.slots.length = phase.batchSize ∧
        phase.graph.isComplete = true
  /-- Such a phase hands over one batch at most, in the whole run. -/
  once : ∀ ref, after.Finishes ref → (handed steps ref).length ≤ 1

/-- **A phase that finishes the round hands over one batch at most**, and is spent behind it. -/
theorem Shares.once {id : NodeId} {config : NodeConfig} {group : CyclicGroup}
    (created : create id config group = .ok node) (shares : node.Shares steps after)
    (finishes : after.Finishes ref) :
    handed steps ref = [] ∨ (handed steps ref).length = 1 ∧ after.Spent ref := by
  induction shares with
  | start => exact Or.inl rfl
  | @go steps before after event completed shares acted ih =>
      have ready : before.docket.Sound ∧ before.Spared := shares.sound created
      have sound : (before.withCompleted completed).docket.Sound := ready.1
      have spared : (before.withCompleted completed).Spared := ready.2
      have finishes_before : (before.withCompleted completed).Finishes ref :=
        finishes.of_act sound spared acted
      have handed_eq : handed (steps ++ [⟨before.withCompleted completed, event, after⟩]) ref =
          handed steps ref ++ Step.handed ⟨before.withCompleted completed, event, after⟩ ref := by
        simp [handed]
      rw [handed_eq]
      have hands := Step.hands ⟨before.withCompleted completed, event, after⟩ sound acted finishes
      cases hands with
      | nothing nothing =>
          rw [nothing, List.append_nil]
          refine (ih finishes_before).imp_right ?_
          rintro ⟨one, spent⟩
          have spent : (before.withCompleted completed).Spent ref := ⟨spent.begun, spent.ended⟩
          exact ⟨one, spent.act sound acted⟩
      | batch here ends one =>
          subst here
          obtain ⟨unspent, spent⟩ := ends.spends sound acted
          rcases ih finishes_before with none_yet | ⟨-, already⟩
          · rw [none_yet, one]
            exact Or.inr ⟨rfl, spent⟩
          · exact (unspent ⟨already.begun, already.ended⟩).elim

/-- **The law holds of every run.** -/
theorem Shares.handover {id : NodeId} {config : NodeConfig} {group : CyclicGroup}
    (created : create id config group = .ok node) (shares : node.Shares steps after) :
    Handover steps after := by
  have sound_of_mem {step : Step} (member : step ∈ steps) :
      step.before.docket.Sound ∧ step.before.act step.event = some step.after := by
    obtain ⟨earlier, before, completed, reached, before_eq, acted⟩ := shares.of_mem member
    refine ⟨?_, acted⟩
    rw [before_eq]
    exact (reached.sound created).1
  refine ⟨?_, ?_, ?_, ?_⟩
  · intro step member changed
    obtain ⟨sound, acted⟩ := sound_of_mem member
    rcases quiet_or_ends sound acted with quiet | ⟨running, round, phase, conclusion, ends⟩
    · exact (changed quiet.output_eq).elim
    · exact ⟨running, ends.runs, ends.unended, ends.by_transmitter⟩
  · intro step member ref finishes runs
    obtain ⟨sound, acted⟩ := sound_of_mem member
    cases step.hands sound acted finishes with
    | nothing nothing kept => rw [kept runs, nothing, List.append_nil]
    | batch _ _ one pushes => rw [one, pushes]
  · intro step member ref round phase finishes there batch given
    obtain ⟨sound, acted⟩ := sound_of_mem member
    cases step.hands sound acted finishes with
    | nothing nothing =>
        rw [nothing] at given
        cases given
    | batch here ends one _ id_eq length_eq complete =>
        subst here
        rw [one] at given
        obtain rfl := List.mem_singleton.mp given
        rw [ends.there] at there
        injection there with same
        injection same with round_eq phase_eq
        subst round_eq phase_eq
        exact ⟨id_eq, length_eq, complete⟩
  · intro ref finishes
    rcases shares.once created finishes with nothing | ⟨one, -⟩
    · rw [nothing]
      exact Nat.zero_le 1
    · exact one.le

/-! ## The end of a transmission -/

/-- The transmission of the running phase ends in a step: it has a result afterwards, or the time of
its run is up.  The round and the phase are those afterwards. -/
structure Step.EndsTransmission (step : Step) (running : RunningPhase PhaseRef) (round : Round)
    (phase : Phase) : Prop where
  runs : step.before.queue.running = some running
  unended : running.result = none
  there : step.after.phaseAt? running.phase = some (round, phase)
  ended : step.event = .expire ∨
    ∃ later, step.after.queue.running = some later ∧ later.result.isSome = true

/-- **The law of a transmission that finishes the round**, for the step in which it ends. -/
structure Step.Concludes (step : Step) (notify : Nat → NodeId → Nat → Notice) (round : Round)
    (phase : Phase) (context : TransmitContext) (conclusion : Conclusion) : Prop where
  /-- What the transmitter knows is the state of the phase and of its round. -/
  context_eq : context = {
    roundId := round.id
    phase := phase.kind
    topology := round.topology
    batchSize := phase.batchSize
    message := phase.graph.stream.output
    outputComplete := phase.graph.isComplete }
  /-- It ends as it does over all that the sink has emitted. -/
  conclusion_eq : conclusion = (FinishRealtime.transmitter notify).transmit context
    step.before.completed phase.graph.emitted
  /-- What it has made of the queue of finished batches is what the node has. -/
  completed_eq : step.after.completed = conclusion.completed
  /-- The calls of the notifier are those that leave the node. -/
  notices_eq : step.after.notices =
    step.before.notices ++ conclusion.notified.map (Prod.mk round.id)
  /-- Its result is what the consumer finds. -/
  result_eq : ∀ later, step.after.queue.running = some later →
    later.result = some conclusion.result
  /-- So the law of a handoff holds of what it sent out. -/
  handoff : phase.graph.Unharmed → FinishRealtime.Handoff notify context step.before.completed
    phase.graph.emitted conclusion

/-- **In any run, a transmission that finishes the round ends as the law says**, as long as no slot
changes that it has read. -/
theorem Shares.concludes {id : NodeId} {config : NodeConfig} {group : CyclicGroup}
    (created : create id config group = .ok node) (shares : node.Shares (earlier ++ [step]) after)
    (assembled : ∀ other ∈ earlier, other.event.Assembled)
    (ends : step.EndsTransmission running round phase)
    (transmits : phase.transmitter = FinishRealtime.transmitter notify)
    (steady : Steady earlier running.phase phase.graph.stream.output) :
    ∃ context conclusion, step.Concludes notify round phase context conclusion := by
  obtain ⟨before, completed, reached, before_eq, acted, -⟩ := shares.of_concat
  have sound : step.before.docket.Sound := by
    rw [before_eq]
    exact (reached.sound created).1
  have sourced : step.before.Sourced := by
    obtain ⟨emits, untaken⟩ := reached.sourced created assembled
    rw [before_eq]
    exact ⟨emits, untaken⟩
  have reads : step.before.Reads running.phase phase.graph.stream.output := by
    have reads := reached.reads created assembled steady
    rw [before_eq]
    exact reads
  obtain ⟨same_round, same_phase, conclusion, done⟩ :=
    exists_ends sound acted ends.runs ends.unended ends.ended
  obtain ⟨rfl, rfl⟩ := Prod.mk.inj (Option.some.inj (done.there.symm.trans ends.there))
  have conclusion_eq := done.conclusion_eq sourced reads
  rw [transmits] at conclusion_eq
  obtain ⟨former, middle, known, stirred, touched, -⟩ := done.concludes
  obtain ⟨⟨first, dispatch, emits⟩, fits⟩ :=
    sourced.emits_of_leads known (stirred.touched.trans touched)
  obtain ⟨completed_eq, notices_eq⟩ := Prod.mk.inj done.output_eq
  refine ⟨contextOf same_round same_phase, conclusion, rfl, conclusion_eq, completed_eq, notices_eq,
    done.ended, fun unharmed => ?_⟩
  rw [conclusion_eq]
  refine FinishRealtime.handoff_of_coverage ?_ fun index slot => Stream.index_of_output
  intro complete index inside
  exact (emits.tiling unharmed complete).coverage_pos (inside.trans_le fits)

end Node

namespace FinishRealtime

/-- **A batch is handed over whole and once, or not at all.**  Over chunks that are the whole batch
if the graph is complete, in whatever order the sink has emitted them, a transmission hands over the
whole batch exactly if the graph is complete, every real slot can be read and there is room, and
leaves everything as it was otherwise; behind a batch every peer is told once.  In a run of a node,
with whatever others do to the queue, a phase with such a transmitter hands over one batch at most.
Its transmission ends there as it does over all that the sink has emitted, so the same holds of what
it makes of the queue, and of the calls that leave the node. -/
theorem batch_handoff :
    (∀ (notify : Nat → NodeId → Nat → Notice) (context : TransmitContext)
        (completed : BatchQueue CompletedRound) (stream : Stream) (grain expanded : Nat)
        (chunks : List Chunk),
      context.batchSize ≤ expanded → context.message = stream.output →
      (context.outputComplete = true → Chunk.Tiling grain expanded chunks) →
        Handoff notify context completed chunks
          ((transmitter notify).transmit context completed chunks)) ∧
    (∀ (id : NodeId) (config : NodeConfig) (group : CyclicGroup) (node after : Node)
        (steps : List Node.Step),
      Node.create id config group = .ok node → node.Shares steps after →
        Node.Handover steps after) ∧
    ∀ (id : NodeId) (config : NodeConfig) (group : CyclicGroup) (node after : Node)
        (earlier : List Node.Step) (step : Node.Step) (running : RunningPhase PhaseRef)
        (round : Round) (phase : Phase) (notify : Nat → NodeId → Nat → Notice),
      Node.create id config group = .ok node → node.Shares (earlier ++ [step]) after →
      (∀ other ∈ earlier, other.event.Assembled) → step.EndsTransmission running round phase →
      phase.transmitter = transmitter notify →
      Node.Steady earlier running.phase phase.graph.stream.output →
        ∃ context conclusion, step.Concludes notify round phase context conclusion := by
  refine ⟨?_, ?_, ?_⟩
  · intro notify context completed stream grain expanded chunks fits reads tiles
    refine handoff_of_coverage (fun complete index inside => ?_) fun index slot read => ?_
    · exact (tiles complete).coverage_pos (inside.trans_le fits)
    · rw [reads] at read
      exact Stream.index_of_output read
  · intro id config group node after steps created shares
    exact shares.handover created
  · intro id config group node after earlier step running round phase notify created shares
      assembled ends transmits steady
    exact shares.concludes created assembled ends transmits steady

/-! ### A sample -/

/-- A notifier that does not reach the first node. -/
def sampleNotify (position : Nat) (peer : NodeId) (_ : Nat) : Notice :=
  if position = 0 then .refused (.peer peer "away") else .delivered

/-- What a transmitter may know at the end of a complete graph: a stream of three slots, and no
more. -/
def sampleContext : TransmitContext where
  roundId := 5
  phase := .realPermute
  topology := { nodes := [⟨"first"⟩, ⟨"second"⟩, ⟨"local"⟩], localIndex := 2 }
  batchSize := 3
  message := (Stream.payload ⟨some (.identities ⟨7, 2⟩ 3)⟩).output
  outputComplete := true

/-- Four slots in two chunks, the later one first.  It straddles the end of three slots. -/
def sampleChunks : List Chunk :=
  [2, 0].filterMap fun start => (Chunk.ofLength start 2).toOption

/-- The life of a phase up to the end of its transmission, which finishes the round. -/
def sampleFinish : List Node.Event :=
  .create 1 [⟨"first"⟩, ⟨"local"⟩] 2
    [{ Node.samplePhase with transmitter := transmitter sampleNotify }]
    ⟨[("input", .own .realDecrypt [.initialized, .active])]⟩ :: Node.sampleLife.tail.take 10

theorem sampleGraph_wired : Node.sampleGraph.Wired := by
  have empty : (Graph.create "sample" Node.sampleGraph.settings (.payload .unlinked)).Wired :=
    .create (show GraphSettings.create 1 1 .zero = .ok Node.sampleGraph.settings from rfl)
  have only := empty.addModule
    (show Graph.addModule _ (.plain "only" .idle) = .ok (0, _) from rfl)
  have entrance := only.setFirst (show Graph.setFirst _ 0 = .ok _ from rfl)
  exact entrance.setLast (show Graph.setLast _ 0 = .ok Node.sampleGraph from rfl)

/-- The phase of that life. -/
def sampleRef : PhaseRef := { round := 0, kind := .realDecrypt }

/-- The graph that is handed in comes from wiring. -/
theorem sampleFinish_assembled : ∀ event ∈ sampleFinish, event.Assembled := by
  refine List.forall_mem_cons.mpr ⟨fun phase member => ?_, ?_⟩
  · obtain rfl := List.mem_singleton.mp member
    exact sampleGraph_wired
  · simp [Node.sampleLife, Node.Event.Assembled]

/-- One round comes in, with one phase. -/
theorem declared_of_sampleFinish {roundId batchSize : Nat} {nodes : List NodeId}
    {declared : List PhaseDeclaration} {responses : ResponseMap}
    (asked : .create roundId nodes batchSize declared responses ∈ sampleFinish ++ [.transmit]) :
    ∀ declaration ∈ declared, declaration.transmitter = transmitter sampleNotify := by
  rcases List.mem_cons.mp asked with created | later
  · injection created with _ _ _ only
    rw [only]
    exact fun declaration member => List.mem_singleton.mp member ▸ rfl
  · simp [Node.sampleLife] at later

/-- What can be computed of the last step of a run: the transmission of that phase ends in it, no
worker has met a fault, and nothing that was read has changed since. -/
def endsWell (earlier : List Node.Step) (before after : Node) : Bool :=
  (before.queue.running.any fun running =>
    decide (running.phase = sampleRef) && running.result.isNone) &&
  (after.queue.running.any fun running => running.result.isSome) &&
  (after.phaseAt? sampleRef).any fun found => decide (found.2.graph.Unharmed ∧
    Node.Steady earlier sampleRef found.2.graph.stream.output)

/-- Such a step ends a transmission. -/
theorem endsTransmission_of_endsWell {earlier : List Node.Step} {before after : Node}
    {event : Node.Event} (well : endsWell earlier before after = true) :
    ∃ running round phase, running.phase = sampleRef ∧
      Node.Step.EndsTransmission ⟨before, event, after⟩ running round phase ∧
      phase.graph.Unharmed ∧ Node.Steady earlier sampleRef phase.graph.stream.output := by
  rw [endsWell, Bool.and_eq_true, Bool.and_eq_true] at well
  obtain ⟨⟨runs, ended⟩, found⟩ := well
  obtain ⟨running, runs, here⟩ := (Option.any_eq_true _ _).mp runs
  obtain ⟨later, later_runs, ended⟩ := (Option.any_eq_true _ _).mp ended
  obtain ⟨⟨round, phase⟩, there, holds⟩ := (Option.any_eq_true _ _).mp found
  rw [Bool.and_eq_true, decide_eq_true_eq] at here
  obtain ⟨here, unended⟩ := here
  obtain ⟨unharmed, steady⟩ := of_decide_eq_true holds
  exact ⟨running, round, phase, here, ⟨runs, Option.isNone_iff_eq_none.mp unended, here ▸ there,
    Or.inr ⟨later, later_runs, ended⟩⟩, unharmed, steady⟩

theorem batch_handoff_sample :
    (Handoff sampleNotify sampleContext (.create 1) sampleChunks
        ((transmitter sampleNotify).transmit sampleContext (.create 1) sampleChunks) ∧
      ((transmitter sampleNotify).transmit sampleContext (.create 1)
        sampleChunks).completed.items.map (fun batch => batch.slots.map Slot.index) =
          [[0, 1, 2]] ∧
      ((transmitter sampleNotify).transmit sampleContext (.create 1)
        sampleChunks).notified.map (fun call => (call.position, call.peer)) =
          [(0, ⟨"first"⟩), (1, ⟨"second"⟩)]) ∧
    ∃ node before after round phase, Node.create ⟨"local"⟩ .minimal ⟨7, 2⟩ = .ok node ∧
      node.play sampleFinish = some before ∧ before.act .transmit = some after ∧
      Node.Handover (node.steps (sampleFinish ++ [.transmit])) after ∧
      (Node.handed (node.steps (sampleFinish ++ [.transmit])) sampleRef).map
        CompletedRound.roundId = [1] ∧
      (∃ context conclusion, Node.Step.Concludes ⟨before, .transmit, after⟩ sampleNotify round
        phase context conclusion) ∧
      phase.graph.Unharmed ∧
      after.notices.map (fun call => (call.1, call.2.position, call.2.peer)) =
        [(1, 0, ⟨"first"⟩)] := by
  constructor
  · refine ⟨?_, by decide +kernel, by decide +kernel⟩
    exact batch_handoff.1 sampleNotify sampleContext (.create 1)
      (.payload ⟨some (.identities ⟨7, 2⟩ 3)⟩) 2 4 sampleChunks (by decide) rfl
      fun _ => ⟨by decide, by decide, by decide⟩
  · have runs : Node.samplePlays (sampleFinish ++ [.transmit]) (fun node after => decide
        ((Node.handed (node.steps (sampleFinish ++ [.transmit])) sampleRef).map
            CompletedRound.roundId = [1] ∧
          after.notices.map (fun call => (call.1, call.2.position, call.2.peer)) =
            [(1, 0, ⟨"first"⟩)] ∧
          (node.play sampleFinish).any (endsWell (node.steps sampleFinish) · after) =
            true)) = true := by
      decide +kernel
    obtain ⟨node, after, created, played, holds⟩ := Node.exists_of_samplePlays runs
    obtain ⟨given, told, well⟩ := of_decide_eq_true holds
    have shares := Node.Shares.of_play played
    obtain ⟨before, reached, acted⟩ := Node.play_concat played
    rw [reached, Option.any_some] at well
    obtain ⟨running, round, phase, here, ends, unharmed, steady⟩ :=
      endsTransmission_of_endsWell well
    have assembled : ∀ other ∈ node.steps sampleFinish, other.event.Assembled := by
      intro other member
      exact sampleFinish_assembled other.event (Node.event_mem_of_mem_steps member)
    have transmits : phase.transmitter = transmitter sampleNotify := by
      obtain ⟨step, member, roundId, nodes, batchSize, declared, responses, event_eq,
        declaration, known, same⟩ :=
        shares.exists_declared created (Node.phase?_of_phaseAt? ends.there)
      have asked := Node.event_mem_of_mem_steps member
      rw [event_eq] at asked
      rw [same, declared_of_sampleFinish asked declaration known]
    refine ⟨node, before, after, round, phase, created, reached, acted,
      batch_handoff.2.1 _ _ _ node after _ created shares, given, ?_, unharmed, told⟩
    rw [Node.steps_concat reached acted] at shares
    exact batch_handoff.2.2 _ _ _ node after _ ⟨before, .transmit, after⟩ running round phase
      sampleNotify created shares assembled ends transmits (here ▸ steady)

end FinishRealtime

end Mixnet
