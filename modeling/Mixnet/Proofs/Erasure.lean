import Mixnet.Proofs.ExactlyOnce
import Mixnet.Proofs.Upkeep

/-!
# Dropped rounds stay erased

A round that is dropped leaves the registry, its graphs are told to stop one after the other, and
each is waited for.  Then its secrets are overwritten.  Phases of it may still wait in the resource
queue, and workers may still act on what they have in hand.  This file says that the secrets stay
overwritten, and that no kernel is called any more, whatever happens later, if every kill was
answered and every graph that was complete by then feeds its last module with all it has.

The condition is needed.  The kill of a complete graph is answered at once, without stopping
anybody, and the module at the end of a side branch may not have begun.

## Main definitions

* `Node.Closing`: how a round is closed, whatever else happens meanwhile
* `RoundBuffer.Erased`: a buffer without secrets

## Main statements

* `RoundBuffer.erased_erase`: what has been erased is erased
* `Node.Closing.status`: what the answered kills of a round are worth
* `Node.Erased.act`: no event brings a secret back
* `Node.dropped_round_erased`: the law of dropped rounds
* `Node.dropped_round_written`: a dropped round that is written to
-/

namespace Mixnet

/-! ## Buffers -/

/-- A buffer without secrets: every value is the identity, and the permutation moves nothing. -/
structure RoundBuffer.Erased (buffer : RoundBuffer) : Prop where
  vectors : ∀ name,
    buffer.vector name = GroupArray.filled buffer.expandedSize CyclicGroup.identity
  z_eq : buffer.z = CyclicGroup.identity
  publicKey_eq : buffer.publicKey = CyclicGroup.identity
  permutation_eq : buffer.permutation = Array.range buffer.expandedSize

/-- **What has been erased is erased.** -/
theorem RoundBuffer.erased_erase (buffer : RoundBuffer) : buffer.erase.Erased := by
  refine ⟨?_, rfl, rfl, rfl⟩
  rintro ⟨family, letter⟩
  cases family <;> cases letter <;> rfl

/-- A graph without a module that can still begin has no worker inside a call. -/
theorem Graph.Silent.isCalling_eq_false {graph : Graph} (silent : graph.Silent)
    (arrived : graph.Arrived) (position : Nat) : graph.isCalling position = false := by
  obtain ⟨building, valid, reached⟩ := arrived
  rw [isCalling, reached.dispatch_eq, Option.any_some]
  rw [← Bool.not_eq_true]
  intro calling
  obtain ⟨worker, here, inside⟩ := (Option.any_eq_true _ _).mp calling
  have wired : worker.module < graph.wiring.size := by
    rw [reached.wiring_eq, ← building.sink_eq, ← reached.sound.accounted.sink_eq]
    exact (reached.sound.staffed position worker here).1
  split at inside
  case h_1 chunk rest calls =>
    exact (reached.outside building valid (silent worker.module wired) here).1 calls
  case h_2 => cases inside

namespace Node

variable {node before closed after next : Node} {position : Nat} {round : Round} {event : Event}
  {asked answered : List PhaseKind}

/-! ## Closing a round -/

/-- How the round at a position is closed: the graphs of the kinds in `asked` have been told to
stop, and the kills of those in `answered` have been answered.  Anything else may happen
meanwhile. -/
inductive Closing (position : Nat) (node : Node) : List PhaseKind → List PhaseKind → Node → Prop
  /-- Nothing has been done yet. -/
  | begun : Closing position node [] [] node
  /-- Something else happens. -/
  | meanwhile {asked answered : List PhaseKind} {before after : Node} {event : Event}
      (closing : Closing position node asked answered before)
      (acted : before.act event = some after) : Closing position node asked answered after
  /-- A round leaves the registry. -/
  | removed {asked answered : List PhaseKind} {before : Node} (roundId : Nat)
      (closing : Closing position node asked answered before) :
      Closing position node asked answered
        { before with registry := (before.registry.remove roundId).2 }
  /-- One of its graphs is told to stop. -/
  | asked {asked answered : List PhaseKind} {before : Node} {kind : PhaseKind} {round : Round}
      {phase : Phase} (closing : Closing position node asked answered before)
      (there : before.phaseAt? { round := position, kind } = some (round, phase)) :
      Closing position node (kind :: asked) answered
        (before.setPhase { round := position, kind } { phase with graph := phase.graph.kill })
  /-- It is dropped in one step, by which all its graphs are told to stop. -/
  | dropped {asked answered : List PhaseKind} {before after : Node} {roundId : Nat} {round : Round}
      (closing : Closing position node asked answered before)
      (live : before.roundAt? roundId = some (position, round))
      (acted : before.act (.drop roundId) = some after) :
      Closing position node (round.phases.map Phase.kind ++ asked) answered after
  /-- A kill is answered. -/
  | answered {asked answered : List PhaseKind} {before : Node} {kind : PhaseKind} {phase : Phase}
      (closing : Closing position node asked answered before) (known : kind ∈ asked)
      (there : before.phase? { round := position, kind } = some phase)
      (still : phase.graph.isStopped = true) :
      Closing position node asked (kind :: answered) before

/-- The round at a position is still there, its graphs have gone on, and no phase has joined it. -/
structure Onward (position : Nat) (before after : Node) : Prop where
  there : (before.rounds[position]?).isSome = true → (after.rounds[position]?).isSome = true
  former : ∀ kind phase, after.phase? { round := position, kind } = some phase →
    ∃ former, before.phase? { round := position, kind } = some former ∧
      former.Leads Graph.Touched phase

namespace Onward

theorem of_leads (leads : before.Leads Graph.Touched after) : Onward position before after := by
  refine ⟨fun there => ?_, fun kind phase found => (Continues.of_leads leads).exists_former found⟩
  have rel := leads position
  generalize before.rounds[position]? = former at rel there
  generalize after.rounds[position]? = later at rel ⊢
  cases rel with
  | none => exact there
  | some => rfl

/-- Every event leaves a round that is there, and lets its graphs go on. -/
theorem of_act (there : (before.rounds[position]?).isSome = true)
    (acted : before.act event = some after) : Onward position before after := by
  obtain ⟨round, there⟩ := Option.isSome_iff_exists.mp there
  have upkeep := upkeep_of_turn (turn_of_act acted)
  obtain ⟨later, found, -⟩ := upkeep.buffer there
  refine ⟨fun _ => by rw [found]; rfl, fun kind phase known => ?_⟩
  rcases upkeep.continues with
    continues | ⟨_, _, _, _, _, _, opened, -, made, pushed⟩
  · exact continues.exists_former known
  · refine ⟨phase, ?_, .refl phase⟩
    rw [phase?_eq] at known ⊢
    rwa [getElem?_of_push pushed there, ← there] at known

end Onward

/-- Where a round stands while it is being closed. -/
structure Status (position : Nat) (asked answered : List PhaseKind) (node : Node) : Prop where
  there : (node.rounds[position]?).isSome = true
  graphs : ∀ kind phase, node.phase? { round := position, kind } = some phase →
    phase.graph.Arrived ∧ (kind ∈ asked → phase.graph.Stopping) ∧
      (kind ∈ answered → phase.graph.Stopped)

/-- Kills that have been answered stay answered. -/
theorem Status.onward (status : Status position asked answered before)
    (onward : Onward position before after) : Status position asked answered after := by
  refine ⟨onward.there status.there, ?_⟩
  intro kind phase found
  obtain ⟨former, known, leads⟩ := onward.former kind phase found
  have becomes := leads.becomes
  obtain ⟨arrived, stopping, stopped⟩ := status.graphs kind former known
  exact ⟨becomes.arrived arrived, fun member => becomes.stopping arrived (stopping member),
    fun member => becomes.stopped arrived (stopped member)⟩

/-- Telling a graph to stop brings it to its last stage, unless it is complete. -/
theorem Status.ask {kind : PhaseKind} {phase : Phase}
    (status : Status position asked answered before)
    (there : before.phaseAt? { round := position, kind } = some (round, phase)) :
    Status position (kind :: asked) answered
      (before.setPhase { round := position, kind } { phase with graph := phase.graph.kill }) := by
  have kind_eq : phase.kind = kind := kind_of_phaseAt? there
  have killed : before.Leads Graph.Touched (before.setPhase { round := position, kind }
      { phase with graph := phase.graph.kill }) :=
    .setPhase (phase?_of_phaseAt? there) kind_eq (Phase.Leads.kill phase).touched
  have onward := status.onward (.of_leads killed)
  refine ⟨onward.there, fun other later known => ?_⟩
  obtain ⟨came, stopping, stopped⟩ := onward.graphs other later known
  refine ⟨came, fun member => ?_, stopped⟩
  rcases List.mem_cons.mp member with rfl | earlier
  · rw [phase?_setPhase there { phase with graph := phase.graph.kill } kind_eq,
      Function.update_self] at known
    injection known with same
    subst same
    exact (status.graphs other phase (phase?_of_phaseAt? there)).1.stopping_kill
  · exact stopping earlier

/-- Dropping a round tells all its graphs to stop. -/
theorem Status.drop {roundId : Nat} (status : Status position asked answered before)
    (live : before.roundAt? roundId = some (position, round))
    (acted : before.act (.drop roundId) = some after) :
    Status position (round.phases.map Phase.kind ++ asked) answered after := by
  have onward := status.onward (.of_act status.there acted)
  refine ⟨onward.there, fun kind later known => ?_⟩
  obtain ⟨came, -, stopped⟩ := onward.graphs kind later known
  refine ⟨came, fun _ => ?_, stopped⟩
  rw [act, dropRound, live] at acted
  injection acted with same
  subst same
  have here : before.rounds[position]? = some round := roundAt?_eq_some live
  have removed : ({ before with
      registry := (before.registry.remove roundId).2 } : Node).rounds[position]? =
        some round := here
  rw [phase?_setRound removed, if_pos rfl, Round.phase?_kill] at known
  obtain ⟨former, found, rfl⟩ := Option.map_eq_some_iff.mp known
  have former_found : before.phase? { round := position, kind } = some former := by
    rw [phase?_eq, here, Option.bind_some, found]
  exact (status.graphs kind former former_found).1.stopping_kill

/-- A kill that is answered has stopped its graph. -/
theorem Status.answer {kind : PhaseKind} {phase : Phase}
    (status : Status position asked answered node) (known : kind ∈ asked)
    (there : node.phase? { round := position, kind } = some phase)
    (still : phase.graph.isStopped = true) : Status position asked (kind :: answered) node := by
  refine ⟨status.there, fun other later found => ?_⟩
  obtain ⟨came, stopping, stopped⟩ := status.graphs other later found
  refine ⟨came, stopping, fun member => ?_⟩
  rcases List.mem_cons.mp member with rfl | earlier
  · obtain rfl := Option.some.inj (there.symm.trans found)
    exact (stopping known).stopped still
  · exact stopped earlier

/-- **What the answered kills of a round are worth**: their graphs are complete, or their workers
have gone for good. -/
theorem Closing.status (closing : Closing position node asked answered closed)
    (there : (node.rounds[position]?).isSome = true)
    (arrived : ∀ kind phase, node.phase? { round := position, kind } = some phase →
      phase.graph.Arrived) : Status position asked answered closed := by
  induction closing with
  | begun =>
      refine ⟨there, fun kind phase found => ⟨arrived kind phase found, ?_, ?_⟩⟩ <;>
        exact fun member => by cases member
  | meanwhile closing acted ih => exact ih.onward (.of_act ih.there acted)
  | removed roundId closing ih => exact ih.onward (.of_leads (.of_rounds_eq rfl))
  | asked closing found ih => exact ih.ask found
  | dropped closing live acted ih => exact ih.drop live acted
  | answered closing known found still ih => exact ih.answer known found still

/-! ## After the erasure -/

/-- A round without secrets, of whose graphs no module can still begin. -/
structure Erased (position : Nat) (node : Node) : Prop where
  buffer : ∃ round, node.rounds[position]? = some round ∧ round.buffer.Erased
  graphs : ∀ kind phase, node.phase? { round := position, kind } = some phase →
    phase.graph.Arrived ∧ phase.graph.Silent

/-- **Every event leaves such a round as it is.** -/
theorem Erased.act (erased : Erased position before) (acted : before.act event = some after) :
    Erased position after := by
  obtain ⟨⟨round, there, clean⟩, graphs⟩ := erased
  have onward : Onward position before after :=
    .of_act (by rw [there]; rfl) acted
  refine ⟨?_, fun kind phase found => ?_⟩
  · obtain ⟨later, found, same | again | ⟨kind, phase, worker, known, inside⟩⟩ :=
      (upkeep_of_turn (turn_of_act acted)).buffer there
    · exact ⟨later, found, same ▸ clean⟩
    · exact ⟨later, found, again ▸ round.buffer.erased_erase⟩
    · -- Nobody is inside a kernel, so nobody writes.
      obtain ⟨arrived, silent⟩ := graphs kind phase known
      rw [silent.isCalling_eq_false arrived] at inside
      cases inside
  · obtain ⟨former, known, leads⟩ := onward.former kind phase found
    obtain ⟨arrived, silent⟩ := graphs kind former known
    exact ⟨leads.becomes.arrived arrived, leads.becomes.silent arrived silent⟩

section Dropped

variable {id : NodeId} {config : NodeConfig} {group : CyclicGroup} {earlier later : List Event}
  {erased : Node}

/-- Overwriting the secrets of a round that is there. -/
theorem act_erase (there : (closed.rounds[position]?).isSome = true)
    (erasing : closed.act (.erase position) = some erased) : ∃ round,
      closed.rounds[position]? = some round ∧ erased = closed.setRound position round.erase := by
  obtain ⟨round, there⟩ := Option.isSome_iff_exists.mp there
  rw [act] at erasing
  split at erasing
  case isTrue => cases erasing
  case isFalse =>
    injection erasing with same
    rw [eraseRound, there] at same
    exact ⟨round, there, same.symm⟩

/-- **Dropped rounds stay erased.**  A round of any run of a node is closed, each kill is answered,
and the secrets are overwritten, whatever else happens meanwhile.  Whatever happens later, no kernel
is called any more by the graphs of the round: not in a graph whose work was ended, and not by a
module of a complete graph from which the last module can be reached.  If that is so for every
module of the complete graphs, the secrets stay overwritten: all vectors, the shared value and the
key hold identities, and the permutation moves nothing. -/
theorem dropped_round_erased (created : create id config group = .ok node)
    (wired : ∀ event ∈ earlier, event.Wired) (played : node.play earlier = some before)
    (there : before.rounds[position]? = some round)
    (closing : Closing position before asked answered closed)
    (all : ∀ kind phase, closed.phase? { round := position, kind } = some phase → kind ∈ answered)
    (erasing : closed.act (.erase position) = some erased)
    (continued : erased.play later = some after) :
    (∀ kind phase, closed.phase? { round := position, kind } = some phase →
      ∃ last, after.phase? { round := position, kind } = some last ∧
        ∀ module, (phase.graph.isComplete = true → phase.graph.FeedsEnd module) →
          last.graph.callsOf module = phase.graph.callsOf module) ∧
    ((∀ kind phase, closed.phase? { round := position, kind } = some phase →
        phase.graph.isComplete = true →
          ∀ module < phase.graph.wiring.size, phase.graph.FeedsEnd module) →
      ∃ last, after.rounds[position]? = some last ∧ last.buffer.Erased) := by
  have arrived := arrived_of_play created wired played
  have status := closing.status (by rw [there]; rfl) fun kind phase => arrived _ phase
  obtain ⟨last, last_there, rfl⟩ := act_erase status.there erasing
  have erases : closed.Continues Graph.Touched (closed.setRound position last.erase) :=
    .erase last_there
  constructor
  · intro kind phase found
    obtain ⟨came, -, stopped⟩ := status.graphs kind phase found
    obtain ⟨between, erased_found, first⟩ := erases.exists_later found
    obtain ⟨final, final_found, then_becomes⟩ := becomes_of_play continued erased_found
    refine ⟨final, final_found, fun module feeds => ?_⟩
    have rests := (stopped (all kind phase found)).rests feeds
    have becomes : phase.graph.Becomes final.graph := first.becomes.trans then_becomes
    exact (becomes.rests came rests).2
  · intro converge
    have start : Erased position (closed.setRound position last.erase) := by
      refine ⟨⟨last.erase, ?_, last.buffer.erased_erase⟩, fun kind phase found => ?_⟩
      · rw [getElem?_setRound last_there, if_pos rfl]
      · obtain ⟨former, known, leads⟩ := erases.exists_former found
        obtain ⟨came, -, stopped⟩ := status.graphs kind former known
        have silent : former.graph.Silent := fun module known_module =>
          (stopped (all kind former known)).rests fun complete =>
            converge kind former known complete module known_module
        exact ⟨leads.becomes.arrived came, leads.becomes.silent came silent⟩
    have stays : Erased position after :=
      play_induction start (fun _ _ _ erased acted => erased.act acted) continued
    exact stays.buffer

end Dropped

/-! ### Samples -/

/-- While a round is closed, anything may happen. -/
theorem Closing.play (closing : Closing position node asked answered before) {events : List Event}
    (played : before.play events = some after) : Closing position node asked answered after :=
  play_induction closing (fun _ _ _ closing acted => closing.meanwhile acted) played

/-- A round with one phase is created, gets the slots of its batch, and runs. -/
def startedRound (graph : Graph) : List Event :=
  [.create 1 [⟨"local"⟩] 2 [{ samplePhase with graph }]
      ⟨[("input", .own .realDecrypt [.initialized, .active])]⟩,
    .deliver 1 "input" (.slots [⟨0, [3], [5]⟩, ⟨1, [2], [3]⟩]), .start]

/-- Steps of the workers of that phase. -/
def workSteps (steps : List Dispatch.Step) : List Event := steps.map (.work ⟨0, .realDecrypt⟩)

/-- A write to a secret of that round. -/
def scribble (worker : Nat) : Event := .write ⟨0, .realDecrypt⟩ worker (.vector ⟨.direct, .r⟩ 0 5)

/-- Whether a small node plays some events, drops the round with its only phase, plays others until
the kill is answered, overwrites the secrets and plays the last ones, and a check of the phase at
the end of the kill and of the node in the end succeeds. -/
def sampleDrops (earlier meanwhile later : List Event) (check : Phase → Node → Bool) : Bool :=
  samplePlays earlier fun _ before =>
    (before.roundAt? 1).any fun live =>
      decide (live.1 = 0 ∧ live.2.phases.map Phase.kind = [.realDecrypt]) &&
        (before.play (.drop 1 :: meanwhile)).any fun closed =>
          (closed.phaseAt? ⟨0, .realDecrypt⟩).any fun here =>
            decide (here.1.phases.map Phase.kind = [.realDecrypt]) && here.2.graph.isStopped &&
              (closed.play (.erase 0 :: later)).any fun after => check here.2 after

theorem exists_of_sampleDrops {earlier meanwhile later : List Event} {check : Phase → Node → Bool}
    (drops : sampleDrops earlier meanwhile later check = true) :
    ∃ node before closed erased after round phase, create ⟨"local"⟩ .minimal ⟨7, 2⟩ = .ok node ∧
      node.play earlier = some before ∧ before.rounds[0]? = some round ∧
      Closing 0 before [.realDecrypt] [.realDecrypt] closed ∧
      (∀ kind other, closed.phase? ⟨0, kind⟩ = some other → kind ∈ [PhaseKind.realDecrypt]) ∧
      closed.phase? ⟨0, .realDecrypt⟩ = some phase ∧ closed.act (.erase 0) = some erased ∧
      erased.play later = some after ∧ check phase after = true := by
  obtain ⟨node, before, created, played, drops⟩ := exists_of_samplePlays drops
  obtain ⟨⟨position, round⟩, live, drops⟩ := (Option.any_eq_true _ _).mp drops
  rw [Bool.and_eq_true, decide_eq_true_eq] at drops
  obtain ⟨⟨rfl, kinds_eq⟩, drops⟩ := drops
  obtain ⟨closed, closes, drops⟩ := (Option.any_eq_true _ _).mp drops
  obtain ⟨dropped, dropping, meantime⟩ := Option.bind_eq_some_iff.mp closes
  obtain ⟨⟨last, phase⟩, here, drops⟩ := (Option.any_eq_true _ _).mp drops
  rw [Bool.and_eq_true, Bool.and_eq_true, decide_eq_true_eq] at drops
  obtain ⟨⟨last_kinds, still⟩, drops⟩ := drops
  obtain ⟨after, ends, checked⟩ := (Option.any_eq_true _ _).mp drops
  obtain ⟨erased, erasing, continued⟩ := Option.bind_eq_some_iff.mp ends
  have start : Closing 0 before [] [] before := .begun
  have asked := start.dropped live dropping
  rw [kinds_eq] at asked
  have found := phase?_of_phaseAt? here
  refine ⟨node, before, closed, erased, after, round, phase, created, played,
    roundAt?_eq_some live, (asked.play meantime).answered List.mem_cons_self found still, ?_, found,
    erasing, continued, checked⟩
  -- The round has only that phase.
  intro kind other known
  rw [phase?_eq, (phaseAt?_eq_some.mp here).1, Option.bind_some] at known
  rw [← last_kinds, List.mem_map]
  exact ⟨other, Round.mem_of_phase? known, Round.kind_of_phase? known⟩

/-- The kernel of a worker is at work when the round is dropped. -/
def droppedAtWork : List Event := startedRound Graph.sample ++ workSteps [.take 0, .enter 0]

theorem wired_droppedAtWork : ∀ event ∈ droppedAtWork, event.Wired := by
  simp [droppedAtWork, startedRound, workSteps, Event.Wired, Graph.sample_wired, Graph.sample_few]

/-- The kernel writes before it returns, and the workers leave. -/
def leaving : List Event :=
  scribble 0 :: workSteps [.leave 0 (.ok ()), .proceed 0, .depart 0, .depart 1]

/-- A round is dropped while a kernel is at work.  When the workers have gone its secrets are
overwritten, and the run of its phase comes to an end. -/
theorem dropped_round_erased_sample : ∃ node before closed erased after phase last round,
    create ⟨"local"⟩ .minimal ⟨7, 2⟩ = .ok node ∧ node.play droppedAtWork = some before ∧
      Closing 0 before [.realDecrypt] [.realDecrypt] closed ∧
      closed.phase? ⟨0, .realDecrypt⟩ = some phase ∧ closed.act (.erase 0) = some erased ∧
      erased.play [.transmit, .finish] = some after ∧
      after.phase? ⟨0, .realDecrypt⟩ = some last ∧
      (∀ module, last.graph.callsOf module = phase.graph.callsOf module) ∧
      after.rounds[0]? = some round ∧ round.buffer.Erased := by
  have runs : sampleDrops droppedAtWork leaving [.transmit, .finish]
      (fun phase _ => !phase.graph.isComplete) = true := by
    decide +kernel
  obtain ⟨node, before, closed, erased, after, round, phase, created, played, there, closing, all,
    found, erasing, continued, incomplete⟩ := exists_of_sampleDrops runs
  rw [Bool.not_eq_true'] at incomplete
  obtain ⟨silent, erases⟩ :=
    dropped_round_erased created wired_droppedAtWork played there closing all erasing continued
  obtain ⟨last, last_found, calls_eq⟩ := silent _ phase found
  obtain ⟨final, final_there, clean⟩ := erases fun kind other known complete => by
    obtain rfl := List.mem_singleton.mp (all kind other known)
    obtain rfl := Option.some.inj (found.symm.trans known)
    rw [incomplete] at complete
    cases complete
  refine ⟨node, before, closed, erased, after, phase, last, final, created, played, closing, found,
    erasing, continued, last_found, fun module => calls_eq module fun complete => ?_, final_there,
    clean⟩
  rw [incomplete] at complete
  cases complete

/-- The last module has returned, and a worker on the side has just taken its assignment. -/
def droppedComplete : List Event :=
  startedRound Graph.forked ++
    workSteps [.take 0, .enter 0, .leave 0 (.ok ()), .proceed 0, .proceed 0, .proceed 0, .take 1,
      .enter 1, .leave 1 (.ok ()), .proceed 1, .proceed 1, .take 2]

/-- **A dropped round that is written to.**  Its graph is complete, so that the kill is answered at
once.  After its secrets have been overwritten the module on the side begins, and writes to them. -/
theorem dropped_round_written : Graph.forked.Wired ∧
    ∃ node before closed erased after phase last round,
      create ⟨"local"⟩ .minimal ⟨7, 2⟩ = .ok node ∧ node.play droppedComplete = some before ∧
      Closing 0 before [.realDecrypt] [.realDecrypt] closed ∧
      (∀ kind other, closed.phase? ⟨0, kind⟩ = some other → kind ∈ [PhaseKind.realDecrypt]) ∧
      closed.phase? ⟨0, .realDecrypt⟩ = some phase ∧ closed.act (.erase 0) = some erased ∧
      erased.play (workSteps [.enter 2] ++ [scribble 2]) = some after ∧
      after.phase? ⟨0, .realDecrypt⟩ = some last ∧
      phase.graph.callsOf 2 = [] ∧ last.graph.callsOf 2 ≠ [] ∧
      after.rounds[0]? = some round ∧ ¬ round.buffer.Erased := by
  have runs : sampleDrops droppedComplete [] (workSteps [.enter 2] ++ [scribble 2])
      (fun phase after => (after.phaseAt? ⟨0, .realDecrypt⟩).any fun here =>
        decide (phase.graph.callsOf 2 = [] ∧ here.2.graph.callsOf 2 ≠ [] ∧
          here.1.buffer.vector ⟨.direct, .r⟩ ≠
            GroupArray.filled here.1.buffer.expandedSize CyclicGroup.identity)) = true := by
    decide +kernel
  obtain ⟨node, before, closed, erased, after, -, phase, created, played, -, closing, all, found,
    erasing, continued, written⟩ := exists_of_sampleDrops runs
  obtain ⟨⟨round, last⟩, here, written⟩ := (Option.any_eq_true _ _).mp written
  obtain ⟨silent, called, differs⟩ := of_decide_eq_true written
  exact ⟨Graph.forked_wired, node, before, closed, erased, after, phase, last, round, created,
    played, closing, all, found, erasing, continued, phase?_of_phaseAt? here, silent, called,
    (phaseAt?_eq_some.mp here).1, fun clean => differs (clean.vectors _)⟩

end Node

end Mixnet
