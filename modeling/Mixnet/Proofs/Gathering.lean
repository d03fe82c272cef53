import Mixnet.FinishRealtime
import Mixnet.Proofs.Coverage
import Mixnet.Stream

/-!
# Gathering a batch

The last transmitter of a round reads the real slots of what the sink emits, in whatever order the
chunks come.  If the graph is complete these are all slots of the batch, and the batch it gathers
has each of them in its place.  It then hands the batch over and tells the other nodes, or does
neither.

## Main definitions

* `Transmitter.indices`: the indices that a transmitter reads of some chunks
* `Conclusion.Pushes`: a conclusion that hands a batch over
* `FinishRealtime.Told`: what telling the peers comes to
* `FinishRealtime.Handoff`: the law of a handoff

## Main statements

* `Transmission.readAll_eq`: chunks are read as if they were one list of indices
* `Transmitter.transmit_eq`: so a whole transmission reads one list of indices
* `FinishRealtime.getElem?_gather`: a slot that was read stands at its index
* `FinishRealtime.told_tell`: every peer is told once, in the order of the ring
* `FinishRealtime.handoff_of_coverage`: the law holds where complete graphs cover the batch
-/

namespace Mixnet

/-! ## Reading -/

/-- The indices that a transmitter reads of some chunks, if each of them can be read. -/
def Transmitter.indices (transmitter : Transmitter) (batchSize : Nat) (chunks : List Chunk) :
    List Nat :=
  match transmitter.reads with
  | none => []
  | some wanted => chunks.flatMap (wanted batchSize)

theorem Transmitter.indices_nil (transmitter : Transmitter) (batchSize : Nat) :
    transmitter.indices batchSize [] = [] := by
  rw [indices]
  cases transmitter.reads <;> rfl

theorem Transmitter.indices_append (transmitter : Transmitter) (batchSize : Nat)
    (earlier later : List Chunk) : transmitter.indices batchSize (earlier ++ later) =
      transmitter.indices batchSize earlier ++ transmitter.indices batchSize later := by
  rw [indices, indices, indices]
  cases transmitter.reads with
  | none => rfl
  | some wanted => exact List.flatMap_append

namespace Transmission

variable {message : Nat → Except StreamError Slot} {indices : List Nat}

/-- Only the slots that are wanted matter. -/
theorem readSlots_congr {other : Nat → Except StreamError Slot}
    (alike : ∀ index ∈ indices, other index = message index) (transmission : Transmission) :
    readSlots other transmission indices = readSlots message transmission indices := by
  induction indices generalizing transmission with
  | nil => rfl
  | cons index rest ih =>
      rw [readSlots, readSlots, alike index List.mem_cons_self]
      cases message index with
      | error error => rfl
      | ok slot => exact ih (fun later member => alike later (List.mem_cons_of_mem _ member)) _

/-- Slots that can all be read go behind those read before. -/
theorem readSlots_of_readable {slotAt : Nat → Slot}
    (readable : ∀ index ∈ indices, message index = .ok (slotAt index))
    (transmission : Transmission) :
    readSlots message transmission indices =
      { transmission with slots := transmission.slots ++ indices.map slotAt } := by
  induction indices generalizing transmission with
  | nil => rw [readSlots, List.map_nil, List.append_nil]
  | cons index rest ih =>
      rw [readSlots, readable index List.mem_cons_self]
      dsimp only
      rw [ih fun later member => readable later (List.mem_cons_of_mem _ member)]
      simp

/-- A slot that cannot be read ends the transmission with an error. -/
theorem isSome_error_readSlots {index : Nat} {error : StreamError} (member : index ∈ indices)
    (unreadable : message index = .error error) (transmission : Transmission) :
    (readSlots message transmission indices).error.isSome = true := by
  induction indices generalizing transmission with
  | nil => cases member
  | cons first rest ih =>
      rw [readSlots]
      cases read : message first with
      | error error => rfl
      | ok slot =>
          rcases List.mem_cons.mp member with rfl | member
          · rw [unreadable] at read
            cases read
          · exact ih member _

/-- Two lists are read one after the other, unless the first ends the transmission. -/
theorem readSlots_append (transmission : Transmission) (unspoiled : transmission.error = none)
    (earlier later : List Nat) : readSlots message transmission (earlier ++ later) =
      if (readSlots message transmission earlier).error.isNone then
        readSlots message (readSlots message transmission earlier) later
      else readSlots message transmission earlier := by
  induction earlier generalizing transmission with
  | nil => rw [readSlots, unspoiled]; rfl
  | cons index rest ih =>
      rw [List.cons_append, readSlots, readSlots]
      cases message index with
      | error error => rfl
      | ok slot => exact ih _ unspoiled

variable {transmitter : Transmitter} {context : TransmitContext} {transmission : Transmission}

/-- A transmission that takes no more chunks leaves them. -/
theorem readAll_of_idle (idle : transmission.isReading transmitter = false) (chunks : List Chunk) :
    transmission.readAll transmitter context chunks = (transmission, chunks) := by
  cases chunks with
  | nil => rfl
  | cons chunk rest =>
      rw [readAll, idle]
      rfl

theorem isReading_of_spoiled (spoiled : ¬ transmission.error.isNone = true) :
    transmission.isReading transmitter = false := by
  rw [Bool.not_eq_true] at spoiled
  rw [isReading, spoiled, Bool.and_false]

/-- One chunk is read as a list of indices. -/
theorem read_eq (transmission : Transmission) (chunk : Chunk) :
    transmission.read transmitter context chunk = readSlots context.message transmission
      (transmitter.indices context.batchSize [chunk]) := by
  rw [read, Transmitter.indices]
  cases transmitter.reads with
  | none => rfl
  | some wanted =>
      dsimp only
      rw [List.flatMap_singleton]

/-- **Chunks are read as if they were one list of indices.** -/
theorem readAll_eq (unspoiled : transmission.error = none) (chunks : List Chunk) :
    (transmission.readAll transmitter context chunks).1 =
      readSlots context.message transmission (transmitter.indices context.batchSize chunks) := by
  induction chunks generalizing transmission with
  | nil =>
      rw [Transmitter.indices_nil]
      rfl
  | cons chunk rest ih =>
      rw [← List.singleton_append, transmitter.indices_append, readSlots_append _ unspoiled,
        ← read_eq, List.singleton_append, readAll]
      by_cases takes : transmission.isReading transmitter = true
      · rw [if_pos takes]
        split
        case isTrue still => exact ih (Option.isNone_iff_eq_none.mp still)
        case isFalse spoiled => rw [readAll_of_idle (isReading_of_spoiled spoiled)]
      · -- It reads nothing, because the transmitter does not wait for output.
        have unread : transmitter.reads = none := by
          rw [isReading, unspoiled, Option.isNone_none, Bool.and_true] at takes
          exact Option.not_isSome_iff_eq_none.mp takes
        have nothing (chunks : List Chunk) : transmitter.indices context.batchSize chunks = [] := by
          rw [Transmitter.indices, unread]
        rw [if_neg takes, read_eq, nothing, nothing, readSlots, readSlots, ite_self]

/-- A transmission that goes on reads what it would have read at once. -/
theorem readAll_append (transmitter : Transmitter) (context : TransmitContext)
    (earlier later : List Chunk) :
    ((readSlots context.message .start (transmitter.indices context.batchSize earlier)).readAll
      transmitter context later).1 =
        readSlots context.message .start
          (transmitter.indices context.batchSize (earlier ++ later)) := by
  rw [transmitter.indices_append, readSlots_append _ rfl]
  split
  case isTrue still => exact readAll_eq (Option.isNone_iff_eq_none.mp still) later
  case isFalse spoiled => rw [readAll_of_idle (isReading_of_spoiled spoiled)]

end Transmission

/-- **A whole transmission reads one list of indices**, and ends. -/
theorem Transmitter.transmit_eq (transmitter : Transmitter) (context : TransmitContext)
    (completed : BatchQueue CompletedRound) (chunks : List Chunk) :
    transmitter.transmit context completed chunks =
      (Transmission.readSlots context.message .start
        (transmitter.indices context.batchSize chunks)).conclude transmitter context completed := by
  rw [transmit, Transmission.readAll_eq rfl]

/-- A slot carries the index under which it was read. -/
theorem Stream.index_of_output {stream : Stream} {index : Nat} {slot : Slot}
    (read : stream.output index = .ok slot) : slot.index = index := by
  cases stream with
  | blank name =>
      injection read with same
      rw [← same]
  | payload payloads =>
      rw [output, PayloadStream.output] at read
      cases linked : payloads.linked with
      | error error =>
          rw [linked] at read
          cases read
      | ok cells =>
          rw [linked] at read
          cases checked : cells.checkIndex index with
          | error error =>
              simp [bind, Except.bind, LinkedPayloads.output, checked] at read
          | ok _ =>
              simp only [bind, Except.bind, LinkedPayloads.output, checked, pure, Except.pure,
                Except.ok.injEq] at read
              rw [← read]

/-! ## Telling the peers -/

/-- The failure in a notice, where a dead notifier is blamed on `here`. -/
def Notice.failure? (here : NodeId) : Notice → Option TransportError
  | .delivered => none
  | .refused error => some error
  | .died => some (.peer here "notifier panicked")

namespace FinishRealtime

variable {notify : Nat → NodeId → Nat → Notice} {topology : Topology} {here : NodeId}
  {context : TransmitContext} {completed : BatchQueue CompletedRound} {chunks : List Chunk}
  {slots : List Slot}

/-- What some failures come to. -/
def summary : List TransportError → TransmitResult
  | [] => .returned (.ok ())
  | errors => .returned (.error (.aggregate errors))

/-- What telling the peers comes to: there is one call for each position but the local one, in the
order of the ring; it ends as the notifier has it; and the failures are gathered. -/
structure Told (notify : Nat → NodeId → Nat → Notice) (topology : Topology) (roundId : Nat)
    (conclusion : Conclusion) : Prop where
  each : ∀ position peer,
    (∃ call ∈ conclusion.notified, call.position = position ∧ call.peer = peer) ↔
      topology.nodes[position]? = some peer ∧ position ≠ topology.localIndex
  ascending : (conclusion.notified.map PeerCall.position).Pairwise (· < ·)
  notice_eq : ∀ call ∈ conclusion.notified, call.notice = notify call.position call.peer roundId
  result_eq : ∀ here, topology.nodes[topology.localIndex]? = some here →
    conclusion.result = summary (conclusion.notified.filterMap fun call =>
      call.notice.failure? here)

theorem mem_audience {peer : NodeId} {position : Nat} : (peer, position) ∈ audience topology ↔
    topology.nodes[position]? = some peer ∧ position ≠ topology.localIndex := by
  rw [audience, List.mem_filter, decide_eq_true_eq, List.mem_zipIdx_iff_getElem?]

/-- The peers are told in the order of the ring. -/
theorem pairwise_audience (topology : Topology) :
    ((audience topology).map Prod.snd).Pairwise (· < ·) := by
  have ascending : (topology.nodes.zipIdx.map Prod.snd).Pairwise (· < ·) := by
    rw [List.zipIdx_map_snd]
    exact List.pairwise_lt_range'
  exact ascending.sublist (List.filter_sublist.map _)

/-- A ring with a local node has somebody to blame. -/
theorem failureOf?_eq (there : topology.nodes[topology.localIndex]? = some here) (notice : Notice) :
    failureOf? topology notice = .ok (notice.failure? here) := by
  cases notice with
  | delivered | refused error => rfl
  | died =>
      simp [failureOf?, Topology.localNode, Topology.nodeAt, there, Notice.failure?, Except.map]

/-- **Every peer is told once**, whatever the others answer. -/
theorem told_tell {roundId : Nat} {conclusion : Conclusion}
    (notified_eq : conclusion.notified = tell notify topology roundId)
    (result_eq : conclusion.result = summarize topology conclusion.notified) :
    Told notify topology roundId conclusion := by
  refine ⟨fun position peer => ?_, ?_, ?_, fun here there => ?_⟩
  · rw [notified_eq, ← mem_audience]
    constructor
    · rintro ⟨call, member, rfl, rfl⟩
      obtain ⟨⟨peer, position⟩, known, rfl⟩ := List.mem_map.mp member
      exact known
    · intro known
      exact ⟨_, List.mem_map_of_mem known, rfl, rfl⟩
  · have positions : (conclusion.notified.map PeerCall.position) =
        (audience topology).map Prod.snd := by
      rw [notified_eq, tell, List.map_map]
      rfl
    rw [positions]
    exact pairwise_audience topology
  · rw [notified_eq]
    intro call member
    obtain ⟨⟨peer, position⟩, -, rfl⟩ := List.mem_map.mp member
    rfl
  · have answers : (conclusion.notified.mapM fun call => failureOf? topology call.notice) =
        .ok (conclusion.notified.map fun call => call.notice.failure? here) := by
      simp only [failureOf?_eq there]
      exact List.mapM_pure
    rw [result_eq, summarize, answers]
    dsimp only
    rw [List.filterMap_map]
    show (match conclusion.notified.filterMap fun call => call.notice.failure? here with
      | [] => _
      | errors => _) = _
    rw [summary.eq_def]

/-! ## Handing over -/

/-- Every slot gets a place. -/
theorem length_gather (batchSize : Nat) (slots : List Slot) :
    (gather batchSize slots).length = batchSize := by
  have kept (start : Array Slot) : (slots.foldl (fun batch slot =>
      batch.setIfInBounds slot.index slot) start).size = start.size := by
    induction slots generalizing start with
    | nil => rfl
    | cons slot rest ih => rw [List.foldl_cons, ih, Array.size_setIfInBounds]
  rw [gather, Array.length_toList, kept, Array.size_replicate]

/-- **A slot that was read stands at its index**, if all that was read under the index is that
slot. -/
theorem getElem?_gather {batchSize : Nat} {slot : Slot} (member : slot ∈ slots)
    (alike : ∀ other ∈ slots, other.index = slot.index → other = slot)
    (inside : slot.index < batchSize) : (gather batchSize slots)[slot.index]? = some slot := by
  -- By induction from the end: what was read last under the index stands there.
  induction slots using List.reverseRecOn with
  | nil => cases member
  | append_singleton earlier last ih =>
      have sized := length_gather batchSize earlier
      rw [gather, Array.length_toList] at sized
      rw [gather, List.foldl_append, List.foldl_cons, List.foldl_nil, Array.getElem?_toList]
      by_cases same : last.index = slot.index
      · obtain rfl : last = slot :=
          alike last (List.mem_append_right _ (List.mem_singleton_self _)) same
        rw [Array.getElem?_setIfInBounds_self_of_lt (by omega)]
      · rw [Array.getElem?_setIfInBounds_ne same, ← Array.getElem?_toList]
        rcases List.mem_append.mp member with member | here
        · exact ih member fun other known => alike other (List.mem_append_left _ known)
        · exact absurd (congrArg Slot.index (List.mem_singleton.mp here)).symm same

/-- The conclusion that hands the gathered batch over. -/
def handover (notify : Nat → NodeId → Nat → Notice) (context : TransmitContext)
    (completed : BatchQueue CompletedRound) (slots : List Slot) : Conclusion where
  result := summarize context.topology (tell notify context.topology context.roundId)
  completed := { completed with
    items := completed.items ++
      [{ roundId := context.roundId, slots := gather context.batchSize slots }] }
  delivered := none
  notified := tell notify context.topology context.roundId

/-- A transmission that has read all it wanted, of a complete graph, finds room for its batch. -/
structure Clear (context : TransmitContext) (completed : BatchQueue CompletedRound)
    (transmission : Transmission) : Prop where
  unspoiled : transmission.error = none
  complete : context.outputComplete = true
  roomy : completed.size < completed.capacity

/-- A clear transmission hands its batch over. -/
theorem Clear.conclude_eq {transmission : Transmission}
    (clear : Clear context completed transmission) (notify : Nat → NodeId → Nat → Notice) :
    transmission.conclude (transmitter notify) context completed =
      handover notify context completed transmission.slots := by
  rw [Transmission.conclude, clear.unspoiled]
  show finish notify context completed transmission.slots = _
  rw [finish, if_pos clear.complete]
  dsimp only
  rw [BatchQueue.send, if_pos clear.roomy]
  rfl

/-- **Any other transmission hands nothing over**, ends with an error, and asks the notifier
nothing. -/
theorem conclude_of_not_clear {transmission : Transmission}
    (unclear : ¬ Clear context completed transmission) :
    ∃ error, ∀ notify, transmission.conclude (transmitter notify) context completed =
      .silent completed (.returned (.error error)) := by
  cases unspoiled : transmission.error with
  | some error => exact ⟨.stream error, fun notify => by rw [Transmission.conclude, unspoiled]⟩
  | none =>
      have finishes (notify : Nat → NodeId → Nat → Notice) :
          transmission.conclude (transmitter notify) context completed =
            finish notify context completed transmission.slots := by
        rw [Transmission.conclude, unspoiled]
        rfl
      by_cases complete : context.outputComplete = true
      · have full : ¬ completed.size < completed.capacity :=
          fun roomy => unclear ⟨unspoiled, complete, roomy⟩
        refine ⟨.queue .full, fun notify => ?_⟩
        rw [finishes, finish, if_pos complete]
        dsimp only
        rw [BatchQueue.send, if_neg full]
      · refine ⟨.incomplete context.roundId, fun notify => ?_⟩
        rw [finishes, finish, if_neg complete]

end FinishRealtime

/-! ## The law of a handoff -/

/-- A conclusion that hands a batch over: it goes behind those that wait. -/
def Conclusion.Pushes (conclusion : Conclusion) (completed : BatchQueue CompletedRound)
    (batch : CompletedRound) : Prop :=
  conclusion.completed = { completed with items := completed.items ++ [batch] }

namespace FinishRealtime

variable {notify : Nat → NodeId → Nat → Notice} {context : TransmitContext}
  {completed : BatchQueue CompletedRound} {chunks : List Chunk}

/-- The graph is complete, every real slot can be read, and there is room for the batch. -/
structure Ready (context : TransmitContext) (completed : BatchQueue CompletedRound) : Prop where
  complete : context.outputComplete = true
  readable : ∀ index < context.batchSize, ∃ slot, context.message index = .ok slot
  roomy : completed.size < completed.capacity

/-- **The law of a handoff**, for the end of a transmission over some chunks. -/
structure Handoff (notify : Nat → NodeId → Nat → Notice) (context : TransmitContext)
    (completed : BatchQueue CompletedRound) (chunks : List Chunk) (conclusion : Conclusion) :
    Prop where
  /-- A batch is handed over exactly if everything is ready. -/
  pushes_iff : (∃ batch, conclusion.Pushes completed batch) ↔ Ready context completed
  /-- It has the slots of the round, each in its place. -/
  faithful : ∀ batch, conclusion.Pushes completed batch →
    batch.roundId = context.roundId ∧ batch.slots.length = context.batchSize ∧
      ∀ index < context.batchSize, ∃ slot,
        batch.slots[index]? = some slot ∧ context.message index = .ok slot
  /-- No slot of the padding is read. -/
  unpadded : ∀ message, (∀ index < context.batchSize, message index = context.message index) →
    (transmitter notify).transmit { context with message } completed chunks = conclusion
  /-- Otherwise the queue stays as it is, there is an error, and nobody is told: what the notifier
  would have answered does not matter. -/
  silent : ¬ Ready context completed →
    conclusion.completed = completed ∧ (∃ error, conclusion.result = .returned (.error error)) ∧
      conclusion.notified = [] ∧
      ∀ other, (transmitter other).transmit context completed chunks = conclusion
  /-- Behind a batch everyone else is told. -/
  told : Ready context completed →
    Told notify context.topology context.roundId conclusion

/-- The indices that are read of some chunks. -/
def wanted (batchSize : Nat) (chunks : List Chunk) : List Nat :=
  chunks.flatMap fun chunk => chunk.slots.filter (· < batchSize)

theorem mem_wanted {batchSize index : Nat} : index ∈ wanted batchSize chunks ↔
    index < batchSize ∧ 0 < Chunk.coverage chunks index := by
  have in_slots (chunk : Chunk) : index ∈ chunk.slots ↔ chunk.covers index = true := by
    have ordered := chunk.start_le_stop
    rw [Chunk.slots, List.mem_range'_1, Chunk.covers_iff, Chunk.length]
    omega
  simp only [wanted, List.mem_flatMap, List.mem_filter, decide_eq_true_eq, in_slots,
    Chunk.coverage_pos_iff]
  constructor
  · rintro ⟨chunk, member, covers, inside⟩
    exact ⟨inside, chunk, member, covers⟩
  · rintro ⟨inside, chunk, member, covers⟩
    exact ⟨chunk, member, covers, inside⟩

/-- A transmission reads what it wants, and ends. -/
theorem transmit_eq (notify : Nat → NodeId → Nat → Notice) (context : TransmitContext)
    (completed : BatchQueue CompletedRound) (chunks : List Chunk) :
    (transmitter notify).transmit context completed chunks =
      (Transmission.readSlots context.message .start
        (wanted context.batchSize chunks)).conclude (transmitter notify) context completed :=
  (transmitter notify).transmit_eq context completed chunks

/-- A batch that is handed over is the one that was gathered. -/
theorem pushes_handover {slots : List Slot} {batch : CompletedRound} :
    (handover notify context completed slots).Pushes completed batch ↔
      batch = { roundId := context.roundId, slots := gather context.batchSize slots } := by
  rw [Conclusion.Pushes, handover]
  constructor
  · intro same
    have items := List.append_cancel_left (congrArg BatchQueue.items same)
    exact (List.cons.inj items).1.symm
  · rintro rfl
    rfl

/-- A silent conclusion hands nothing over. -/
theorem not_pushes_silent {result : TransmitResult} {batch : CompletedRound} :
    ¬ (Conclusion.silent completed result).Pushes completed batch := by
  intro same
  have longer := congrArg (fun queue => queue.items.length) same
  simp [Conclusion.silent] at longer

/-- If everything is ready, what is wanted is read. -/
theorem Ready.reads (ready : Ready context completed) (chunks : List Chunk) :
    ∃ slotAt : Nat → Slot,
      (∀ index < context.batchSize, context.message index = .ok (slotAt index)) ∧
      Transmission.readSlots context.message .start (wanted context.batchSize chunks) =
        { slots := (wanted context.batchSize chunks).map slotAt, error := none } := by
  have readable : ∀ index < context.batchSize, context.message index =
      .ok ((context.message index).toOption.getD .blank) := by
    intro index inside
    obtain ⟨slot, read⟩ := ready.readable index inside
    rw [read]
    rfl
  exact ⟨_, readable, Transmission.readSlots_of_readable
    (fun index member => readable index (mem_wanted.mp member).1) .start⟩

/-- What is gathered of slots that carry their indices has each real slot in its place. -/
theorem getElem?_gather_wanted {batchSize index : Nat} {slotAt : Nat → Slot}
    (indexed : ∀ index < batchSize, (slotAt index).index = index)
    (member : index ∈ wanted batchSize chunks) :
    (gather batchSize ((wanted batchSize chunks).map slotAt))[index]? = some (slotAt index) := by
  have inside := (mem_wanted.mp member).1
  have alike : ∀ other ∈ (wanted batchSize chunks).map slotAt,
      other.index = (slotAt index).index → other = slotAt index := by
    intro other known same
    obtain ⟨position, found, rfl⟩ := List.mem_map.mp known
    rw [indexed position (mem_wanted.mp found).1, indexed index inside] at same
    rw [same]
  have stands := getElem?_gather (List.mem_map_of_mem member) alike
    ((indexed index inside).trans_lt inside)
  rwa [indexed index inside] at stands

section Law

variable
  (covered : context.outputComplete = true →
    ∀ index < context.batchSize, 0 < Chunk.coverage chunks index)

include covered

/-- **The reading goes through exactly if everything is ready**, where the chunks of a complete
graph cover the batch. -/
theorem clear_iff_ready : Clear context completed
    (Transmission.readSlots context.message .start (wanted context.batchSize chunks)) ↔
      Ready context completed := by
  constructor
  · intro clear
    refine ⟨clear.complete, fun index inside => ?_, clear.roomy⟩
    cases read : context.message index with
    | ok slot => exact ⟨slot, rfl⟩
    | error error =>
        have member := mem_wanted.mpr ⟨inside, covered clear.complete index inside⟩
        have spoiled := Transmission.isSome_error_readSlots member read .start
        rw [clear.unspoiled] at spoiled
        cases spoiled
  · intro ready
    obtain ⟨slotAt, -, reads⟩ := ready.reads chunks
    exact ⟨by rw [reads], ready.complete, ready.roomy⟩

/-- **The law holds of every transmission** whose slots carry their indices. -/
theorem handoff_of_coverage
    (indexed : ∀ index slot, context.message index = .ok slot → slot.index = index) :
    Handoff notify context completed chunks
      ((transmitter notify).transmit context completed chunks) := by
  have law : Clear context completed (Transmission.readSlots context.message .start
      (wanted context.batchSize chunks)) ↔ Ready context completed := clear_iff_ready covered
  have silent (unready : ¬ Ready context completed) : ∃ error, ∀ notify,
      (transmitter notify).transmit context completed chunks =
        .silent completed (.returned (.error error)) := by
    obtain ⟨error, ends⟩ := conclude_of_not_clear (law.not.mpr unready)
    exact ⟨error, fun notify => (transmit_eq ..).trans (ends notify)⟩
  have handed (ready : Ready context completed) :
      (transmitter notify).transmit context completed chunks = handover notify context completed
        (Transmission.readSlots context.message .start (wanted context.batchSize chunks)).slots :=
    (transmit_eq ..).trans ((law.mpr ready).conclude_eq notify)
  have ready_of_pushes {batch : CompletedRound}
      (pushes : ((transmitter notify).transmit context completed chunks).Pushes completed batch) :
      Ready context completed := by
    by_contra unready
    obtain ⟨error, ends⟩ := silent unready
    rw [ends] at pushes
    exact not_pushes_silent pushes
  refine ⟨⟨fun ⟨batch, pushes⟩ => ready_of_pushes pushes, fun ready => ?_⟩, ?_, ?_, ?_, ?_⟩
  · rw [handed ready]
    exact ⟨_, pushes_handover.mpr rfl⟩
  · intro batch pushes
    have ready := ready_of_pushes pushes
    obtain ⟨slotAt, readable, reads⟩ := ready.reads chunks
    rw [handed ready, pushes_handover, reads] at pushes
    subst pushes
    refine ⟨rfl, length_gather .., fun index inside => ⟨slotAt index, ?_, readable index inside⟩⟩
    exact getElem?_gather_wanted (fun other within => indexed _ _ (readable other within))
      (mem_wanted.mpr ⟨inside, covered ready.complete index inside⟩)
  · intro message alike
    rw [transmit_eq, transmit_eq]
    dsimp only
    rw [Transmission.readSlots_congr fun index member => alike index (mem_wanted.mp member).1]
    rfl
  · intro unready
    obtain ⟨error, ends⟩ := silent unready
    rw [ends]
    exact ⟨rfl, ⟨error, rfl⟩, rfl, ends⟩
  · intro ready
    rw [handed ready]
    exact told_tell rfl rfl

end Law

end FinishRealtime

end Mixnet
