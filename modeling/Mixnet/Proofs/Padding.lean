import Mixnet.Phase
import Mixnet.Proofs.Entrance

/-!
# Padding

A round has a batch of real slots, and the graphs of its phases work on a batch that may be longer.
Whoever feeds a phase sends real slots only: the slots that pad the batch reach the graph right
behind the chunk that ends where the real slots do, whenever that one comes.

## Main definitions

* `Chunk.padded`: chunks with the padding behind the one that ends the batch
* `Graph.Partition`: chunks that make up a batch
* `Phase.sendAmid`: a send during which other things happen to the graph
* `Phase.Event`, `Phase.play`: what can happen to a phase that is being fed
* `Phase.Fed`: a phase that has been fed the chunks given

## Main statements

* `Graph.Portions.coverage_padded`: padding slots are covered as often as the last real one
* `Phase.Fed.send`: what one send answers, and what it leaves
* `Phase.Fed.play`: what all of them do
* `Phase.padded_input`: the law of feeding a phase of a round
-/

namespace Mixnet

open Journal

/-! ## Batches with padding -/

namespace Chunk

variable {batch expanded : Nat} {chunk : Chunk} {chunks : List Chunk}

/-- The slots that pad a batch, as one chunk if there are any. -/
def paddingOf (batch expanded : Nat) : List Chunk :=
  if batch < expanded then (ofBounds batch expanded).toOption.toList else []

/-- What is sent behind a chunk: the padding, if it ends where the batch does. -/
def behind (batch expanded : Nat) (chunk : Chunk) : List Chunk :=
  if chunk.stop = batch then paddingOf batch expanded else []

/-- Chunks in the order in which they are sent, with the padding behind the one that ends the
batch. -/
def padded (batch expanded : Nat) (chunks : List Chunk) : List Chunk :=
  chunks.flatMap fun chunk => chunk :: behind batch expanded chunk

/-- One more chunk, newest first. -/
theorem reverse_padded_concat (chunks : List Chunk) (chunk : Chunk) :
    (padded batch expanded (chunks ++ [chunk])).reverse =
      (behind batch expanded chunk).reverse ++ chunk :: (padded batch expanded chunks).reverse := by
  rw [padded, List.flatMap_append, List.flatMap_singleton, List.reverse_append, List.reverse_cons,
    List.append_assoc, List.singleton_append]
  rfl

/-- There is padding between the batch and its expansion. -/
theorem paddingOf_cases (expanded_lt : expanded < Word.limit 32) :
    expanded ≤ batch ∧ paddingOf batch expanded = [] ∨
      batch < expanded ∧ ∃ padding, ofBounds batch expanded = .ok padding ∧
        paddingOf batch expanded = [padding] ∧ padding.start = batch ∧
        padding.stop = expanded := by
  rw [paddingOf]
  split
  case isTrue some_padding =>
    have made := ofBounds_eq_ok some_padding.le expanded_lt
    refine Or.inr ⟨some_padding, _, made, ?_, rfl, rfl⟩
    rw [made]
    rfl
  case isFalse no_padding => exact Or.inl ⟨Nat.le_of_not_lt no_padding, rfl⟩

theorem coverage_paddingOf (expanded_lt : expanded < Word.limit 32) (slot : Nat) :
    coverage (paddingOf batch expanded) slot = if batch ≤ slot ∧ slot < expanded then 1 else 0 := by
  rcases paddingOf_cases expanded_lt with ⟨none, eq⟩ | ⟨-, padding, -, eq, start_eq, stop_eq⟩
  · rw [eq, coverage_nil, if_neg (by omega)]
  · rw [eq, coverage_cons, coverage_nil, Nat.zero_add]
    simp only [covers_iff, start_eq, stop_eq]

/-- Padding comes as often as there are chunks that end the batch. -/
theorem coverage_padded (chunks : List Chunk) (slot : Nat) :
    coverage (padded batch expanded chunks) slot = coverage chunks slot +
      chunks.countP (·.stop = batch) * coverage (paddingOf batch expanded) slot := by
  induction chunks with
  | nil => simp [padded]
  | cons chunk chunks ih =>
      have split : padded batch expanded (chunk :: chunks) =
          chunk :: (behind batch expanded chunk ++ padded batch expanded chunks) := rfl
      rw [split, coverage_cons, coverage_append, ih, coverage_cons, List.countP_cons, behind]
      by_cases ends : chunk.stop = batch
      · simp only [ends, if_true, decide_true, Nat.succ_mul]
        omega
      · simp only [ends, if_false, decide_false, coverage_nil, Bool.false_eq_true, Nat.add_zero]
        omega

end Chunk

namespace Graph

variable {batch expanded : Nat} {chunks : List Chunk}

/-- Non-empty and disjoint chunks that make up a batch. -/
structure Partition (batch : Nat) (chunks : List Chunk) : Prop extends Portions batch chunks where
  covering : ∀ slot < batch, Chunk.coverage chunks slot = 1

namespace Portions

theorem batch_pos (portions : Portions batch chunks) {chunk : Chunk} (member : chunk ∈ chunks) :
    0 < batch :=
  (Nat.zero_lt_of_lt (portions.nonempty chunk member)).trans_le (portions.inside chunk member)

/-- The chunks that end a batch are those that cover its last slot. -/
theorem countP_ending (portions : Portions batch chunks) (some_slot : 0 < batch) :
    chunks.countP (·.stop = batch) = Chunk.coverage chunks (batch - 1) := by
  apply List.countP_congr
  intro chunk member
  have nonempty := portions.nonempty chunk member
  have inside := portions.inside chunk member
  rw [decide_eq_true_eq, Chunk.covers_iff]
  omega

theorem coverage_eq_zero (portions : Portions batch chunks) {slot : Nat} (beyond : batch ≤ slot) :
    Chunk.coverage chunks slot = 0 := by
  rw [Chunk.coverage, List.countP_eq_zero]
  intro chunk member
  have inside := portions.inside chunk member
  rw [Chunk.covers_iff]
  omega

/-- **Padding slots are covered as often as the last real one.** -/
theorem coverage_padded (portions : Portions batch chunks) (some_slot : 0 < batch)
    (room : batch ≤ expanded) (expanded_lt : expanded < Word.limit 32) (slot : Nat) :
    Chunk.coverage (Chunk.padded batch expanded chunks) slot =
      if slot < expanded then Chunk.coverage chunks (min slot (batch - 1)) else 0 := by
  rw [Chunk.coverage_padded, Chunk.coverage_paddingOf expanded_lt, portions.countP_ending some_slot]
  by_cases real : slot < batch
  · rw [if_neg (by omega), if_pos (by omega), Nat.min_eq_left (by omega), Nat.mul_zero,
      Nat.add_zero]
  · rw [portions.coverage_eq_zero (Nat.le_of_not_lt real), Nat.zero_add,
      Nat.min_eq_right (by omega)]
    by_cases inside : slot < expanded
    · rw [if_pos ⟨Nat.le_of_not_lt real, inside⟩, if_pos inside, Nat.mul_one]
    · rw [if_neg (fun both => inside both.2), if_neg inside, Nat.mul_zero]

/-- No slot of a padded batch is sent twice. -/
theorem coverage_padded_le (portions : Portions batch chunks) (some_slot : 0 < batch)
    (room : batch ≤ expanded) (expanded_lt : expanded < Word.limit 32) (slot : Nat) :
    Chunk.coverage (Chunk.padded batch expanded chunks) slot ≤ 1 := by
  rw [portions.coverage_padded some_slot room expanded_lt]
  split
  · exact portions.coverage_le _
  · exact Nat.zero_le 1

/-- A padded batch is whole exactly if its real slots are. -/
theorem covering_padded_iff (portions : Portions batch chunks) (some_slot : 0 < batch)
    (room : batch ≤ expanded) (expanded_lt : expanded < Word.limit 32) :
    (∀ slot < expanded, Chunk.coverage (Chunk.padded batch expanded chunks) slot = 1) ↔
      ∀ slot < batch, Chunk.coverage chunks slot = 1 := by
  simp only [portions.coverage_padded some_slot room expanded_lt]
  constructor
  · intro whole slot real
    have once := whole slot (real.trans_le room)
    rwa [if_pos (real.trans_le room), Nat.min_eq_left (by omega)] at once
  · intro whole slot inside
    rw [if_pos inside]
    exact whole _ (by omega)

theorem of_prefix {fewer : List Chunk} (portions : Portions batch chunks)
    (front : fewer <+: chunks) : Portions batch fewer :=
  ⟨fun chunk member => portions.nonempty chunk (front.subset member),
    fun chunk member => portions.inside chunk (front.subset member),
    portions.apart.sublist front.sublist⟩

end Portions

/-- **The first chunks of a partition make up the batch exactly if they are all of them.** -/
theorem Partition.covering_take_iff (partition : Partition batch chunks) (count : Nat) :
    (∀ slot < batch, Chunk.coverage (chunks.take count) slot = 1) ↔ chunks.length ≤ count := by
  constructor
  · intro whole
    by_contra short
    rw [Nat.not_le] at short
    -- The first slot of a chunk that is left would be covered twice.
    have split : chunks.take count ++ chunks[count] :: chunks.drop (count + 1) = chunks := by
      rw [List.getElem_cons_drop, List.take_append_drop]
    have left : chunks[count] ∈ chunks := List.getElem_mem short
    generalize chunks[count] = chunk at split left
    have nonempty := partition.nonempty chunk left
    have inside := partition.inside chunk left
    have once := whole chunk.start (by omega)
    have bound := partition.coverage_le chunk.start
    rw [← split, Chunk.coverage_append, Chunk.coverage_cons,
      if_pos (Chunk.covers_iff.mpr ⟨le_rfl, nonempty⟩), once] at bound
    omega
  · intro enough
    rw [List.take_of_length_le enough]
    exact partition.covering

end Graph

/-! ## Feeding a phase -/

namespace Phase

variable {phase after : Phase} {entrance : Module} {first batch expanded : Nat} {chunk : Chunk}
  {earlier : List Chunk} {meanwhile : List Graph.Event} {step : PhaseStep} {steps : List PhaseStep}

/-- A send during which other things happen to the graph, between the chunk and the padding behind
it. -/
def sendAmid (phase : Phase) (chunk : Chunk) (meanwhile : List Graph.Event) : Option PhaseStep :=
  match phase.graph.send chunk with
  | (.error fault, graph) => some (phase.sendStep (.error fault) graph)
  | (.ok done, graph) =>
    (graph.play meanwhile).map fun between =>
      let (outcome, after) := { phase with graph := between }.sendPadding chunk done
      phase.sendStep outcome after

/-- A send during which nothing else happens. -/
theorem sendAmid_nil (phase : Phase) (chunk : Chunk) :
    phase.sendAmid chunk [] = some (phase.send chunk) := by
  unfold sendAmid send sendPadded
  rcases phase.graph.send chunk with ⟨fault | done, graph⟩
  · rfl
  · rfl

/-- What can happen to a phase that is being fed. -/
inductive Event where
  /-- It is sent a chunk, while other things happen to its graph. -/
  | send (chunk : Chunk) (meanwhile : List Graph.Event)
  /-- Something else happens to its graph. -/
  | aside (event : Graph.Event)

/-- Apart from the sends, an event sends nothing, lets no kernel fail and ends no work. -/
def Event.Calm : Event → Prop
  | .send _ meanwhile => Graph.Aside meanwhile
  | .aside event => Graph.Aside [event]

/-- The phase after a list of events, if each of them can happen, and what the sends among them
answered. -/
def play (phase : Phase) : List Event → Option (List PhaseStep × Phase)
  | [] => some ([], phase)
  | .send chunk meanwhile :: rest =>
    (phase.sendAmid chunk meanwhile).bind fun step =>
      (step.phase.play rest).map fun (steps, after) => (step :: steps, after)
  | .aside event :: rest =>
    (phase.graph.act event).bind fun graph => play { phase with graph } rest

/-- The chunks that a phase is sent by a list of events. -/
def fedBy (events : List Event) : List Chunk :=
  events.filterMap fun
    | .send chunk _ => some chunk
    | .aside _ => none

/-- A phase of a round that has been fed the chunks given, oldest first. -/
structure Fed (phase : Phase) (entrance : Module) (first batch expanded : Nat)
    (earlier : List Chunk) : Prop where
  opened : phase.graph.Open entrance first expanded (Chunk.padded batch expanded earlier).reverse
  bound : phase.binding.map PhaseBinding.batchSize = some batch
  received_eq : phase.received = !earlier.isEmpty

/-- What a send answers, if the chunks given were sent before: whether the batch is whole by now.
The first and the last send are recorded. -/
def Answers (batch : Nat) (earlier : List Chunk) (chunk : Chunk) (step : PhaseStep) : Prop :=
  ∃ last, step.outcome = .ok last ∧
    (last = true ↔ ∀ slot < batch, Chunk.coverage (earlier ++ [chunk]) slot = 1) ∧
    step.milestones = (if earlier = [] then [.firstSlotReceived] else []) ++
      if last then [.lastSlotReceived] else []

theorem batchSize_of_bound (bound : phase.binding.map PhaseBinding.batchSize = some batch) :
    phase.batchSize = batch := by
  obtain ⟨binding, binding_eq, rfl⟩ := Option.map_eq_some_iff.mp bound
  rw [batchSize, binding_eq]

theorem recorded_of_bound (bound : phase.binding.map PhaseBinding.batchSize = some batch)
    (milestones : List Milestone) : phase.recorded milestones = milestones := by
  obtain ⟨binding, binding_eq, -⟩ := Option.map_eq_some_iff.mp bound
  rw [recorded, binding_eq]
  rfl

/-- The padding is sent behind the chunk that ends the batch, and the answer is whether the graph
has received everything by now. -/
theorem sendPadding_opened {done : Bool} {received : List Chunk}
    (opened : phase.graph.Open entrance first expanded received)
    (batch_eq : phase.batchSize = batch)
    (once : ∀ slot,
      Chunk.coverage ((Chunk.behind batch expanded chunk).reverse ++ received) slot ≤ 1)
    (done_iff : done = true ↔ ∀ slot < expanded, Chunk.coverage received slot = 1) :
    ∃ answer graph, phase.sendPadding chunk done = (.ok answer, graph) ∧
      graph.Open entrance first expanded
        ((Chunk.behind batch expanded chunk).reverse ++ received) ∧
      (answer = true ↔ ∀ slot < expanded,
        Chunk.coverage ((Chunk.behind batch expanded chunk).reverse ++ received) slot = 1) := by
  rw [sendPadding, padding?, batch_eq, opened.expanded_eq]
  unfold Chunk.behind at once ⊢
  by_cases ends : chunk.stop = batch
  · rw [if_pos ends] at once ⊢
    simp only [if_pos ends] at once ⊢
    rcases Chunk.paddingOf_cases opened.fed.expanded_lt with
      ⟨none, eq⟩ | ⟨some_padding, padding, made, eq, start_eq, stop_eq⟩
    · rw [eq]
      rw [if_neg (Nat.not_lt.mpr none)]
      exact ⟨done, phase.graph, rfl, opened, done_iff⟩
    · rw [eq] at once ⊢
      rw [if_pos some_padding, made]
      have nonempty : padding.start < padding.stop := by rwa [start_eq, stop_eq]
      obtain ⟨answer, graph, sent, after_opened, answer_iff⟩ :=
        opened.send once nonempty stop_eq.le
      exact ⟨answer, graph, sent, after_opened, answer_iff⟩
  · rw [if_neg ends]
    simp only [if_neg ends]
    exact ⟨done, phase.graph, rfl, opened, done_iff⟩

namespace Fed

/-- **What one send answers**, and that it feeds the phase the chunk. -/
theorem send (fed : phase.Fed entrance first batch expanded earlier)
    (portions : Graph.Portions batch (earlier ++ [chunk])) (room : batch ≤ expanded)
    (aside : Graph.Aside meanwhile) (sent : phase.sendAmid chunk meanwhile = some step) :
    step.phase.Fed entrance first batch expanded (earlier ++ [chunk]) ∧
      Answers batch earlier chunk step := by
  have member : chunk ∈ earlier ++ [chunk] := List.mem_append_right _ (List.mem_singleton_self _)
  have some_slot := portions.batch_pos member
  have expanded_lt := fed.opened.fed.expanded_lt
  -- All that has reached the graph in the end, newest first.
  have reversed : (Chunk.padded batch expanded (earlier ++ [chunk])).reverse =
      (Chunk.behind batch expanded chunk).reverse ++
        chunk :: (Chunk.padded batch expanded earlier).reverse :=
    Chunk.reverse_padded_concat earlier chunk
  have coverage_eq (slot : Nat) : Chunk.coverage ((Chunk.behind batch expanded chunk).reverse ++
      chunk :: (Chunk.padded batch expanded earlier).reverse) slot =
        Chunk.coverage (Chunk.padded batch expanded (earlier ++ [chunk])) slot := by
    rw [← reversed]
    exact Chunk.coverage_perm (List.reverse_perm _) slot
  have once (slot : Nat) : Chunk.coverage ((Chunk.behind batch expanded chunk).reverse ++
      chunk :: (Chunk.padded batch expanded earlier).reverse) slot ≤ 1 := by
    rw [coverage_eq]
    exact portions.coverage_padded_le some_slot room expanded_lt slot
  have chunk_once (slot : Nat) :
      Chunk.coverage (chunk :: (Chunk.padded batch expanded earlier).reverse) slot ≤ 1 := by
    have bound := once slot
    rw [Chunk.coverage_append] at bound
    omega
  obtain ⟨done, graph, sending, graph_opened, done_iff⟩ := fed.opened.send chunk_once
    (portions.nonempty chunk member) ((portions.inside chunk member).trans room)
  rw [sendAmid, sending] at sent
  obtain ⟨between, played, rfl⟩ := Option.map_eq_some_iff.mp sent
  have between_opened := graph_opened.play aside played
  have bound : ({ phase with graph := between } : Phase).binding.map PhaseBinding.batchSize =
      some batch := fed.bound
  obtain ⟨last, after, padding, after_opened, last_iff⟩ :=
    sendPadding_opened between_opened (batchSize_of_bound bound) once done_iff
  simp only [coverage_eq, portions.covering_padded_iff some_slot room expanded_lt] at last_iff
  rw [padding]
  refine ⟨⟨reversed ▸ after_opened, fed.bound, ?_⟩, last, rfl, last_iff, ?_⟩
  · show true = !(earlier ++ [chunk]).isEmpty
    simp
  · show phase.recorded _ = _
    rw [recorded_of_bound fed.bound, fed.received_eq]
    cases earlier <;> cases last <;> rfl

/-- **What all sends answer**, and that they feed the phase their chunks. -/
theorem play {events : List Event} (fed : phase.Fed entrance first batch expanded earlier)
    (portions : Graph.Portions batch (earlier ++ fedBy events)) (room : batch ≤ expanded)
    (calm : ∀ event ∈ events, event.Calm) (played : phase.play events = some (steps, after)) :
    after.Fed entrance first batch expanded (earlier ++ fedBy events) ∧
      steps.length = (fedBy events).length ∧
      ∀ (index : Nat) step, steps[index]? = some step → ∃ chunk,
        (fedBy events)[index]? = some chunk ∧
        Answers batch (earlier ++ (fedBy events).take index) chunk step := by
  induction events generalizing phase earlier steps with
  | nil =>
      injection played with both
      injection both with steps_eq after_eq
      subst steps_eq after_eq
      refine ⟨?_, rfl, fun index step found => ?_⟩
      · exact (List.append_nil earlier).symm ▸ fed
      · cases found
  | cons event events ih =>
      have event_calm := calm event List.mem_cons_self
      have rest_calm : ∀ other ∈ events, other.Calm :=
        fun other member => calm other (List.mem_cons_of_mem _ member)
      cases event with
      | aside event =>
          obtain ⟨graph, acted, played⟩ := Option.bind_eq_some_iff.mp played
          obtain ⟨quiet, unsent⟩ := event_calm event (List.mem_singleton_self _)
          have aside_fed : ({ phase with graph } : Phase).Fed entrance first batch expanded
              earlier :=
            ⟨fed.opened.act quiet unsent acted, fed.bound, fed.received_eq⟩
          exact ih aside_fed portions rest_calm played
      | send chunk meanwhile =>
          obtain ⟨step, sent, played⟩ := Option.bind_eq_some_iff.mp played
          obtain ⟨⟨rest, last⟩, rest_played, both⟩ := Option.map_eq_some_iff.mp played
          injection both with steps_eq after_eq
          subst steps_eq after_eq
          have fed_eq : fedBy (.send chunk meanwhile :: events) = chunk :: fedBy events := rfl
          rw [fed_eq] at portions ⊢
          have split (later : List Chunk) :
              earlier ++ chunk :: later = earlier ++ [chunk] ++ later := by simp
          rw [split] at portions ⊢
          obtain ⟨step_fed, answers⟩ :=
            fed.send (portions.of_prefix (List.prefix_append _ _)) room event_calm sent
          obtain ⟨after_fed, length_eq, each⟩ := ih step_fed portions rest_calm rest_played
          refine ⟨after_fed, congrArg Nat.succ length_eq, ?_⟩
          rintro (_ | index) other found
          · injection found with found
            subst found
            refine ⟨chunk, rfl, ?_⟩
            rwa [List.take_zero, List.append_nil]
          · obtain ⟨next, next_found, next_answers⟩ := each index other found
            refine ⟨next, next_found, ?_⟩
            rwa [List.take_succ_cons, split]

end Fed

/-- If the chunks make up the batch, only the last send is answered as the last. -/
theorem Answers.of_partition {chunks sent : List Chunk} {index : Nat}
    (partition : Graph.Partition batch chunks) (front : sent <+: chunks)
    (found : sent[index]? = some chunk) (answers : Answers batch (sent.take index) chunk step) :
    step.outcome = .ok (decide (index + 1 = chunks.length)) ∧
      step.milestones = (if index = 0 then [.firstSlotReceived] else []) ++
        if index + 1 = chunks.length then [.lastSlotReceived] else [] := by
  obtain ⟨last, outcome_eq, last_iff, milestones_eq⟩ := answers
  obtain ⟨inside, -⟩ := List.getElem?_eq_some_iff.mp found
  have within := front.length_le
  have by_now : sent.take index ++ [chunk] = chunks.take (index + 1) := by
    obtain ⟨rest, rfl⟩ := front
    rw [List.take_append_of_le_length inside, List.take_add_one, found]
    rfl
  have last_eq : last = decide (index + 1 = chunks.length) := by
    rw [by_now, partition.covering_take_iff] at last_iff
    rw [Bool.eq_iff_iff, last_iff, decide_eq_true_eq]
    omega
  have first_iff : sent.take index = [] ↔ index = 0 := by
    rw [List.take_eq_nil_iff, or_iff_left (List.ne_nil_of_length_pos (Nat.zero_lt_of_lt inside))]
  refine ⟨last_eq ▸ outcome_eq, milestones_eq.trans ?_⟩
  simp only [first_iff, last_eq, decide_eq_true_eq]

/-- **The law of feeding a phase of a round.**  The batch is sent in chunks, cut and ordered in any
way, while the workers take steps at any time, even in the middle of a send.  Then no send is a
fault, exactly the last one answers so, the first and the last are recorded once each; the first
module receives every chunk and the padding right behind the one that ends the batch, and so it has
received every slot exactly once in the end. -/
theorem padded_input {graph : Graph} {size roundId : Nat} {chunks : List Chunk}
    {events : List Event} (wired : graph.Wired) (building : graph.build size = .ok phase.graph)
    (fresh : phase.received = false) (bound : phase.binding = some ⟨roundId, batch⟩)
    (room : batch ≤ phase.graph.expandedSize) (partition : Graph.Partition batch chunks)
    (front : fedBy events <+: chunks) (calm : ∀ event ∈ events, event.Calm)
    (played : phase.play events = some (steps, after)) :
    steps.length = (fedBy events).length ∧
      (∀ (index : Nat) step, steps[index]? = some step →
        step.outcome = .ok (decide (index + 1 = chunks.length)) ∧
        step.milestones = (if index = 0 then [.firstSlotReceived] else []) ++
          if index + 1 = chunks.length then [.lastSlotReceived] else []) ∧
      (∀ chunk, fedBy events ++ [chunk] <+: chunks →
        ∃ last, (after.send chunk).outcome = .ok last) ∧
      ∃ first dispatch, after.graph.wiring.first = some first ∧
        after.graph.dispatch = some dispatch ∧
        (reportsTo dispatch.journal first).reverse =
          Chunk.padded batch phase.graph.expandedSize (fedBy events) ∧
        (fedBy events = chunks → chunks ≠ [] → ∀ slot,
          Chunk.coverage (reportsTo dispatch.journal first) slot =
            if slot < phase.graph.expandedSize then 1 else 0) := by
  obtain ⟨entrance, first, opened⟩ := Graph.open_of_build wired building
  have fed : phase.Fed entrance first batch phase.graph.expandedSize [] :=
    ⟨opened, by rw [bound]; rfl, fresh⟩
  obtain ⟨after_fed, length_eq, each⟩ :=
    fed.play (partition.toPortions.of_prefix front) room calm played
  rw [List.nil_append] at after_fed
  obtain ⟨dispatch, dispatch_eq, inside⟩ := after_fed.opened.open_dispatch
  have received_eq : (reportsTo dispatch.journal first).reverse =
      Chunk.padded batch phase.graph.expandedSize (fedBy events) := by
    rw [inside.received_eq, List.reverse_reverse]
  refine ⟨length_eq, ?_, ?_, first, dispatch, after_fed.opened.first_eq, dispatch_eq, received_eq,
    ?_⟩
  · intro index step found
    obtain ⟨chunk, chunk_found, answers⟩ := each index step found
    exact answers.of_partition partition front chunk_found
  · intro chunk further
    obtain ⟨-, last, outcome_eq, -⟩ :=
      after_fed.send (partition.toPortions.of_prefix further) room
        (fun _ none => by cases none) (sendAmid_nil after chunk)
    exact ⟨last, outcome_eq⟩
  · intro all some_chunk slot
    obtain ⟨chunk, member⟩ := List.exists_mem_of_ne_nil chunks some_chunk
    have some_slot := partition.batch_pos member
    rw [← Chunk.coverage_perm (List.reverse_perm _), received_eq, all,
      partition.coverage_padded some_slot room opened.fed.expanded_lt]
    split
    · exact partition.covering _ (by omega)
    · rfl

/-- A phase over two modules in a row, in a round of seven real slots.  Its graph has an eighth. -/
def short : Phase :=
  { create .realDecrypt ((Graph.sample.build 7).toOption.getD Graph.sample) .drain none false with
    binding := some ⟨1, 7⟩ }

/-- The real slots behind the first. -/
def rear : Chunk := { start := 1, stop := 7 }

/-- The first slot. -/
def head : Chunk := { start := 0, stop := 1 }

/-- The first slot comes behind all others, while a worker is busy with some of them. -/
def shortFeeding : List Event :=
  .aside (.link (.create ⟨7, 2⟩ 7 8)) :: .aside .start :: .send rear [.collect] ::
    ((Graph.sampleWork 0).map fun step => .aside (.work step)) ++
      [.send head [.work (.take 0)]]

theorem padded_input_short : ∃ steps after, short.play shortFeeding = some (steps, after) ∧
    steps.length = 2 ∧ ∃ first dispatch, after.graph.wiring.first = some first ∧
      after.graph.dispatch = some dispatch ∧
      ∀ slot, Chunk.coverage (reportsTo dispatch.journal first) slot =
        if slot < 8 then 1 else 0 := by
  have plays : (short.play shortFeeding).isSome = true := by decide +kernel
  obtain ⟨⟨steps, after⟩, played⟩ := Option.isSome_iff_exists.mp plays
  have fed_eq : fedBy shortFeeding = [rear, head] := rfl
  have partition : Graph.Partition 7 (fedBy shortFeeding) := by
    rw [fed_eq]
    refine ⟨⟨by simp [rear, head], by simp [rear, head], ?_⟩, by decide⟩
    simp only [List.pairwise_pair, Chunk.Apart, Chunk.covers_iff, rear, head]
    omega
  have calm : ∀ event ∈ shortFeeding, event.Calm := by
    simp [shortFeeding, Graph.sampleWork, Event.Calm, Graph.Aside, Graph.Event.Calm, Graph.sent]
  obtain ⟨length_eq, -, -, first, dispatch, first_eq, dispatch_eq, -, whole⟩ :=
    padded_input Graph.sample_wired (show Graph.sample.build 7 = .ok short.graph from rfl) rfl rfl
      (show 7 ≤ 8 by decide) partition List.prefix_rfl calm played
  exact ⟨steps, after, played, length_eq, first, dispatch, first_eq, dispatch_eq,
    whole rfl (by simp [fed_eq])⟩

end Phase

end Mixnet
