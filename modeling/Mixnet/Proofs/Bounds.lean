import Mixnet.Proofs.Confinement
import Mixnet.Proofs.Contiguity
import Mixnet.Proofs.Permutation
import Mixnet.Proofs.Sparing
import Mixnet.Proofs.Upkeep
import Mixnet.Proofs.WireForm

/-!
# Indices in range

The phases of a round expand their batch to different sizes, and share one buffer that is as long as
the longest of them.  A stream is as long as its own phase.  So an index that is handed out by a
phase can be used wherever that phase has something to look up, whatever has been done to the round.

## Main definitions

* `Workspace.Holds`, `Workspace.Serves`: everything that can be looked up by a slot has that slot
* `Phase.Deed`, `Round.Occurrence`: what can be done to a phase and to a round
* `Round.Hands`: a chunk on which a kernel is called, or which is read from the sink
* `Round.Fits`: what a round keeps of its creation

## Main statements

* `Workspace.Holds.serves`: a workspace serves every slot that it holds
* `Round.Fits.undergo`: whatever is done to a round, it fits
* `Round.indices_in_range`: the law of the indices that a round hands out

## Design notes

What is done to a round is not constrained by what a node would do: phases are moved and queued, and
kernels write, at any time.  That a kernel cannot change the length of an array is in the type of
what it does to one.
-/

namespace Mixnet

/-! ## Arrays -/

namespace GroupArray

variable {array : GroupArray} {index : Nat}

/-- An index at which an array can be read, written and changed. -/
structure Serves (array : GroupArray) (index : Nat) : Prop where
  get_eq : array.get index = .ok (array.valueAt index)
  set_eq : ∀ value, array.set index value = .ok (array.put index value)
  update_eq : ∀ image,
    array.update index image = (image (array.valueAt index)).map (array.put index)

/-- An array serves every index below its length. -/
theorem serves_of_lt (inside : index < array.size) : array.Serves index := by
  have get_eq := get_of_lt inside
  have set_eq (value : Nat) : array.set index value = .ok (array.put index value) := by
    rw [set, if_pos inside]
  refine ⟨get_eq, set_eq, fun image => ?_⟩
  rw [update, get_eq, Fault.ok_bind]
  cases image (array.valueAt index) with
  | error fault => rfl
  | ok value => exact set_eq value

/-- A change of an array, if it goes through.  Arrays keep their length. -/
structure Change where
  /-- The array afterwards. -/
  apply : GroupArray → Except Fault GroupArray
  size_eq : ∀ {array after}, apply array = .ok after → after.size = array.size

namespace Change

/-- One cell is replaced by its image. -/
def update (index : Nat) (image : Nat → Except Fault Nat) : Change where
  apply array := array.update index image
  size_eq := by
    intro array after changed
    obtain ⟨value, -, changed⟩ := Fault.bind_eq_ok.mp changed
    obtain ⟨other, -, changed⟩ := Fault.bind_eq_ok.mp changed
    rw [GroupArray.set] at changed
    split at changed
    case isTrue =>
      injection changed with same
      rw [← same, size_put]
    case isFalse => cases changed

/-- Every cell is overwritten. -/
def fill (value : Nat) : Change where
  apply array := .ok (array.fill value)
  size_eq := by
    rintro array _ ⟨⟩
    exact size_filled _ _

/-- The array after a change, or as it was if the change does not go through. -/
def result (change : Change) (array : GroupArray) : GroupArray :=
  match change.apply array with
  | .ok after => after
  | .error _ => array

@[simp] theorem size_result (change : Change) (array : GroupArray) :
    (change.result array).size = array.size := by
  rw [result]
  split
  case h_1 changed => exact change.size_eq changed
  case h_2 => rfl

end Change

end GroupArray

/-! ## Streams -/

namespace Stream

variable {stream after : Stream} {size index : Nat} {slot : Slot}

/-- A stream with as many cells on each side as there are slots, or one that keeps nothing. -/
def Holds (size : Nat) : Stream → Prop
  | .payload stream => ∃ cells, stream.cells = some cells ∧ cells.Sized ∧ cells.size = size
  | .blank _ => True

/-- The stream after a change of one of its arrays. -/
def change (stream : Stream) (side : PayloadSide) (change : GroupArray.Change) : Stream :=
  match stream with
  | .payload ⟨some cells⟩ =>
    .payload ⟨some (cells.setArray side (change.result (cells.array side)))⟩
  | other => other

/-- A stream that has been linked holds what it was linked for. -/
theorem holds_of_link {buffer : RoundBuffer} (linked : stream.link size buffer = .ok after) :
    after.Holds size := by
  cases stream with
  | blank name =>
      injection linked with same
      subst same
      trivial
  | payload stream =>
      obtain ⟨cells, made, rfl⟩ := Fault.map_eq_ok.mp linked
      obtain ⟨cells, found, sized, size_eq, -⟩ := PayloadStream.sized_of_link made
      exact ⟨cells, found, sized, size_eq⟩

namespace Holds

theorem input (holds : stream.Holds size) (taken : stream.input index slot = .ok after) :
    after.Holds size := by
  cases stream with
  | blank name =>
      injection taken with same
      subst same
      trivial
  | payload stream =>
      obtain ⟨cells, found, sized, size_eq⟩ := holds
      obtain ⟨next, decoded, rfl⟩ := Fault.map_eq_ok.mp taken
      obtain ⟨_, linked, decoded⟩ := Fault.bind_eq_ok.mp decoded
      obtain ⟨fresh, accepted, made⟩ := Fault.bind_eq_ok.mp decoded
      injection made with made
      subst made
      rw [PayloadStream.linked, found] at linked
      injection linked with same
      subst same
      refine ⟨fresh, rfl, sized.input accepted, ?_⟩
      obtain ⟨-, -, -, rfl⟩ := LinkedPayloads.input_eq_ok_iff.mp accepted
      exact size_eq

theorem inputAll (holds : stream.Holds size) {slots : List Slot}
    (taken : stream.inputAll slots = .ok after) : after.Holds size := by
  induction slots generalizing stream with
  | nil =>
      injection taken with same
      exact same ▸ holds
  | cons slot slots ih =>
      rw [Stream.inputAll] at taken
      split at taken
      case h_1 => cases taken
      case h_2 next accepted => exact ih (holds.input accepted) taken

theorem change (holds : stream.Holds size) (side : PayloadSide) (change : GroupArray.Change) :
    (stream.change side change).Holds size := by
  cases stream with
  | blank name => trivial
  | payload stream =>
      obtain ⟨_ | cells⟩ := stream
      · exact holds
      · obtain ⟨_, ⟨⟩, sized, size_eq⟩ := holds
        refine ⟨_, rfl, sized.setArray side ?_, ?_⟩
        · exact (GroupArray.Change.size_result _ _).trans (sized side)
        · cases side <;> exact size_eq

end Holds

end Stream

/-! ## Vectors -/

/-- One thing is put under its letter, and the others stay. -/
theorem Quintet.get_set {α : Type} (five : Quintet α) (letter other : Letter) (value : α) :
    (five.set letter value).get other = if other = letter then value else five.get other := by
  cases letter <;> cases other <;> rfl

namespace RoundBuffer

/-- One vector is put under its name, and the others stay. -/
theorem vector_setVector (buffer : RoundBuffer) (name other : VectorName) (array : GroupArray) :
    (buffer.setVector name array).vector other =
      if other = name then array else buffer.vector other := by
  obtain ⟨family, letter⟩ := name
  obtain ⟨others, place⟩ := other
  cases family <;> cases others <;> simp [setVector, vector, Quintet.get_set]

/-- Every vector of a new buffer is as long as the buffer. -/
theorem size_vector_create (group : CyclicGroup) (batchSize expandedSize : Nat)
    (name : VectorName) :
    ((create group batchSize expandedSize).vector name).size = max expandedSize batchSize := by
  obtain ⟨family, letter⟩ := name
  cases family <;> cases letter <;> exact GroupArray.size_filled _ _

/-- A permutation has a target for each slot of the buffer. -/
theorem Keeps.size_permutation {buffer : RoundBuffer} {batch expanded : Nat}
    (keeps : buffer.Keeps batch expanded) (room : batch ≤ expanded) :
    buffer.permutation.size = expanded := by
  rw [← Array.length_toList, toList_permutation, List.length_append,
    length_realPermutation keeps.valid, (isPermutation_iff.mp keeps.valid).2, padding,
    List.length_range', keeps.batch_eq, keeps.expanded_eq, Nat.add_sub_of_le room]

/-- A change of a vector keeps the length of every vector. -/
theorem size_vector_write (buffer : RoundBuffer) (name other : VectorName)
    (change : GroupArray.Change) :
    ((buffer.write (.vector name change.apply)).vector other).size =
      (buffer.vector other).size := by
  rw [write]
  split
  case h_1 changed done =>
    obtain ⟨array, made, done⟩ := Fault.bind_eq_ok.mp done
    injection done with same
    rw [← same, vector_setVector]
    split
    case isTrue same => rw [change.size_eq made, same]
    case isFalse => rfl
  case h_2 => rfl

end RoundBuffer

/-! ## Everything that a slot can be looked up in -/

namespace Workspace

variable {workspace : Workspace} {size index : Nat}

/-- Every array of a workspace has a cell for each slot below a size. -/
structure Holds (workspace : Workspace) (size : Nat) : Prop where
  stream : workspace.stream.Holds size
  vectors : ∀ name, size ≤ (workspace.buffer.vector name).size
  permutation : size ≤ workspace.buffer.permutation.size

/-- A slot that can be used: its payloads can be read out, and every array can be read, written and
changed there. -/
structure Serves (workspace : Workspace) (index : Nat) : Prop where
  output : ∃ slot, workspace.stream.output index = .ok slot
  payloads : ∀ cells, workspace.stream = .payload ⟨some cells⟩ →
    ∀ side, (cells.array side).Serves index
  vectors : ∀ name, (workspace.buffer.vector name).Serves index
  permuted : ∃ target, workspace.buffer.permutedIndex index = .ok target

/-- **A workspace serves every slot that it holds.** -/
theorem Holds.serves (holds : workspace.Holds size) (inside : index < size) :
    workspace.Serves index where
  output := by
    have streamed := holds.stream
    generalize workspace.stream = stream at streamed
    cases stream with
    | blank name => exact ⟨_, rfl⟩
    | payload stream =>
        obtain ⟨cells, found, -, size_eq⟩ := streamed
        have there : cells.checkIndex index = .ok () := if_pos (inside.trans_eq size_eq.symm)
        simp [Stream.output, PayloadStream.output, PayloadStream.linked, found, Fault.ok_bind,
          LinkedPayloads.output, there, pure, Except.pure]
  payloads := by
    intro cells same side
    have streamed := holds.stream
    rw [same] at streamed
    obtain ⟨_, ⟨⟩, sized, size_eq⟩ := streamed
    exact GroupArray.serves_of_lt (by rwa [sized side, size_eq])
  vectors name := GroupArray.serves_of_lt (inside.trans_le (holds.vectors name))
  permuted := by
    have there := inside.trans_le holds.permutation
    exact ⟨workspace.buffer.permutation[index], by simp [RoundBuffer.permutedIndex, there]⟩

end Workspace

/-! ## Graphs -/

namespace Graph

variable {graph after : Graph} {dispatch : Dispatch} {expanded : Nat}

/-- A graph that has been linked, with its chunks in the batch and a cell for each slot. -/
structure Bounded (expanded : Nat) (graph : Graph) : Prop where
  confined : ∃ origin, Confined origin expanded graph
  linked : graph.state ≠ .built
  streamed : graph.stream.Holds expanded

/-- A graph is linked to a buffer that is as long as its batch. -/
theorem le_of_link {buffer : RoundBuffer} (linked : graph.link buffer = .ok after) :
    graph.expandedSize ≤ buffer.expandedSize := by
  obtain ⟨-, linked⟩ := Invariant.require_bind_eq_ok.mp linked
  exact of_decide_eq_true (Invariant.require_bind_eq_ok.mp linked).1

/-- Building and linking makes such a graph. -/
theorem bounded_of_link {built : Graph} {batch : Nat} {buffer : RoundBuffer}
    (done : graph.build batch = .ok built) (linked : built.link buffer = .ok after) :
    after.Bounded built.expandedSize ∧ after.expandedSize = built.expandedSize := by
  obtain ⟨origin, found, confined⟩ := confined_of_build done
  have linking := linked
  obtain ⟨stage, stream, rfl⟩ := link_ok linked
  refine ⟨⟨⟨origin, by simp, rfl, confined.running⟩, by simp, ?_⟩, rfl⟩
  obtain ⟨-, linking⟩ := Invariant.require_bind_eq_ok.mp linking
  obtain ⟨-, linking⟩ := Invariant.require_bind_eq_ok.mp linking
  obtain ⟨_, streams, same⟩ := Fault.bind_eq_ok.mp linking
  injection same with same
  injection same with _ _ same
  exact same ▸ Stream.holds_of_link streams

namespace Bounded

/-- Another stream of the same length. -/
theorem withStream (bounded : graph.Bounded expanded) {stream : Stream}
    (holds : stream.Holds expanded) : Bounded expanded { graph with stream } := by
  obtain ⟨origin, confined⟩ := bounded.confined
  exact ⟨⟨origin, confined.built, confined.size_eq, confined.running⟩, bounded.linked, holds⟩

/-- What happens to a graph leaves its stream alone once it is linked. -/
theorem aftermath (bounded : graph.Bounded expanded) (found : graph.dispatch = some dispatch)
    (aftermath : graph.Aftermath dispatch after) : after.Bounded expanded := by
  obtain ⟨⟨origin, confined⟩, linked, streamed⟩ := bounded
  have kept := confined.aftermath found aftermath
  cases aftermath with
  | kept | primed | worked | collected => exact ⟨⟨origin, kept⟩, linked, streamed⟩
  | linked stage => exact absurd stage linked
  | started | killed => exact ⟨⟨origin, kept⟩, by simp, streamed⟩

theorem send (bounded : graph.Bounded expanded) (chunk : Chunk) :
    (graph.send chunk).2.Bounded expanded := by
  obtain ⟨origin, confined⟩ := bounded.confined
  obtain ⟨dispatch, found, -⟩ := confined.running
  exact bounded.aftermath found (aftermath_of_send found chunk)

/-- **Whatever is asked of it**, a graph stays bounded. -/
theorem attempt (bounded : graph.Bounded expanded) (call : Call) :
    (graph.attempt call).2.Bounded expanded := by
  obtain ⟨origin, confined⟩ := bounded.confined
  obtain ⟨dispatch, found, -⟩ := confined.running
  rcases graph.attempt_cases call with ⟨wiring, rewired, -⟩ | ⟨batch, rfl⟩ | ⟨event, rfl⟩
  · rw [rewired]
    exact ⟨⟨origin, confined.built, confined.size_eq, confined.running⟩, bounded.linked,
      bounded.streamed⟩
  · exact orElse_of bounded fun after done => absurd (build_ok done).1 confined.built
  · exact bounded.aftermath found (aftermath_of_event found event)

theorem kill (bounded : graph.Bounded expanded) : graph.kill.Bounded expanded :=
  bounded.attempt (.event .kill)

end Bounded

end Graph

/-! ## Phases -/

namespace Phase

variable {phase : Phase} {expanded : Nat}

/-- What can be done to a phase. -/
inductive Deed where
  /-- Something is asked of its graph; its workers may take a step, and its output may be taken. -/
  | ask (call : Graph.Call)
  /-- A slot is taken into its stream. -/
  | input (index : Nat) (slot : Slot)
  /-- A chunk of slots is sent to its graph. -/
  | send (chunk : Chunk)
  /-- It is moved to another state. -/
  | move (target : PhaseState)
  /-- It fails. -/
  | fail
  /-- It is queued. -/
  | claim
  /-- A kernel changes one of the arrays of its stream. -/
  | payload (side : PayloadSide) (change : GroupArray.Change)

/-- The phase after something has been done to it, whether it went through or not. -/
def undergo (phase : Phase) : Deed → Phase
  | .ask call => { phase with graph := (phase.graph.attempt call).2 }
  | .input index slot =>
    match phase.input index slot with
    | .ok taken => taken
    | .error _ => phase
  | .send chunk => (phase.send chunk).phase
  | .move target => (phase.moveTo target).2
  | .fail => phase.fail.2
  | .claim => phase.claim.2
  | .payload side change => phase.withStream (phase.graph.stream.change side change)

/-- Slots that are sent to a graph, and the padding behind them, keep it bounded. -/
theorem bounded_send (bounded : phase.graph.Bounded expanded) (chunk : Chunk) :
    (phase.send chunk).phase.graph.Bounded expanded := by
  show (phase.sendPadded chunk).2.Bounded expanded
  have first := bounded.send chunk
  unfold sendPadded
  split
  case h_1 fault graph sent =>
    rwa [sent] at first
  case h_2 done graph sent =>
    rw [sent] at first
    unfold sendPadding
    split
    case isFalse => exact first
    case isTrue =>
      split
      case h_1 => exact first
      case h_2 => exact first
      case h_3 padding _ => exact first.send padding

/-- **Whatever is done to a phase**, it keeps its kind, and its graph stays bounded. -/
theorem bounded_undergo (bounded : phase.graph.Bounded expanded) (deed : Deed) :
    (phase.undergo deed).kind = phase.kind ∧ (phase.undergo deed).graph.Bounded expanded := by
  cases deed with
  | ask call => exact ⟨rfl, bounded.attempt call⟩
  | input index slot =>
      rw [undergo, input_eq]
      cases taken : phase.graph.stream.input index slot with
      | error error => exact ⟨rfl, bounded⟩
      | ok stream => exact ⟨rfl, bounded.withStream (bounded.streamed.input taken)⟩
  | send chunk => exact ⟨rfl, bounded_send bounded chunk⟩
  | move target =>
      obtain ⟨state, moved⟩ := phase.exists_moveTo_eq target
      rw [undergo, moved]
      exact ⟨rfl, bounded⟩
  | fail =>
      obtain ⟨state, failed⟩ := phase.exists_fail_eq
      rw [undergo, failed]
      exact ⟨rfl, bounded⟩
  | claim => exact ⟨rfl, bounded⟩
  | payload side change => exact ⟨rfl, bounded.withStream (bounded.streamed.change side change)⟩

end Phase

/-! ## Rounds -/

namespace Round

variable {origin round : Round} {phase : Phase}

/-- What can be done to a round. -/
inductive Occurrence where
  /-- An event is delivered. -/
  | deliver (tag : String) (event : Event)
  /-- Something is done to one of its phases. -/
  | phase (kind : PhaseKind) (deed : Phase.Deed)
  /-- A kernel changes one of the vectors. -/
  | vector (name : VectorName) (change : GroupArray.Change)
  /-- A kernel replaces the value shared by all slots. -/
  | shared (value : Nat)
  /-- A kernel replaces the key of the ciphertexts. -/
  | key (value : Nat)
  /-- A list is to be the new arrangement of the real slots. -/
  | permute (targets : List Nat)
  /-- The real slots are shuffled. -/
  | shuffle (tape : Tape)
  /-- All secrets are overwritten. -/
  | erase
  /-- It fails. -/
  | fail (error : RoundError)
  /-- Its graphs are stopped. -/
  | kill

/-- The round with a buffer that has been written to. -/
def written (round : Round) (write : RoundBuffer.Write) : Round :=
  { round with buffer := round.buffer.write write }

/-- The round after something has been done to it, whether it went through or not. -/
def undergo (round : Round) : Occurrence → Round
  | .deliver tag event => (round.deliver tag event).round
  | .phase kind deed =>
    match round.phase? kind with
    | some phase => round.setPhase (phase.undergo deed)
    | none => round
  | .vector name change => round.written (.vector name change.apply)
  | .shared value => round.written (.shared value)
  | .key value => round.written (.key value)
  | .permute targets => round.written (.permutation targets)
  | .shuffle tape => round.written (.shuffle tape)
  | .erase => round.written .erase
  | .fail error => (round.fail error).2
  | .kill => round.kill

/-- The round after everything in a list has been done to it. -/
def undergoes (round : Round) (occurrences : List Occurrence) : Round :=
  occurrences.foldl undergo round

/-- One round comes from another by what has been done to it. -/
def Reaches (round after : Round) : Prop :=
  ∃ occurrences : List Occurrence, round.undergoes occurrences = after

theorem Reaches.refl (round : Round) : round.Reaches round := ⟨[], rfl⟩

/-- What the kernels and the transmitter of a phase look up slots in. -/
def workspace (round : Round) (phase : Phase) : Workspace where
  stream := phase.graph.stream
  buffer := round.buffer

/-- A chunk that a phase hands out: a kernel is called on it, or it is read from the sink. -/
inductive Hands (round : Round) (kind : PhaseKind) (chunk : Chunk) : Prop
  /-- A call of a kernel has begun. -/
  | called {phase : Phase} {dispatch : Dispatch} {module : Nat}
      (found : round.phase? kind = some phase) (running : phase.graph.dispatch = some dispatch)
      (begun : .called module chunk ∈ dispatch.journal)
  /-- It can be read from the sink. -/
  | read {phase : Phase} {after : Graph} (found : round.phase? kind = some phase)
      (taking : phase.graph.takeOutput = .ok (.chunk chunk, after))

/-- A round finds a phase of each of its kinds. -/
theorem exists_phase?_of_mem {kind : PhaseKind} (known : kind ∈ round.phases.map Phase.kind) :
    ∃ phase, round.phase? kind = some phase := by
  obtain ⟨phase, member, kind_eq⟩ := List.mem_map.mp known
  cases found : round.phase? kind with
  | none => exact absurd kind_eq (by simpa using List.find?_eq_none.mp found phase member)
  | some other => exact ⟨other, rfl⟩

/-- The expanded size of the phase of a kind. -/
def roomOf (round : Round) (kind : PhaseKind) : Nat :=
  ((round.phase? kind).map fun phase => phase.graph.expandedSize).getD 0

/-- What a round keeps of another that it comes from: its phases have the same kinds, no response
names another kind, the graph of each phase is bounded by its room, and the buffer has as many slots
as any of them. -/
structure Fits (origin round : Round) : Prop where
  kinds_eq : round.phases.map Phase.kind = origin.phases.map Phase.kind
  known : ∀ kind ∈ round.responses.mentioned, kind ∈ origin.phases.map Phase.kind
  bounded : ∀ kind phase, round.phase? kind = some phase → phase.graph.Bounded (origin.roomOf kind)
  roomy : ∀ kind ∈ origin.phases.map Phase.kind, origin.roomOf kind ≤ origin.buffer.expandedSize
  keeps : round.buffer.Keeps origin.buffer.batchSize origin.buffer.expandedSize
  vectors : ∀ name, (round.buffer.vector name).size = origin.buffer.expandedSize
  holds_batch : origin.buffer.batchSize ≤ origin.buffer.expandedSize

namespace Fits

/-- A phase is replaced by one of the same kind. -/
theorem setPhase (fits : Fits origin round)
    (bounded : phase.graph.Bounded (origin.roomOf phase.kind)) :
    Fits origin (round.setPhase phase) := by
  refine ⟨(kinds_setPhase _ _).trans fits.kinds_eq, fits.known, ?_, fits.roomy, fits.keeps,
    fits.vectors, fits.holds_batch⟩
  intro kind there found
  rw [phase?_setPhase] at found
  split at found
  case isTrue same =>
    obtain ⟨_, -, rfl⟩ := Option.map_eq_some_iff.mp found
    exact same ▸ bounded
  case isFalse => exact fits.bounded kind there found

/-- The buffer is written to, and no vector changes its length. -/
theorem written (fits : Fits origin round) (write : RoundBuffer.Write)
    (vectors : ∀ name, ((round.buffer.write write).vector name).size = origin.buffer.expandedSize) :
    Fits origin (round.written write) :=
  ⟨fits.kinds_eq, fits.known, fits.bounded, fits.roomy, fits.keeps.write fits.holds_batch write,
    vectors, fits.holds_batch⟩

/-- An event that is delivered. -/
theorem deliver (fits : Fits origin round) (tag : String) (event : Event) :
    Fits origin (round.deliver tag event).round := by
  rcases round.deliver_cases tag event with ⟨error, refused⟩ | ⟨-, target, -, found, drives⟩
  · rw [refused]
    exact fits
  · generalize round.deliver tag event = delivery at drives
    have bounded := fits.bounded target.kind target found
    cases drives with
    | misplaced | unready => exact fits
    | spoiled range taken refused =>
        refine Fits.setPhase fits ?_
        exact bounded.withStream (bounded.streamed.inputAll taken)
    | crashed range taken failed | sent range taken accepted =>
        have streamed := bounded.withStream (bounded.streamed.inputAll taken)
        exact Fits.setPhase fits (Phase.bounded_send streamed _)
    | started => exact Fits.setPhase fits bounded
    | verified => exact Fits.setPhase fits bounded

/-- **Whatever is done to a round, it fits.** -/
theorem undergo (fits : Fits origin round) (occurrence : Occurrence) :
    Fits origin (round.undergo occurrence) := by
  cases occurrence with
  | deliver tag event => exact fits.deliver tag event
  | phase kind deed =>
      rw [Round.undergo]
      cases found : round.phase? kind with
      | none => exact fits
      | some phase =>
          obtain ⟨kind_eq, bounded⟩ := Phase.bounded_undergo (fits.bounded kind phase found) deed
          refine Fits.setPhase fits ?_
          rwa [kind_eq, kind_of_phase? found]
  | vector name change =>
      refine fits.written _ fun other => ?_
      rw [RoundBuffer.size_vector_write, fits.vectors]
  | shared value => exact fits.written _ fits.vectors
  | key value => exact fits.written _ fits.vectors
  | permute targets =>
      refine fits.written _ fun name => ?_
      rw [RoundBuffer.write]
      rcases round.buffer.setPermutation_cases targets with ⟨-, taken⟩ | ⟨-, refused⟩
      · rw [taken]
        exact fits.vectors name
      · rw [refused]
        exact fits.vectors name
  | shuffle tape => exact fits.written _ fits.vectors
  | erase =>
      refine fits.written _ fun name => ?_
      show (round.buffer.erase.vector name).size = origin.buffer.expandedSize
      rw [RoundBuffer.erase, RoundBuffer.size_vector_create, fits.keeps.expanded_eq,
        fits.keeps.batch_eq, max_eq_left fits.holds_batch]
  | fail error =>
      rw [Round.undergo, Round.fail]
      split
      case isTrue => exact fits
      case isFalse =>
        exact ⟨fits.kinds_eq, fits.known, fits.bounded, fits.roomy, fits.keeps, fits.vectors,
          fits.holds_batch⟩
  | kill =>
      have kinds_eq : round.kill.phases.map Phase.kind = round.phases.map Phase.kind := by
        simp [Round.kill, Function.comp_def]
      refine ⟨kinds_eq.trans fits.kinds_eq, fits.known, ?_, fits.roomy, fits.keeps, fits.vectors,
        fits.holds_batch⟩
      intro kind phase found
      rw [Round.undergo, phase?_kill] at found
      obtain ⟨former, there, rfl⟩ := Option.map_eq_some_iff.mp found
      exact (fits.bounded kind former there).kill

theorem reaches (fits : Fits origin round) {after : Round} (reaches : round.Reaches after) :
    Fits origin after := by
  obtain ⟨occurrences, rfl⟩ := reaches
  induction occurrences generalizing round with
  | nil => exact fits
  | cons occurrence rest ih => exact ih (fits.undergo occurrence)

/-- The kinds of its phases are those of the round it comes from. -/
theorem mem_kinds (fits : Fits origin round) {kind : PhaseKind}
    (found : round.phase? kind = some phase) : kind ∈ origin.phases.map Phase.kind := by
  rw [← fits.kinds_eq, ← kind_of_phase? found]
  exact List.mem_map_of_mem (mem_of_phase? found)

/-- Everything that a phase looks up slots in has the slots of its room. -/
theorem holds (fits : Fits origin round) {kind : PhaseKind}
    (found : round.phase? kind = some phase) :
    (round.workspace phase).Holds (origin.roomOf kind) := by
  have within := fits.roomy kind (fits.mem_kinds found)
  refine ⟨(fits.bounded kind phase found).streamed, fun name => ?_, ?_⟩
  · exact within.trans_eq (fits.vectors name).symm
  · exact within.trans_eq (fits.keeps.size_permutation fits.holds_batch).symm

end Fits

/-! ## Creation -/

/-- No response of a round that passed the checks names a kind without a phase. -/
theorem known_of_checkPhases {phases : List Phase} {responses : ResponseMap}
    (checked : checkPhases phases responses = .ok ()) :
    ∀ kind ∈ responses.mentioned, kind ∈ phases.map Phase.kind := by
  unfold checkPhases at checked
  dsimp only at checked
  split at checked
  case h_1 => cases checked
  case h_2 =>
    split at checked
    case h_1 => cases checked
    case h_2 unknown =>
      intro kind member
      simpa using List.find?_eq_none.mp unknown kind member

/-- **A round that has been created fits.** -/
theorem fits_of_create {group : CyclicGroup} {id batchSize : Nat} {topology : Topology}
    {phases : List Phase} {responses : ResponseMap}
    (made : create group id topology batchSize phases responses = .ok round) :
    Fits round round := by
  obtain ⟨checked, built, linked, building, linking, rfl⟩ := create_eq_ok made
  have builds := buildPhases_embeds building
  have links := linkPhases_embeds linking
  -- Every phase has a graph that was built for the batch and linked to the buffer.
  have origin (phase : Phase) (member : phase ∈ linked) :
      phase.graph.Bounded phase.graph.expandedSize ∧ phase.graph.expandedSize ≤
        (RoundBuffer.create group batchSize (expandedSize batchSize built)).expandedSize := by
    obtain ⟨between, between_mem, graph, binding, rfl, linked⟩ := links.origin phase member
    obtain ⟨declared, -, start, _, rfl, made⟩ := builds.origin between between_mem
    obtain ⟨bounded, size_eq⟩ := Graph.bounded_of_link made linked
    have enough := Graph.le_of_link linked
    rw [← size_eq] at bounded enough
    exact ⟨bounded, enough⟩
  have room_eq {round : Round} {kind : PhaseKind} {phase : Phase}
      (found : round.phase? kind = some phase) : round.roomOf kind = phase.graph.expandedSize := by
    rw [roomOf, found]
    rfl
  refine ⟨rfl, ?_, ?_, ?_, ⟨rfl, rfl, RoundBuffer.isPermutation_create _ _ _⟩,
    RoundBuffer.size_vector_create _ _ _, Nat.le_max_right _ _⟩
  · show ∀ kind ∈ responses.mentioned, kind ∈ linked.map Phase.kind
    rw [links.kinds_eq, builds.kinds_eq]
    exact known_of_checkPhases checked
  · intro kind phase found
    rw [room_eq found]
    exact (origin phase (mem_of_phase? found)).1
  · intro kind known
    obtain ⟨phase, found⟩ := exists_phase?_of_mem known
    rw [room_eq found]
    exact (origin phase (mem_of_phase? found)).2

/-! ## Deliveries -/

/-- A tag of a round that fits leads to a phase, or to a refusal for another reason. -/
theorem Fits.route_ne (fits : Fits origin round) (tag : String) (kind : PhaseKind) :
    round.route tag ≠ .error (.unknownPhase kind) := by
  intro refused
  unfold route at refused
  split at refused
  case h_1 => cases refused
  case h_2 response found =>
    obtain ⟨entry, among, rfl⟩ := Option.map_eq_some_iff.mp found
    have named (mentioned : PhaseKind) (one : mentioned ∈ [entry.2.source, entry.2.target]) :
        ∃ phase, round.phase mentioned = .ok phase := by
      have known := fits.known mentioned
        (List.mem_flatMap.mpr ⟨entry, List.mem_of_find?_eq_some among, one⟩)
      obtain ⟨phase, there⟩ := exists_phase?_of_mem (fits.kinds_eq ▸ known)
      exact ⟨phase, by rw [Round.phase, there]⟩
    obtain ⟨source, source_eq⟩ := named entry.2.source (by simp)
    obtain ⟨target, target_eq⟩ := named entry.2.target (by simp)
    rw [source_eq, Fault.ok_bind] at refused
    split at refused
    case isTrue =>
      rw [target_eq] at refused
      cases refused
    case isFalse => cases refused

theorem slotRange_ne (slots : List Slot) (batchSize : Nat) (kind : PhaseKind) :
    slotRange slots batchSize ≠ .error (.error (.unknownPhase kind)) := by
  intro refused
  have ranges := slotRange_ranges slots batchSize
  rw [refused] at ranges
  cases ranges

/-- **No delivery finds a phase unknown.** -/
theorem Fits.deliver_ne (fits : Fits origin round) (tag : String) (event : Event)
    (kind : PhaseKind) :
    (round.deliver tag event).outcome ≠ .error (.error (.unknownPhase kind)) := by
  intro unknown
  rw [Round.deliver] at unknown
  split at unknown
  case isTrue => cases unknown
  case isFalse =>
    split at unknown
    case h_1 error routed =>
      injection unknown with unknown
      injection unknown with same
      exact fits.route_ne tag kind (same ▸ routed)
    case h_2 target routed =>
      have drives := round.drive_cases target event
      generalize round.drive target event = delivery at drives unknown
      cases drives with
      | misplaced refused =>
          injection unknown with same
          exact slotRange_ne _ _ kind (same ▸ refused)
      | spoiled | crashed | sent | started | unready | verified => cases unknown

/-! ## The law of indices -/

/-- What a phase hands out lies in the batch of the phase. -/
theorem Fits.stop_le (fits : Fits origin round) {kind : PhaseKind} {chunk : Chunk}
    (hands : round.Hands kind chunk) :
    kind ∈ origin.phases.map Phase.kind ∧ chunk.stop ≤ origin.roomOf kind := by
  cases hands with
  | @called phase dispatch module found running begun =>
      obtain ⟨_, confined⟩ := (fits.bounded kind phase found).confined
      obtain ⟨_, same, kept⟩ := confined.running
      obtain rfl := Option.some.inj (same.symm.trans running)
      exact ⟨fits.mem_kinds found, kept.journal _ begun⟩
  | @read phase after found taking =>
      obtain ⟨_, confined⟩ := (fits.bounded kind phase found).confined
      exact ⟨fits.mem_kinds found, confined.taken taking⟩

/-- **The indices that a round hands out are in range.**  Creating a round never finds its buffer
too short.  If it goes through, then whatever is done to the round, no delivery finds a phase
unknown; everything that a phase can look up slots in has the slots of its expanded batch; and a
chunk that a kernel is called on, or that is read from the sink, lies in that batch, so that all its
slots can be used as long as the round is there. -/
theorem indices_in_range (group : CyclicGroup) (id : Nat) (topology : Topology) (batchSize : Nat)
    (phases : List Phase) (responses : ResponseMap) :
    (∀ context, create group id topology batchSize phases responses ≠
      .error (.fault (Graph.shortBuffer context))) ∧
    ∀ round, create group id topology batchSize phases responses = .ok round →
      ∀ before, round.Reaches before →
        (∀ tag event kind,
          (before.deliver tag event).outcome ≠ .error (.error (.unknownPhase kind))) ∧
        (∀ kind phase, before.phase? kind = some phase →
          phase.graph.expandedSize = round.roomOf kind ∧
            (before.workspace phase).Holds (round.roomOf kind)) ∧
        ∀ kind chunk, before.Hands kind chunk → chunk.stop ≤ round.roomOf kind ∧
          ∀ after, before.Reaches after → ∃ phase, after.phase? kind = some phase ∧
            ∀ slot ∈ chunk.slots, (after.workspace phase).Serves slot := by
  constructor
  · intro context blamed
    have spared := spares_assemble group id topology batchSize phases responses
    rw [create] at blamed
    split at blamed
    case h_1 => cases blamed
    case h_2 =>
      cases assembled : assemble group id topology batchSize phases responses with
      | ok round => simp [assembled, Except.mapError] at blamed
      | error fault =>
          rw [assembled] at blamed
          injection blamed with same
          injection same with same
          exact spared context (same ▸ assembled)
  · intro round made before came
    have fits : Fits round before := (fits_of_create made).reaches came
    refine ⟨fits.deliver_ne, fun kind phase found => ?_, fun kind chunk hands => ?_⟩
    · obtain ⟨_, confined⟩ := (fits.bounded kind phase found).confined
      exact ⟨confined.size_eq, fits.holds found⟩
    · obtain ⟨known, inside⟩ := fits.stop_le hands
      refine ⟨inside, fun after goes => ?_⟩
      have later : Fits round after := fits.reaches goes
      obtain ⟨phase, found⟩ := exists_phase?_of_mem (later.kinds_eq ▸ known)
      refine ⟨phase, found, fun slot member => (later.holds found).serves ?_⟩
      exact (Chunk.mem_slots.mp member).2.trans_le inside

/-- A phase over payloads, with a module that works on a number of slots at a time. -/
def samplePhase (kind : PhaseKind) (unit : Nat) : Phase :=
  .create kind
    { Node.sampleGraph with
      wiring := { Node.sampleGraph.wiring with
        modules := [{ ModuleSpec.plain "only" .idle with assignmentSize := unit }] } }
    .drain none false

/-- A round of five slots, which make six in its first phase and five in its second. -/
def sampleCreated : Except (Failure RoundError) Round :=
  create ⟨257, 3⟩ 1 ⟨[⟨"local"⟩], 0⟩ 5
    [samplePhase .realDecrypt 3, samplePhase .realPermute 5] .empty

/-- All slots are sent to the first phase, and its worker begins its second call, from which it
writes. -/
def sampleCalls : List Occurrence :=
  ([Graph.Event.start, .send ⟨0, 6, by decide, by decide⟩] ++
    [Dispatch.Step.take 0, .enter 0, .leave 0 (.ok ()), .proceed 0, .proceed 0, .proceed 0, .take 0,
      .enter 0].map Graph.Event.work).map
        (fun event => .phase .realDecrypt (.ask (.event event))) ++
  [.phase .realDecrypt (.payload .a (.fill 2)), .vector ⟨.direct, .r⟩ (.update 3 .ok)]

/-- The slots of that call, the last of which is padding. -/
def sampleHanded : Chunk := { start := 3, stop := 6 }

/-- The second call covers a slot that the other phase does not have. -/
theorem indices_in_range_sample :
    ∃ round before, sampleCreated = .ok round ∧ round.Reaches before ∧
      round.roomOf .realDecrypt = 6 ∧ round.roomOf .realPermute = 5 ∧
      before.Hands .realDecrypt sampleHanded ∧ ∃ phase, before.phase? .realDecrypt = some phase ∧
        ∀ slot ∈ sampleHanded.slots, (before.workspace phase).Serves slot := by
  have runs : (sampleCreated.toOption.any fun round => decide (round.roomOf .realDecrypt = 6 ∧
      round.roomOf .realPermute = 5) &&
      ((round.undergoes sampleCalls).phase? .realDecrypt).any fun phase =>
        phase.graph.dispatch.any fun dispatch =>
          decide ((0, sampleHanded) ∈ dispatch.calls)) = true := by
    decide +kernel
  obtain ⟨round, answer, checked⟩ := (Option.any_eq_true _ _).mp runs
  have created := Graph.eq_ok_of_toOption answer
  obtain ⟨rooms, ends⟩ := Bool.and_eq_true_iff.mp checked
  obtain ⟨first, second⟩ := of_decide_eq_true rooms
  obtain ⟨phase, found, ends⟩ := (Option.any_eq_true _ _).mp ends
  obtain ⟨dispatch, running, calls⟩ := (Option.any_eq_true _ _).mp ends
  have begun : Observation.called 0 sampleHanded ∈ dispatch.journal := by
    obtain ⟨observation, member, called⟩ := List.mem_filterMap.mp (of_decide_eq_true calls)
    cases observation <;> simp at called
    obtain ⟨rfl, rfl⟩ := called
    exact List.mem_reverse.mp member
  have hands : (round.undergoes sampleCalls).Hands .realDecrypt sampleHanded :=
    .called found running begun
  obtain ⟨-, law⟩ := indices_in_range ⟨257, 3⟩ 1 ⟨[⟨"local"⟩], 0⟩ 5
    [samplePhase .realDecrypt 3, samplePhase .realPermute 5] .empty
  obtain ⟨-, -, served⟩ := law round created _ ⟨sampleCalls, rfl⟩
  exact ⟨round, _, created, ⟨sampleCalls, rfl⟩, first, second, hands,
    (served _ _ hands).2 _ (.refl _)⟩

end Round

end Mixnet
