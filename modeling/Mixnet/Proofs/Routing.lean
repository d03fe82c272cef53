import Mathlib.Data.List.Nodup
import Mathlib.Logic.Relation
import Mixnet.Round

/-!
# What an event makes of a round

An event reaches a phase through the responses of its round, and acts on that phase alone.  This
file says once how a delivery can end and what it has changed by then, and what a round is when it
has just been created.

## Main definitions

* `Round.Distinct`: a round with at most one phase of each kind
* `Stream.inputAll`: slots taken into a stream one after the other
* `Round.Drives`: the ways in which an event can drive a phase
* `Round.Embeds`: phases that were made of others

## Main statements

* `Round.phase?_setPhase`: replacing a phase changes nothing but the phase of its kind
* `Round.inputSlots_cases`: slots are taken up to the first that is refused
* `Round.deliver_cases`: an event is refused, or drives the phase that its tag leads to
* `Round.create_spec`: the phases of a new round are those it was given, with their graphs built
* `Round.binding_of_create`: they are bound to it
-/

namespace Mixnet

/-- A stream after slots were taken into it one after the other, or the error of the first that was
refused. -/
def Stream.inputAll (stream : Stream) : List Slot → Except StreamError Stream
  | [] => .ok stream
  | slot :: rest =>
    match stream.input slot.index slot with
    | .error error => .error error
    | .ok taken => taken.inputAll rest

namespace Phase

/-- The phase with another stream for its graph. -/
def withStream (phase : Phase) (stream : Stream) : Phase :=
  { phase with graph := { phase.graph with stream } }

theorem withStream_self (phase : Phase) : phase.withStream phase.graph.stream = phase := rfl

theorem input_eq (phase : Phase) (index : Nat) (slot : Slot) :
    phase.input index slot = (phase.graph.stream.input index slot).map phase.withStream := by
  rw [input]
  cases phase.graph.stream.input index slot <;> rfl

/-- A move along an edge of the lifecycle is made. -/
theorem moveTo_eq {phase : Phase} {target : PhaseState}
    (edge : phase.state.canMoveTo target = true) :
    phase.moveTo target = (.ok true, { phase with state := target }) := by
  have sound : phase.state ≠ .error := by
    intro failed
    rw [failed] at edge
    cases edge
  rw [moveTo, if_neg sound, if_pos edge]

end Phase

namespace Round

variable {round : Round} {phase target : Phase} {kind : PhaseKind} {slots : List Slot}

/-! ## One phase among others -/

/-- A round with at most one phase of each kind. -/
def Distinct (round : Round) : Prop := (round.phases.map Phase.kind).Nodup

/-- A phase of a round has the kind it was asked for. -/
theorem kind_of_phase? (found : round.phase? kind = some phase) : phase.kind = kind := by
  have matched := List.find?_some found
  exact of_decide_eq_true matched

theorem mem_of_phase? (found : round.phase? kind = some phase) : phase ∈ round.phases :=
  List.mem_of_find?_eq_some found

/-- **Replacing a phase changes nothing but the phase of its kind.** -/
theorem phase?_setPhase (round : Round) (phase : Phase) (kind : PhaseKind) :
    (round.setPhase phase).phase? kind =
      if kind = phase.kind then (round.phase? kind).map fun _ => phase else round.phase? kind := by
  have same_kind (other : Phase) :
      (if other.kind = phase.kind then phase else other).kind = other.kind := by
    split
    case isTrue same => exact same.symm
    case isFalse => rfl
  rw [phase?, setPhase, List.find?_map]
  simp only [Function.comp_def, same_kind]
  rw [← phase?]
  cases found : round.phase? kind with
  | none => simp
  | some other =>
      have other_kind : other.kind = kind := kind_of_phase? found
      by_cases same : kind = phase.kind <;> simp [other_kind, same]

@[simp] theorem kinds_setPhase (round : Round) (phase : Phase) :
    (round.setPhase phase).phases.map Phase.kind = round.phases.map Phase.kind := by
  rw [setPhase, List.map_map]
  apply List.map_congr_left
  intro other _
  rw [Function.comp_apply]
  split
  case isTrue same => exact same.symm
  case isFalse => rfl

/-- Putting a phase where it is changes nothing. -/
theorem setPhase_self (distinct : round.Distinct) (found : round.phase? kind = some phase) :
    round.setPhase phase = round := by
  have same (other : Phase) (member : other ∈ round.phases) :
      (if other.kind = phase.kind then phase else other) = other := by
    split
    case isTrue same =>
      exact (List.inj_on_of_nodup_map distinct member (mem_of_phase? found) same).symm
    case isFalse => rfl
  rw [setPhase, List.map_congr_left same, List.map_id']

/-! ## Deliveries -/

/-- **Slots are taken up to the first that is refused.** -/
theorem inputSlots_cases (target : Phase) (slots : List Slot) :
    (∃ stream, target.graph.stream.inputAll slots = .ok stream ∧
        inputSlots target slots = (.ok (), target.withStream stream)) ∨
      ∃ accepted bad rest stream error, slots = accepted ++ bad :: rest ∧
        target.graph.stream.inputAll accepted = .ok stream ∧
        stream.input bad.index bad = .error error ∧
        inputSlots target slots = (.error error, target.withStream stream) := by
  induction slots generalizing target with
  | nil => exact Or.inl ⟨_, rfl, rfl⟩
  | cons slot slots ih =>
      rw [inputSlots, Stream.inputAll, Phase.input_eq]
      cases first : target.graph.stream.input slot.index slot with
      | error error =>
          exact Or.inr ⟨[], slot, slots, target.graph.stream, error, rfl, rfl, first, rfl⟩
      | ok taken =>
          rcases ih (target.withStream taken) with ⟨stream, all, done⟩ |
            ⟨accepted, bad, rest, stream, error, rfl, all, refused, done⟩
          · exact Or.inl ⟨stream, all, done⟩
          · refine Or.inr ⟨slot :: accepted, bad, rest, stream, error, rfl, ?_, refused, done⟩
            rw [Stream.inputAll, first]
            exact all

/-- The ways in which an event can drive a phase. -/
inductive Drives (round : Round) (target : Phase) : Event → Delivery → Prop
  /-- The slots do not follow one another inside the batch. -/
  | misplaced {slots : List Slot} {failure : Failure RoundError}
      (refused : slotRange slots round.batchSize = .error failure) :
      Drives round target (.slots slots) (round.refuse failure)
  /-- A slot is refused by the stream, behind others that were taken. -/
  | spoiled {accepted rest : List Slot} {bad : Slot} {chunk : Chunk} {stream : Stream}
      {error : StreamError}
      (range : slotRange (accepted ++ bad :: rest) round.batchSize = .ok chunk)
      (taken : target.graph.stream.inputAll accepted = .ok stream)
      (refused : stream.input bad.index bad = .error error) :
      Drives round target (.slots (accepted ++ bad :: rest))
        ((round.setPhase (target.withStream stream)).refuse (.error (.stream error)))
  /-- The slots are taken, and sending them on is a fault. -/
  | crashed {slots : List Slot} {chunk : Chunk} {stream : Stream} {fault : Fault}
      (range : slotRange slots round.batchSize = .ok chunk)
      (taken : target.graph.stream.inputAll slots = .ok stream)
      (failed : ((target.withStream stream).send chunk).outcome = .error fault) :
      Drives round target (.slots slots)
        { outcome := .error (.fault fault)
          round := round.setPhase ((target.withStream stream).send chunk).phase
          milestones := tagged target.kind ((target.withStream stream).send chunk).milestones
          claimed := none }
  /-- The slots are taken and sent on, and the phase is queued. -/
  | sent {slots : List Slot} {chunk : Chunk} {stream : Stream} {last : Bool}
      (range : slotRange slots round.batchSize = .ok chunk)
      (taken : target.graph.stream.inputAll slots = .ok stream)
      (accepted : ((target.withStream stream).send chunk).outcome = .ok last) :
      Drives round target (.slots slots)
        (round.claimPhase ((target.withStream stream).send chunk).phase
          (tagged target.kind ((target.withStream stream).send chunk).milestones))
  /-- The phase is queued without input. -/
  | started : Drives round target .start (round.claimPhase target [])
  /-- The phase does not wait to be verified. -/
  | unready (elsewhere : target.state ≠ .computed) :
      Drives round target .verify
        (round.refuse (.error (.unexpectedState target.kind target.state [.computed])))
  /-- The phase is verified. -/
  | verified (computed : target.state = .computed) :
      Drives round target .verify
        { outcome := .ok ()
          round := round.setPhase { target with state := .verified }
          milestones := tagged target.kind (target.recorded [.verification])
          claimed := none }

/-- An event drives its target in one of these ways. -/
theorem drive_cases (round : Round) (target : Phase) (event : Event) :
    round.Drives target event (round.drive target event) := by
  cases event with
  | slots slots =>
      rw [drive, deliverSlots]
      cases range : slotRange slots round.batchSize with
      | error failure => exact .misplaced range
      | ok chunk =>
          rcases inputSlots_cases target slots with ⟨stream, taken, done⟩ |
            ⟨accepted, bad, rest, stream, error, rfl, taken, refused, done⟩
          · simp only [done]
            cases sent : ((target.withStream stream).send chunk).outcome with
            | error fault => exact .crashed range taken sent
            | ok last => exact .sent range taken sent
          · simp only [done]
            exact .spoiled range taken refused
  | start => exact .started
  | verify =>
      rw [drive, deliverVerify]
      split
      case isFalse elsewhere => exact .unready elsewhere
      case isTrue computed =>
        have edge : target.state.canMoveTo .verified = true := by
          rw [computed]
          rfl
        rw [Phase.verify, Phase.moveStep, Phase.moveTo_eq edge]
        exact .verified computed

/-- An event finds its phase in the round. -/
theorem route_ok {tag : String} (routed : round.route tag = .ok target) :
    round.phase? target.kind = some target := by
  have of_phase {kind : PhaseKind} (found : round.phase kind = .ok target) :
      round.phase? target.kind = some target := by
    rw [Round.phase] at found
    split at found
    case h_1 other here =>
      injection found with same
      subst same
      rw [kind_of_phase? here]
      exact here
    case h_2 => cases found
  rw [route] at routed
  split at routed
  case h_1 => cases routed
  case h_2 response _ =>
    cases gate : round.phase response.source with
    | error error =>
        rw [gate] at routed
        cases routed
    | ok source =>
        rw [gate] at routed
        simp only [bind, Except.bind] at routed
        split at routed
        case isTrue => exact of_phase routed
        case isFalse => cases routed

/-- **An event is refused, or drives the phase that its tag leads to.** -/
theorem deliver_cases (round : Round) (tag : String) (event : Event) :
    (∃ error, round.deliver tag event = round.refuse (.error error)) ∨
      round.isFailed = false ∧ ∃ target, round.route tag = .ok target ∧
        round.phase? target.kind = some target ∧
        round.Drives target event (round.deliver tag event) := by
  rw [deliver]
  split
  case isTrue => exact Or.inl ⟨_, rfl⟩
  case isFalse live =>
    cases routed : round.route tag with
    | error error => exact Or.inl ⟨error, rfl⟩
    | ok target =>
        rw [Bool.not_eq_true] at live
        exact Or.inr ⟨live, target, rfl, route_ok routed, round.drive_cases target event⟩

/-! ## New rounds -/

theorem nodup_of_firstRepeated {seen kinds : List PhaseKind}
    (unrepeated : firstRepeated seen kinds = none) :
    kinds.Nodup ∧ ∀ kind ∈ kinds, kind ∉ seen := by
  induction kinds generalizing seen with
  | nil => simp
  | cons kind kinds ih =>
      rw [firstRepeated] at unrepeated
      split at unrepeated
      case isTrue => cases unrepeated
      case isFalse fresh =>
        obtain ⟨distinct, apart⟩ := ih unrepeated
        rw [List.contains_iff_mem] at fresh
        have alone : kind ∉ kinds := fun again => apart kind again List.mem_cons_self
        refine ⟨List.nodup_cons.mpr ⟨alone, distinct⟩, ?_⟩
        intro other member
        rcases List.mem_cons.mp member with rfl | later
        · exact fresh
        · exact fun known => apart other later (List.mem_cons_of_mem _ known)

/-- Phases that were made of others, in order: each has the graph that `makes` allows, and its own
binding. -/
structure Embeds (makes : Graph → Graph → Prop) (declared phases : List Phase) : Prop where
  kinds_eq : phases.map Phase.kind = declared.map Phase.kind
  origin : ∀ phase ∈ phases, ∃ other ∈ declared, ∃ graph binding,
    phase = { other with graph, binding } ∧ makes other.graph graph

namespace Embeds

variable {makes later : Graph → Graph → Prop}

theorem nil : Embeds makes [] [] := ⟨rfl, by simp⟩

theorem cons {declared phases : List Phase} (embeds : Embeds makes declared phases) {other : Phase}
    {graph : Graph} (made : makes other.graph graph) (binding : Option PhaseBinding) :
    Embeds makes (other :: declared) ({ other with graph, binding } :: phases) := by
  refine ⟨by simp [embeds.kinds_eq], ?_⟩
  intro phase member
  rcases List.mem_cons.mp member with rfl | later
  · exact ⟨other, List.mem_cons_self, graph, binding, rfl, made⟩
  · obtain ⟨origin, known, found⟩ := embeds.origin phase later
    exact ⟨origin, List.mem_cons_of_mem _ known, found⟩

theorem trans {declared built linked : List Phase} (first : Embeds makes declared built)
    (second : Embeds later built linked) : Embeds (Relation.Comp makes later) declared linked := by
  refine ⟨second.kinds_eq.trans first.kinds_eq, ?_⟩
  intro phase member
  obtain ⟨middle, known, graph, binding, rfl, then_made⟩ := second.origin phase member
  obtain ⟨origin, declared_mem, between, _, rfl, made⟩ := first.origin middle known
  exact ⟨origin, declared_mem, graph, binding, rfl, between, made, then_made⟩

end Embeds

/-- Building a graph for a batch. -/
def Builds (batchSize : Nat) (graph built : Graph) : Prop := graph.build batchSize = .ok built

/-- Linking a graph to a buffer. -/
def Links (buffer : RoundBuffer) (graph linked : Graph) : Prop := graph.link buffer = .ok linked

theorem buildPhases_embeds {batchSize : Nat} {phases built : List Phase}
    (building : buildPhases batchSize phases = .ok built) :
    Embeds (Builds batchSize) phases built := by
  induction phases generalizing built with
  | nil =>
      injection building with same
      subst same
      exact .nil
  | cons phase phases ih =>
      rw [buildPhases] at building
      obtain ⟨graph, made, building⟩ := Fault.bind_eq_ok.mp building
      obtain ⟨rest, rest_built, building⟩ := Fault.bind_eq_ok.mp building
      injection building with same
      subst same
      exact (ih rest_built).cons made phase.binding

theorem linkPhases_embeds {buffer : RoundBuffer} {binding : PhaseBinding}
    {phases linked : List Phase} (linking : linkPhases buffer binding phases = .ok linked) :
    Embeds (Links buffer) phases linked := by
  induction phases generalizing linked with
  | nil =>
      injection linking with same
      subst same
      exact .nil
  | cons phase phases ih =>
      rw [linkPhases] at linking
      obtain ⟨graph, made, linking⟩ := Fault.bind_eq_ok.mp linking
      obtain ⟨bound, binds, linking⟩ := Fault.bind_eq_ok.mp linking
      obtain ⟨rest, rest_linked, linking⟩ := Fault.bind_eq_ok.mp linking
      injection linking with same
      subst same
      rw [Phase.bind] at binds
      obtain ⟨-, binds⟩ := Invariant.require_bind_eq_ok.mp binds
      injection binds with binds
      subst binds
      exact (ih rest_linked).cons made (some binding)

/-- Linking binds every phase. -/
theorem binding_of_linkPhases {buffer : RoundBuffer} {binding : PhaseBinding}
    {phases linked : List Phase} (linking : linkPhases buffer binding phases = .ok linked) :
    ∀ phase ∈ linked, phase.binding = some binding := by
  induction phases generalizing linked with
  | nil =>
      injection linking with same
      subst same
      simp
  | cons phase phases ih =>
      rw [linkPhases] at linking
      obtain ⟨graph, -, linking⟩ := Fault.bind_eq_ok.mp linking
      obtain ⟨bound, binds, linking⟩ := Fault.bind_eq_ok.mp linking
      obtain ⟨rest, rest_linked, linking⟩ := Fault.bind_eq_ok.mp linking
      injection linking with same
      subst same
      rw [Phase.bind] at binds
      obtain ⟨-, binds⟩ := Invariant.require_bind_eq_ok.mp binds
      injection binds with binds
      subst binds
      exact List.forall_mem_cons.mpr ⟨rfl, ih rest_linked⟩

/-- What a round is made of that has been created. -/
theorem create_eq_ok {group : CyclicGroup} {id batchSize : Nat} {topology : Topology}
    {phases : List Phase} {responses : ResponseMap}
    (made : create group id topology batchSize phases responses = .ok round) :
    checkPhases phases responses = .ok () ∧ ∃ built linked,
      buildPhases batchSize phases = .ok built ∧
      linkPhases (RoundBuffer.create group batchSize (expandedSize batchSize built))
        { roundId := id, batchSize } built = .ok linked ∧
      round = ⟨id, topology, batchSize,
        RoundBuffer.create group batchSize (expandedSize batchSize built), linked, responses,
        none⟩ := by
  rw [create] at made
  split at made
  case h_1 => cases made
  case h_2 _ checked =>
    refine ⟨checked, ?_⟩
    cases assembled : assemble group id topology batchSize phases responses with
    | error fault =>
        rw [assembled] at made
        cases made
    | ok fresh =>
        rw [assembled] at made
        injection made with same
        subst same
        rw [assemble] at assembled
        obtain ⟨built, building, assembled⟩ := Fault.bind_eq_ok.mp assembled
        obtain ⟨linked, linking, assembled⟩ := Fault.bind_eq_ok.mp assembled
        injection assembled with same
        exact ⟨built, linked, building, linking, same.symm⟩

/-- **The phases of a new round are those it was given**, each of another kind, with graphs that
have been built and linked, and the round has not failed. -/
theorem create_spec {group : CyclicGroup} {id batchSize : Nat} {topology : Topology}
    {phases : List Phase} {responses : ResponseMap}
    (made : create group id topology batchSize phases responses = .ok round) :
    round.Distinct ∧ round.failure = none ∧ ∃ buffer,
      Embeds (Relation.Comp (Builds batchSize) (Links buffer)) phases round.phases := by
  obtain ⟨checked, built, linked, building, linking, rfl⟩ := create_eq_ok made
  have embeds := (buildPhases_embeds building).trans (linkPhases_embeds linking)
  refine ⟨?_, rfl, _, embeds⟩
  rw [checkPhases] at checked
  split at checked
  case h_1 => cases checked
  case h_2 unrepeated =>
    rw [Distinct, embeds.kinds_eq]
    exact (nodup_of_firstRepeated unrepeated).1

/-- The phases of a new round are bound to it. -/
theorem binding_of_create {group : CyclicGroup} {id batchSize : Nat} {topology : Topology}
    {phases : List Phase} {responses : ResponseMap}
    (made : create group id topology batchSize phases responses = .ok round) :
    ∀ phase ∈ round.phases, phase.binding = some { roundId := id, batchSize } := by
  obtain ⟨-, built, linked, -, linking, rfl⟩ := create_eq_ok made
  exact binding_of_linkPhases linking

end Round

end Mixnet
