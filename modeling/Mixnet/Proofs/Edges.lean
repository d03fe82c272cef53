import Mixnet.Proofs.NodePlay

/-!
# Every history of a phase

The moves of a phase share one table of edges, and each of them aims at a state of its own.  This
file follows a phase through any sequence of moves, up to the first that is a fault, and says which
edges it can have taken, what each call answers, and which milestones it has passed in the end.

## Main definitions

* `Phase.Call`: the calls that move a phase
* `Phase.history`: the calls of a sequence that are made, each with the phase it finds
* `Phase.Made.Lawful`: what holds of each of them

## Main statements

* `Phase.Made.lawful`: a call on a phase that has not gone off its course is lawful, and keeps the
  phase on it
* `Phase.lawful_history`: the law of every history
* `Phase.verified_unfinished`: `verify` takes an active phase to `verified`, although it waits for a
  peer

## Design notes

What a call on its own decides, and what needs the calls before it, are kept apart.  The one thing
that a call needs of its past is that a phase that no peer has to verify has not come to be
`computed`.
-/

namespace Mixnet

/-- From every state but the two final ones a phase can fail. -/
theorem PhaseState.canMoveTo_error (state : PhaseState) :
    state.canMoveTo .error = true ↔ state ≠ .error ∧ state ≠ .verified := by
  cases state <;> decide

/-- The edges into `verified`. -/
theorem PhaseState.canMoveTo_verified (state : PhaseState) :
    state.canMoveTo .verified = true ↔ state = .active ∨ state = .computed := by
  cases state <;> decide

/-- No edge leads out of a final state. -/
theorem PhaseState.canMoveTo_of_final {state : PhaseState}
    (final : state = .error ∨ state = .verified) (target : PhaseState) :
    state.canMoveTo target = false := by
  rcases final with failed | verified
  · rw [failed]
    cases target <;> rfl
  · rw [verified]
    cases target <;> rfl

/-- No edge leads from a state to itself. -/
theorem PhaseState.ne_of_canMoveTo {state target : PhaseState}
    (edge : state.canMoveTo target = true) : target ≠ state := by
  intro same
  rw [same] at edge
  cases state <;> cases edge

namespace Phase

/-! ## Calls -/

/-- The calls that move a phase. -/
inductive Call where
  | activate
  | finalize
  | verify
  | fail
deriving DecidableEq

/-- What a call answers.  To fail is never a fault, and passes no milestone. -/
def call (phase : Phase) : Call → PhaseStep
  | .activate => phase.activate
  | .finalize => phase.finalize
  | .verify => phase.verify
  | .fail => { outcome := .ok phase.fail.1, phase := phase.fail.2, milestones := [] }

/-- The state that a call aims at. -/
def goal (phase : Phase) : Call → PhaseState
  | .activate => .active
  | .finalize => if phase.verification then .computed else .verified
  | .verify => .verified
  | .fail => .error

/-- A call that was made, and the phase it found. -/
structure Made where
  /-- The phase before the call. -/
  before : Phase
  /-- The call. -/
  call : Call

/-- What the call answered. -/
def Made.step (made : Made) : PhaseStep := made.before.call made.call

/-- The state that the call left the phase in. -/
def Made.reached (made : Made) : PhaseState := made.step.phase.state

/-- The calls of a sequence that are made: all of them, or those up to the first that is a fault. -/
def history (phase : Phase) : List Call → List Made
  | [] => []
  | call :: rest =>
    ⟨phase, call⟩ :: match (phase.call call).outcome with
      | .ok _ => (phase.call call).phase.history rest
      | .error _ => []

/-- The phase that a sequence of calls leads to. -/
def outcomeOf (phase : Phase) : List Call → Phase
  | [] => phase
  | call :: rest => match (phase.call call).outcome with
    | .ok _ => (phase.call call).phase.outcomeOf rest
    | .error _ => (phase.call call).phase

/-- The milestones that a sequence of calls passes. -/
def passed (phase : Phase) (calls : List Call) : List Milestone :=
  (phase.history calls).flatMap fun made => made.step.milestones

variable {phase : Phase} {calls : List Call}

@[simp] theorem history_nil : phase.history [] = [] := rfl

@[simp] theorem outcomeOf_nil : phase.outcomeOf [] = phase := rfl

@[simp] theorem passed_nil : phase.passed [] = [] := rfl

section Cons

variable {call : Call}

theorem history_cons_of_ok {changed : Bool} (done : (phase.call call).outcome = .ok changed) :
    phase.history (call :: calls) = ⟨phase, call⟩ :: (phase.call call).phase.history calls := by
  rw [history, done]

theorem history_cons_of_error {fault : Fault} (stopped : (phase.call call).outcome = .error fault) :
    phase.history (call :: calls) = [⟨phase, call⟩] := by
  rw [history, stopped]

theorem outcomeOf_cons_of_ok {changed : Bool} (done : (phase.call call).outcome = .ok changed) :
    phase.outcomeOf (call :: calls) = (phase.call call).phase.outcomeOf calls := by
  rw [outcomeOf, done]

theorem outcomeOf_cons_of_error {fault : Fault}
    (stopped : (phase.call call).outcome = .error fault) :
    phase.outcomeOf (call :: calls) = (phase.call call).phase := by
  rw [outcomeOf, stopped]

theorem passed_cons_of_ok {changed : Bool} (done : (phase.call call).outcome = .ok changed) :
    phase.passed (call :: calls) =
      (phase.call call).milestones ++ (phase.call call).phase.passed calls := by
  rw [passed, history_cons_of_ok done, List.flatMap_cons]
  rfl

theorem passed_cons_of_error {fault : Fault} (stopped : (phase.call call).outcome = .error fault) :
    phase.passed (call :: calls) = (phase.call call).milestones := by
  rw [passed, history_cons_of_error stopped, List.flatMap_cons, List.flatMap_nil, List.append_nil]
  rfl

end Cons

/-! ## One call -/

/-- The three ways in which a call can end: it takes an edge, it is refused, or it is a fault. -/
inductive Ends (phase : Phase) (call : Call) : Prop where
  /-- The edge is there, and the call takes it. -/
  | moved (edge : phase.state.canMoveTo (phase.goal call) = true)
      (answer : phase.call call = {
        outcome := .ok true
        phase := { phase with state := phase.goal call }
        milestones := if phase.goal call = .verified then phase.recorded [.verification] else [] })
  /-- The phase has failed, or it is verified and is to fail: nothing happens. -/
  | refused (stuck : phase.state = .error ∨ phase.state = .verified ∧ call = .fail)
      (answer : phase.call call = { outcome := .ok false, phase, milestones := [] })
  /-- There is no edge: nothing happens, and that is a fault. -/
  | faulted (sound : phase.state ≠ .error) (meant : call ≠ .fail)
      (edgeless : phase.state.canMoveTo (phase.goal call) = false)
      (answer : phase.call call = {
        outcome := .error (.violated .illegalTransition "illegal phase transition"
          (some (phase.kind.text ++ ": " ++ phase.state.text ++ " -> " ++ (phase.goal call).text)))
        phase
        milestones := [] })

theorem recorded_nil : phase.recorded [] = [] := ite_self _

/-- A call other than `fail` is a step towards its goal. -/
theorem call_eq_moveStep (phase : Phase) {call : Call} (meant : call ≠ .fail) :
    phase.call call = phase.moveStep (phase.goal call) := by
  cases call with
  | activate => rfl
  | finalize => rfl
  | verify => rfl
  | fail => exact absurd rfl meant

/-- Every call ends in one of the three ways. -/
theorem ends (phase : Phase) (call : Call) : Ends phase call := by
  by_cases meant : call = .fail
  · subst meant
    by_cases edge : phase.state.canMoveTo .error = true
    · refine .moved edge ?_
      simp [Phase.call, fail, goal, edge]
    · refine .refused ?_ ?_
      · rw [PhaseState.canMoveTo_error] at edge
        tauto
      · simp [Phase.call, fail, edge]
  · have stepped := call_eq_moveStep phase meant
    by_cases failed : phase.state = .error
    · refine .refused (Or.inl failed) ?_
      rw [stepped, moveStep, moveTo, if_pos failed]
      simp [recorded_nil]
    · by_cases edge : phase.state.canMoveTo (phase.goal call) = true
      · refine .moved edge ?_
        rw [stepped, moveStep, moveTo_eq edge]
        by_cases last : phase.goal call = .verified <;> simp [last, recorded]
      · refine .faulted failed meant ((Bool.not_eq_true _).mp edge) ?_
        rw [stepped, moveStep, moveTo, if_neg failed, if_neg edge]
        simp [recorded_nil]

/-- A call changes nothing but the state. -/
theorem call_frame (phase : Phase) (call : Call) :
    (phase.call call).phase = { phase with state := (phase.call call).phase.state } := by
  cases phase.ends call with
  | moved edge answer => rw [answer]
  | refused stuck answer => rw [answer]
  | faulted sound meant edgeless answer => rw [answer]

/-- A final state is not left. -/
theorem call_of_final (final : phase.state = .error ∨ phase.state = .verified) (call : Call) :
    (phase.call call).phase = phase := by
  cases phase.ends call with
  | moved edge answer =>
      rw [PhaseState.canMoveTo_of_final final] at edge
      cases edge
  | refused stuck answer => rw [answer]
  | faulted sound meant edgeless answer => rw [answer]

/-- Whether a phase has kept to its course: it is computed only if a peer has to verify it. -/
def OnCourse (phase : Phase) : Prop := phase.state = .computed → phase.verification = true

/-- The law of one call that was made. -/
structure Made.Lawful (made : Made) : Prop where
  /-- Nothing but the state is changed. -/
  framed : made.step.phase = { made.before with state := made.reached }
  /-- A phase that a peer has to verify enters `verified` by `verify` only: from `computed`, or from
  `active`. -/
  verified : made.before.verification = true →
    (made.reached = .verified ∧ made.before.state ≠ .verified ↔
      made.call = .verify ∧ (made.before.state = .computed ∨ made.before.state = .active))
  /-- A phase that no peer has to verify is never computed. -/
  direct : made.before.verification = false → made.reached ≠ .computed
  /-- `error` and `verified` are not left. -/
  final : made.before.state = .error ∨ made.before.state = .verified →
    made.reached = made.before.state
  /-- The answer is whether the state has changed. -/
  answered : ∀ changed, made.step.outcome = .ok changed →
    (changed = true ↔ made.reached ≠ made.before.state)
  /-- There is no fault but that of an edge that does not exist, and it changes nothing. -/
  faulted : ∀ fault, made.step.outcome = .error fault →
    made.step.phase = made.before ∧
      fault = .violated .illegalTransition "illegal phase transition"
        (some (made.before.kind.text ++ ": " ++ made.before.state.text ++ " -> " ++
          (made.before.goal made.call).text))

/-- With a peer to verify it, only `verify` aims at `verified`. -/
theorem goal_eq_verified_iff (declared : phase.verification = true) (call : Call) :
    phase.goal call = .verified ↔ call = .verify := by
  cases call <;> simp [goal, declared]

/-- Without a peer to verify it, nothing aims at `computed`. -/
theorem goal_ne_computed (undeclared : phase.verification = false) (call : Call) :
    phase.goal call ≠ .computed := by
  cases call <;> simp [goal, undeclared]

/-- A call keeps a phase on its course. -/
theorem OnCourse.call (kept : phase.OnCourse) (call : Call) : (phase.call call).phase.OnCourse := by
  intro computed
  rw [call_frame]
  cases phase.ends call with
  | moved edge answer =>
      rw [answer] at computed
      by_contra undeclared
      exact goal_ne_computed ((Bool.not_eq_true _).mp undeclared) call computed
  | refused stuck answer =>
      rw [answer] at computed
      exact kept computed
  | faulted sound meant edgeless answer =>
      rw [answer] at computed
      exact kept computed

/-- What an edge into `verified` is worth where a peer has to verify. -/
theorem verified_iff (declared : phase.verification = true) (call : Call) :
    (phase.call call).phase.state = .verified ∧ phase.state ≠ .verified ↔
      call = .verify ∧ (phase.state = .computed ∨ phase.state = .active) := by
  have aims := goal_eq_verified_iff declared call
  cases phase.ends call with
  | moved edge answer =>
      rw [answer, aims]
      constructor
      · rintro ⟨meant, -⟩
        rw [aims.mpr meant, PhaseState.canMoveTo_verified] at edge
        exact ⟨meant, edge.symm⟩
      · rintro ⟨meant, since⟩
        refine ⟨meant, ?_⟩
        rcases since with computed | active
        · simp [computed]
        · simp [active]
  | refused stuck answer =>
      rw [answer]
      constructor
      · rintro ⟨same, other⟩
        exact absurd same other
      · rintro ⟨meant, since⟩
        rcases stuck with failed | ⟨verified, -⟩
        · simp [failed] at since
        · simp [verified] at since
  | faulted sound meant edgeless answer =>
      rw [answer]
      constructor
      · rintro ⟨same, other⟩
        exact absurd same other
      · rintro ⟨meant, since⟩
        have edge := (PhaseState.canMoveTo_verified phase.state).mpr since.symm
        rw [aims.mpr meant, edge] at edgeless
        cases edgeless

/-- A call on a phase that has kept to its course is lawful. -/
theorem Made.lawful {made : Made} (kept : made.before.OnCourse) : made.Lawful where
  framed := call_frame made.before made.call
  verified declared := verified_iff declared made.call
  direct undeclared computed := by
    have declared := kept.call made.call computed
    rw [call_frame] at declared
    rw [undeclared] at declared
    cases declared
  final stuck := congrArg Phase.state (call_of_final stuck made.call)
  answered := by
    intro changed answered
    rw [Made.reached]
    rw [Made.step] at answered ⊢
    cases made.before.ends made.call with
    | moved edge answer =>
        rw [answer] at answered ⊢
        injection answered with same
        subst same
        exact iff_of_true rfl (PhaseState.ne_of_canMoveTo edge)
    | refused stuck answer =>
        rw [answer] at answered ⊢
        injection answered with same
        subst same
        simp
    | faulted sound meant edgeless answer =>
        rw [answer] at answered
        cases answered
  faulted := by
    intro fault stopped
    rw [Made.step] at stopped ⊢
    cases made.before.ends made.call with
    | moved edge answer =>
        rw [answer] at stopped
        cases stopped
    | refused stuck answer =>
        rw [answer] at stopped
        cases stopped
    | faulted sound meant edgeless answer =>
        rw [answer] at stopped ⊢
        injection stopped with same
        exact ⟨rfl, same.symm⟩

/-! ## Every sequence of calls -/

/-- Each call of a history is lawful. -/
theorem lawful_of_mem_history {made : Made} (kept : phase.OnCourse)
    (there : made ∈ phase.history calls) : made.Lawful := by
  induction calls generalizing phase with
  | nil => cases there
  | cons call rest lawful =>
      cases done : (phase.call call).outcome with
      | ok changed =>
          rw [history_cons_of_ok done, List.mem_cons] at there
          rcases there with rfl | there
          · exact Made.lawful kept
          · exact lawful (kept.call call) there
      | error fault =>
          rw [history_cons_of_error done, List.mem_singleton] at there
          rw [there]
          exact Made.lawful kept

/-- The flag of a phase and its binding are those that it began with. -/
theorem frame_of_mem_history {made : Made} (there : made ∈ phase.history calls) :
    made.before = { phase with state := made.before.state } := by
  induction calls generalizing phase with
  | nil => cases there
  | cons call rest framed =>
      cases done : (phase.call call).outcome with
      | ok changed =>
          rw [history_cons_of_ok done, List.mem_cons] at there
          rcases there with rfl | there
          · rfl
          · have later := framed there
            rw [call_frame] at later
            exact later
      | error fault =>
          rw [history_cons_of_error done, List.mem_singleton] at there
          rw [there]

/-- A phase in a final state is left as it is by every sequence of calls. -/
theorem outcomeOf_of_final (final : phase.state = .error ∨ phase.state = .verified) :
    phase.outcomeOf calls = phase := by
  induction calls with
  | nil => rfl
  | cons call rest same =>
      have unmoved := call_of_final final call
      cases done : (phase.call call).outcome with
      | ok changed => rw [outcomeOf_cons_of_ok done, unmoved, same]
      | error fault => rw [outcomeOf_cons_of_error done, unmoved]

/-- A final state that a sequence has led to is the state that every longer one leads to. -/
theorem outcomeOf_append_of_final {earlier : List Call} (later : List Call)
    (final : (phase.outcomeOf earlier).state = .error ∨
      (phase.outcomeOf earlier).state = .verified) :
    phase.outcomeOf (earlier ++ later) = phase.outcomeOf earlier := by
  induction earlier generalizing phase with
  | nil => exact outcomeOf_of_final final
  | cons call rest same =>
      rw [List.cons_append]
      cases done : (phase.call call).outcome with
      | ok changed =>
          rw [outcomeOf_cons_of_ok done] at final ⊢
          rw [outcomeOf_cons_of_ok done]
          exact same final
      | error fault => rw [outcomeOf_cons_of_error done, outcomeOf_cons_of_error done]

/-- The milestone of one call, if the phase belongs to a round. -/
theorem call_milestones (bound : phase.binding.isSome = true) (call : Call) :
    (phase.call call).milestones =
      if (phase.call call).phase.state = .verified ∧ phase.state ≠ .verified then [.verification]
      else [] := by
  cases phase.ends call with
  | moved edge answer =>
      rw [answer]
      by_cases last : phase.goal call = .verified
      · have other : phase.state ≠ .verified := by
          rw [← last]
          exact (PhaseState.ne_of_canMoveTo edge).symm
        simp [last, other, recorded, bound]
      · simp [last]
  | refused stuck answer => simp [answer]
  | faulted sound meant edgeless answer => simp [answer]

/-- A sequence of calls passes the milestone of verification once if it leads to `verified`, and no
milestone otherwise.  A phase that is verified already passes none. -/
theorem passed_eq (bound : phase.binding.isSome = true) :
    phase.passed calls =
      if (phase.outcomeOf calls).state = .verified ∧ phase.state ≠ .verified then [.verification]
      else [] := by
  induction calls generalizing phase with
  | nil => simp
  | cons call rest passes =>
      have first := call_milestones bound call
      have still : (phase.call call).phase.binding.isSome = true := by
        rw [call_frame]
        exact bound
      cases done : (phase.call call).outcome with
      | ok changed =>
          rw [passed_cons_of_ok done, outcomeOf_cons_of_ok done, passes still, first]
          by_cases verified : (phase.call call).phase.state = .verified
          · rw [outcomeOf_of_final (Or.inr verified)]
            simp [verified]
          · have before : (phase.outcomeOf (call :: rest)).state = .verified →
                phase.state ≠ .verified := by
              intro reached same
              exact verified (by rw [call_of_final (Or.inr same), same])
            rw [outcomeOf_cons_of_ok done] at before
            simp only [verified, false_and, if_false, List.nil_append, ne_eq, not_false_eq_true,
              and_true]
            by_cases reached : ((phase.call call).phase.outcomeOf rest).state = .verified
            · simp [reached, before reached]
            · simp [reached]
      | error fault =>
          rw [passed_cons_of_error done, outcomeOf_cons_of_error done, first]

/-- **Every history of a phase.**  Whatever calls are made of a phase that belongs to a round, each
of them is lawful, a final state is the state that every longer sequence leads to, and the milestone
of verification is passed once if the phase is verified in the end, and never otherwise. -/
theorem lawful_history (phase : Phase) (bound : phase.binding.isSome = true)
    (fresh : phase.state = .initialized) (calls : List Call) :
    (∀ made ∈ phase.history calls, made.before = { phase with state := made.before.state } ∧
      made.Lawful) ∧
    (∀ earlier later, calls = earlier ++ later →
      (phase.outcomeOf earlier).state = .error ∨ (phase.outcomeOf earlier).state = .verified →
      phase.outcomeOf calls = phase.outcomeOf earlier) ∧
    phase.passed calls =
      if (phase.outcomeOf calls).state = .verified then [.verification] else [] := by
  have kept : phase.OnCourse := by
    intro computed
    rw [fresh] at computed
    cases computed
  refine ⟨?_, ?_, ?_⟩
  · intro made there
    exact ⟨frame_of_mem_history there, lawful_of_mem_history kept there⟩
  · intro earlier later split final
    rw [split]
    exact outcomeOf_append_of_final later final
  · rw [passed_eq bound]
    simp [fresh]

/-- A phase that a peer has to verify, in a round. -/
def awaited : Phase :=
  { create Node.samplePhase.kind Node.samplePhase.graph Node.samplePhase.transmitter
      Node.samplePhase.timeout true with
    binding := some ⟨1, 2⟩ }

theorem lawful_history_sample :
    awaited.binding.isSome = true ∧ awaited.state = .initialized ∧
      (awaited.outcomeOf [.activate, .finalize, .verify]).state = .verified ∧
      awaited.passed [.activate, .finalize, .verify] = [.verification] := by
  refine ⟨rfl, rfl, rfl, ?_⟩
  obtain ⟨-, -, passes⟩ := lawful_history awaited rfl rfl [.activate, .finalize, .verify]
  rw [passes]
  rfl

/-- `verify` takes an active phase to `verified`, although a peer has to verify its work and it has
not been computed. -/
theorem verified_unfinished :
    awaited.verification = true ∧ ∃ made ∈ awaited.history [.activate, .verify],
      made.before.state = .active ∧ made.step.outcome = .ok true ∧ made.reached = .verified := by
  refine ⟨rfl, ⟨(awaited.call .activate).phase, .verify⟩, ?_, rfl, rfl, rfl⟩
  exact List.mem_cons_of_mem _ (List.mem_singleton.mpr rfl)

end Phase

end Mixnet
