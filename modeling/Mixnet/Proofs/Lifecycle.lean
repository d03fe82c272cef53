import Mathlib.Data.List.Nodup
import Mathlib.Logic.Function.Basic
import Mixnet.Phase.State

/-!
# The lifecycle of phases

Two drivers act on the phases of a node: events claim them and verify them, and the consumer of the
resource queue activates, completes and fails them.  What the two share is little: the state of each
phase, whether it has been claimed, which phases wait, and which one runs.  This file describes the
lifecycle in these terms alone, without graphs, transmitters or rounds.

## Main definitions

* `Standing`: what a phase shows of its lifecycle
* `Docket`: what a node shows of the lifecycles of its phases
* `Docket.Move`, `Docket.Shift`: what can happen to a docket, and what it makes of it
* `Docket.Sound`: the invariant
* `Docket.Edge`, `Docket.Fate`: what a shift means for one phase
* `Trail`: the states that a phase has gone through

## Main statements

* `Docket.Shift.sound`: the invariant is kept
* `Docket.Shift.fate`: what a shift means for any one phase
* `Trail.step`: an edge of the lifecycle extends a trail
* `Trail.shape`: a trail follows the course of its phase, or begins it and is cut short by an error

## Design notes

A shift says what is looked up and what is put in its place, and not in which state a phase was
found.  That a waiting phase is initialized and a running one active is the business of the
invariant.
-/

namespace Mixnet

/-! ## Dockets -/

/-- What a phase shows of its lifecycle. -/
structure Standing where
  /-- Where the phase stands. -/
  state : PhaseState
  /-- Whether it has been claimed for the queue. -/
  queued : Bool
  /-- Whether a peer has to verify it. -/
  verification : Bool
deriving DecidableEq

/-- What a node shows of the lifecycles of its phases. -/
@[ext]
structure Docket (ρ : Type) where
  /-- The standing of each phase there is. -/
  standing? : ρ → Option Standing
  /-- The phases that wait to be run, oldest first. -/
  waiting : List ρ
  /-- The phase that is run. -/
  running : Option ρ

namespace Docket

variable {ρ : Type}

/-- The state of a phase, if there is the phase. -/
def state? (docket : Docket ρ) (ref : ρ) : Option PhaseState :=
  (docket.standing? ref).map Standing.state

/-- The docket with the phases of a new round, given by whether a peer has to verify them. -/
def enroll (docket : Docket ρ) (fresh : ρ → Option Bool) : Docket ρ :=
  { docket with
    standing? := fun ref => match fresh ref with
      | some verification => some { state := .initialized, queued := false, verification }
      | none => docket.standing? ref }

/-- What can happen to a docket. -/
inductive Move (ρ : Type) where
  /-- Nothing, but for a consumer that stops. -/
  | rest
  /-- Phases come in. -/
  | opened (fresh : ρ → Option Bool)
  /-- A phase is claimed for the queue. -/
  | claimed (ref : ρ)
  /-- The next phase fails with its round. -/
  | skipped (ref : ρ)
  /-- The next phase is activated. -/
  | activated (ref : ρ)
  /-- The running phase has done its work. -/
  | completed (ref : ρ)
  /-- The running phase fails. -/
  | failed (ref : ρ)
  /-- A computed phase is verified. -/
  | verified (ref : ρ)

/-- The phase that a move claims, if it is a claim. -/
def Move.claimed? : Move ρ → Option ρ
  | .claimed ref => some ref
  | _ => none

/-- The phase that a move activates, if it is an activation. -/
def Move.activated? : Move ρ → Option ρ
  | .activated ref => some ref
  | _ => none

/-! ## The invariant -/

/-- What holds of every docket that is reached: each phase waits once, as claimed and not begun; the
one that runs is active; and none has begun without having been claimed. -/
structure Sound (docket : Docket ρ) : Prop where
  nodup : docket.waiting.Nodup
  ready : ∀ ref ∈ docket.waiting, ∃ standing, docket.standing? ref = some standing ∧
    standing.state = .initialized ∧ standing.queued = true
  active : ∀ ref, docket.running = some ref → ∃ standing, docket.standing? ref = some standing ∧
    standing.state = .active
  unclaimed : ∀ ref standing, docket.standing? ref = some standing → standing.queued = false →
    standing.state = .initialized

variable {docket next : Docket ρ} {move : Move ρ} {ref : ρ} {standing : Standing}

/-- A docket without phases. -/
theorem sound_of_nothing (nothing : ∀ ref, docket.standing? ref = none)
    (nobody : docket.waiting = []) (idle : docket.running = none) : docket.Sound where
  nodup := by
    rw [nobody]
    exact List.nodup_nil
  ready := by simp [nobody]
  active := by simp [idle]
  unclaimed := by simp [nothing]

namespace Sound

/-- A phase that has begun has been claimed. -/
theorem claimed_of_begun (sound : docket.Sound) (there : docket.standing? ref = some standing)
    (begun : standing.state ≠ .initialized) : standing.queued = true := by
  by_contra unclaimed
  rw [Bool.not_eq_true] at unclaimed
  exact begun (sound.unclaimed ref standing there unclaimed)

/-- A phase that has begun does not wait. -/
theorem not_waiting (sound : docket.Sound) (there : docket.standing? ref = some standing)
    (begun : standing.state ≠ .initialized) : ref ∉ docket.waiting := by
  intro waits
  obtain ⟨other, found, initialized, -⟩ := sound.ready ref waits
  rw [there] at found
  injection found with same
  exact begun (same ▸ initialized)

/-- The running phase is found active. -/
theorem active_of_running (sound : docket.Sound) (runs : docket.running = some ref)
    (there : docket.standing? ref = some standing) : standing.state = .active := by
  obtain ⟨other, found, active⟩ := sound.active ref runs
  rw [there] at found
  injection found with same
  rw [same]
  exact active

/-- A phase that is not active does not run. -/
theorem ne_of_running (sound : docket.Sound) (there : docket.standing? ref = some standing)
    (inactive : standing.state ≠ .active) {other : ρ} (runs : docket.running = some other) :
    other ≠ ref := by
  rintro rfl
  exact inactive (sound.active_of_running runs there)

theorem of_running (sound : docket.Sound) (runs : docket.running = some ref)
    (there : docket.standing? ref = some standing) :
    standing.queued = true ∧ ref ∉ docket.waiting := by
  have begun : standing.state ≠ .initialized := by
    rw [sound.active_of_running runs there]
    decide
  exact ⟨sound.claimed_of_begun there begun, sound.not_waiting there begun⟩

/-- The next phase is found claimed and not begun, and it does not wait a second time. -/
theorem next_up (sound : docket.Sound) {rest : List ρ} (next_up : docket.waiting = ref :: rest)
    (there : docket.standing? ref = some standing) :
    standing.state = .initialized ∧ standing.queued = true ∧ ref ∉ rest := by
  obtain ⟨other, found, initialized, claimed⟩ :=
    sound.ready ref (next_up ▸ List.mem_cons_self)
  rw [there] at found
  injection found with same
  subst same
  have nodup := sound.nodup
  rw [next_up] at nodup
  exact ⟨initialized, claimed, (List.nodup_cons.mp nodup).1⟩

/-- Phases that come in change nothing for those that are there. -/
theorem enroll (sound : docket.Sound) {fresh : ρ → Option Bool}
    (vacant : ∀ ref, (fresh ref).isSome = true → docket.standing? ref = none) :
    (docket.enroll fresh).Sound := by
  have kept {other : ρ} {found : Standing} (there : docket.standing? other = some found) :
      (docket.enroll fresh).standing? other = some found := by
    have old : fresh other = none := by
      by_contra new
      rw [vacant other (Option.isSome_iff_ne_none.mpr new)] at there
      cases there
    rw [Docket.enroll]
    simp only [old]
    exact there
  refine ⟨sound.nodup, ?_, ?_, ?_⟩
  · intro other waits
    obtain ⟨found, there, ready⟩ := sound.ready other waits
    exact ⟨found, kept there, ready⟩
  · intro other runs
    obtain ⟨found, there, active⟩ := sound.active other runs
    exact ⟨found, kept there, active⟩
  · intro other found there unclaimed
    rw [Docket.enroll] at there
    dsimp only at there
    split at there
    case h_1 =>
      injection there with same
      rw [← same]
    case h_2 => exact sound.unclaimed other found there unclaimed

end Sound

/-! ## One phase -/

/-- The edges of the lifecycle, by the move that follows them. -/
inductive Edge (verification : Bool) (ref : ρ) : Move ρ → PhaseState → PhaseState → Prop
  | skip : Edge verification ref (.skipped ref) .initialized .error
  | start : Edge verification ref (.activated ref) .initialized .active
  | compute (needed : verification = true) :
      Edge verification ref (.completed ref) .active .computed
  | finish (unneeded : verification = false) :
      Edge verification ref (.completed ref) .active .verified
  | fail : Edge verification ref (.failed ref) .active .error
  | verify : Edge verification ref (.verified ref) .computed .verified

theorem Edge.ne {verification : Bool} {ref : ρ} {move : Move ρ} {state next : PhaseState}
    (edge : Edge verification ref move state next) : state ≠ next := by
  cases edge <;> decide

/-- What a move means for one phase. -/
inductive Fate (docket : Docket ρ) (move : Move ρ) (next : Docket ρ) (ref : ρ) : Prop
  /-- Nothing. -/
  | kept (same : next.standing? ref = docket.standing? ref)
  /-- The phase is new. -/
  | opened {fresh : ρ → Option Bool} {verification : Bool} (opens : move = .opened fresh)
      (nothing : docket.standing? ref = none) (known : fresh ref = some verification)
      (now : next.standing? ref =
        some { state := .initialized, queued := false, verification })
  /-- The phase is claimed. -/
  | claimed {standing : Standing} (claims : move = .claimed ref)
      (before : docket.standing? ref = some standing) (first : standing.queued = false)
      (now : next.standing? ref = some { standing with queued := true })
  /-- The phase follows an edge. -/
  | stepped {standing : Standing} {state : PhaseState}
      (before : docket.standing? ref = some standing)
      (edge : Edge standing.verification ref move standing.state state)
      (now : next.standing? ref = some { standing with state })

section Fate

variable {after : Standing}

/-- Whether a phase has to be verified is settled when it comes in. -/
theorem Fate.origin (fate : docket.Fate move next ref)
    (now : next.standing? ref = some after) :
    (∃ standing, docket.standing? ref = some standing ∧
        standing.verification = after.verification) ∨
      ∃ fresh, move = .opened fresh ∧ fresh ref = some after.verification := by
  cases fate with
  | kept same => exact Or.inl ⟨after, same ▸ now, rfl⟩
  | opened opens _ known found =>
      rw [found] at now
      injection now with same
      subst same
      exact Or.inr ⟨_, opens, known⟩
  | claimed _ before _ found | stepped before _ found =>
      rw [found] at now
      injection now with same
      subst same
      exact Or.inl ⟨_, before, rfl⟩

/-- A phase that has done its work had done it before, or does it now. -/
theorem Fate.done (fate : docket.Fate move next ref) (now : next.standing? ref = some after)
    (done : after.state = .computed ∨ after.state = .verified) :
    (∃ standing, docket.standing? ref = some standing ∧
        (standing.state = .computed ∨ standing.state = .verified)) ∨
      move = .completed ref := by
  cases fate with
  | kept same => exact Or.inl ⟨after, same ▸ now, done⟩
  | opened _ _ _ found =>
      rw [found] at now
      injection now with same
      subst same
      rcases done with wrong | wrong <;> cases wrong
  | claimed _ before _ found =>
      rw [found] at now
      injection now with same
      subst same
      exact Or.inl ⟨_, before, done⟩
  | stepped before edge found =>
      rw [found] at now
      injection now with same
      subst same
      generalize from_eq : Standing.state _ = state at edge
      cases edge with
      | skip | start | fail => rcases done with wrong | wrong <;> cases wrong
      | compute | finish => exact Or.inr rfl
      | verify => exact Or.inl ⟨_, before, Or.inl from_eq⟩

/-- A phase with verification becomes verified by being verified. -/
theorem Fate.confirmed (fate : docket.Fate move next ref) (now : next.standing? ref = some after)
    (verified : after.state = .verified) (needed : after.verification = true)
    (fresh : docket.state? ref ≠ some .verified) :
    move = .verified ref ∧ docket.state? ref = some .computed := by
  cases fate with
  | kept same =>
      rw [state?, ← same, now] at fresh
      exact (fresh (congrArg some verified)).elim
  | opened _ _ _ found =>
      rw [found] at now
      injection now with same
      subst same
      cases verified
  | claimed _ before _ found =>
      rw [found] at now
      injection now with same
      subst same
      rw [state?, before] at fresh
      exact (fresh (congrArg some verified)).elim
  | stepped before edge found =>
      rw [found] at now
      injection now with same
      subst same
      generalize from_eq : Standing.state _ = state at edge
      cases edge with
      | skip | start | fail | compute => cases verified
      | finish unneeded =>
          rw [needed] at unneeded
          cases unneeded
      | verify =>
          rw [state?, before]
          exact ⟨rfl, congrArg some from_eq⟩

end Fate

/-- A phase has been claimed for the queue. -/
def Claimed (docket : Docket ρ) (ref : ρ) : Prop :=
  ∃ standing, docket.standing? ref = some standing ∧ standing.queued = true

/-- A claim is never taken back. -/
theorem Fate.claimed_mono (fate : docket.Fate move next ref) (claimed : docket.Claimed ref) :
    next.Claimed ref := by
  obtain ⟨standing, there, queued⟩ := claimed
  cases fate with
  | kept same => exact ⟨standing, same.trans there, queued⟩
  | opened _ nothing =>
      rw [there] at nothing
      cases nothing
  | claimed _ _ _ now => exact ⟨_, now, rfl⟩
  | stepped before _ now =>
      rw [there] at before
      injection before with same
      exact ⟨_, now, same ▸ queued⟩

/-- A phase has begun, whatever has become of it. -/
def Begun (docket : Docket ρ) (ref : ρ) : Prop :=
  ∃ standing, docket.standing? ref = some standing ∧ standing.state ≠ .initialized

/-- What has begun is never as if it had not. -/
theorem Fate.begun_mono (fate : docket.Fate move next ref) (begun : docket.Begun ref) :
    next.Begun ref := by
  obtain ⟨standing, there, begun⟩ := begun
  cases fate with
  | kept same => exact ⟨standing, same.trans there, begun⟩
  | opened _ nothing =>
      rw [there] at nothing
      cases nothing
  | claimed _ before _ now =>
      rw [there] at before
      injection before with same
      exact ⟨_, now, same ▸ begun⟩
  | @stepped _ state _ edge now =>
      refine ⟨_, now, ?_⟩
      show state ≠ .initialized
      generalize Standing.state _ = former at edge
      cases edge <;> decide

/-! ## Shifts -/

section Shifts

variable [DecidableEq ρ]

/-- The docket with another standing for a phase. -/
def put (docket : Docket ρ) (ref : ρ) (standing : Standing) : Docket ρ :=
  { docket with standing? := Function.update docket.standing? ref (some standing) }

theorem standing?_put (docket : Docket ρ) (ref other : ρ) (standing : Standing) :
    (docket.put ref standing).standing? other =
      if other = ref then some standing else docket.standing? other :=
  Function.update_apply _ _ _ _

/-- Putting the standing that is there changes nothing. -/
theorem put_self {docket : Docket ρ} {ref : ρ} {standing : Standing}
    (there : docket.standing? ref = some standing) : docket.put ref standing = docket := by
  rw [put, ← there, Function.update_eq_self]

namespace Sound

/-- **What happens to a phase that has been claimed and does not wait any more** concerns that phase
alone. -/
theorem put_claimed (sound : docket.Sound) {waiting : List ρ} {running : Option ρ}
    (claimed : standing.queued = true) (fewer : waiting.Sublist docket.waiting)
    (apart : ref ∉ waiting)
    (runs : ∀ other, running = some other →
      other = ref ∧ standing.state = .active ∨ other ≠ ref ∧ docket.running = some other) :
    Sound { docket.put ref standing with waiting, running } where
  nodup := sound.nodup.sublist fewer
  ready := by
    intro other waits
    have different : other ≠ ref := fun same => apart (same ▸ waits)
    rw [standing?_put, if_neg different]
    exact sound.ready other (fewer.subset waits)
  active := by
    intro other goes
    rcases runs other goes with ⟨same, active⟩ | ⟨different, went⟩
    · rw [standing?_put, if_pos same]
      exact ⟨standing, rfl, active⟩
    · rw [standing?_put, if_neg different]
      exact sound.active other went
  unclaimed := by
    intro other found there unclaimed
    rw [standing?_put] at there
    split at there
    case isFalse => exact sound.unclaimed other found there unclaimed
    case isTrue =>
      injection there with same
      rw [← same, claimed] at unclaimed
      cases unclaimed

/-- The first claim of a phase puts it behind those that wait. -/
theorem claim (sound : docket.Sound) (there : docket.standing? ref = some standing)
    (first : standing.queued = false) {waiting : List ρ}
    (pushed : waiting = docket.waiting ++ [ref] ∨ waiting = docket.waiting) :
    Sound { docket.put ref { standing with queued := true } with waiting } := by
  have initialized := sound.unclaimed ref standing there first
  have apart : ref ∉ docket.waiting := by
    intro waits
    obtain ⟨other, found, -, claimed⟩ := sound.ready ref waits
    rw [there] at found
    injection found with same
    rw [← same, first] at claimed
    cases claimed
  have mem {other : ρ} (waits : other ∈ waiting) : other = ref ∨ other ∈ docket.waiting := by
    rcases pushed with rfl | rfl
    · rw [List.mem_append, List.mem_singleton] at waits
      exact waits.symm
    · exact Or.inr waits
  refine ⟨?_, ?_, ?_, ?_⟩
  · show waiting.Nodup
    rcases pushed with rfl | rfl
    · rw [← List.concat_eq_append]
      exact sound.nodup.concat apart
    · exact sound.nodup
  · intro other waits
    rw [standing?_put]
    split
    case isTrue => exact ⟨_, rfl, initialized, rfl⟩
    case isFalse different =>
      exact sound.ready other ((mem waits).resolve_left different)
  · intro other runs
    have inactive : standing.state ≠ .active := by
      rw [initialized]
      decide
    rw [standing?_put, if_neg (sound.ne_of_running there inactive runs)]
    exact sound.active other runs
  · intro other found there' unclaimed
    rw [standing?_put] at there'
    split at there'
    case isFalse => exact sound.unclaimed other found there' unclaimed
    case isTrue =>
      injection there' with same
      rw [← same] at unclaimed
      cases unclaimed

end Sound

/-- **What a move makes of a docket.** -/
inductive Shift (docket : Docket ρ) : Move ρ → Docket ρ → Prop
  | rest {running : Option ρ} (kept : running = docket.running ∨ running = none) :
      Shift docket .rest { docket with running }
  | opened {fresh : ρ → Option Bool}
      (vacant : ∀ ref, (fresh ref).isSome = true → docket.standing? ref = none) :
      Shift docket (.opened fresh) (docket.enroll fresh)
  | claimed {ref : ρ} {standing : Standing} {waiting : List ρ}
      (there : docket.standing? ref = some standing) (first : standing.queued = false)
      (pushed : waiting = docket.waiting ++ [ref] ∨ waiting = docket.waiting) :
      Shift docket (.claimed ref) { docket.put ref { standing with queued := true } with waiting }
  | skipped {ref : ρ} {rest : List ρ} {standing : Standing}
      (next_up : docket.waiting = ref :: rest) (there : docket.standing? ref = some standing) :
      Shift docket (.skipped ref)
        { docket.put ref { standing with state := .error } with waiting := rest }
  | activated {ref : ρ} {rest : List ρ} {standing : Standing} {running : Option ρ}
      (idle : docket.running = none) (next_up : docket.waiting = ref :: rest)
      (there : docket.standing? ref = some standing) (runs : running = some ref ∨ running = none) :
      Shift docket (.activated ref)
        { docket.put ref { standing with state := .active } with waiting := rest, running }
  | completed {ref : ρ} {standing : Standing} (runs : docket.running = some ref)
      (there : docket.standing? ref = some standing) :
      Shift docket (.completed ref)
        { docket.put ref { standing with
            state := if standing.verification then .computed else .verified } with
          running := none }
  | failed {ref : ρ} {standing : Standing} (runs : docket.running = some ref)
      (there : docket.standing? ref = some standing) :
      Shift docket (.failed ref)
        { docket.put ref { standing with state := .error } with running := none }
  | verified {ref : ρ} {standing : Standing} (there : docket.standing? ref = some standing)
      (computed : standing.state = .computed) :
      Shift docket (.verified ref) (docket.put ref { standing with state := .verified })

/-- **The invariant is kept.** -/
theorem Shift.sound (shift : docket.Shift move next) (sound : docket.Sound) : next.Sound := by
  cases shift with
  | rest kept =>
      refine ⟨sound.nodup, sound.ready, ?_, sound.unclaimed⟩
      intro ref runs
      rcases kept with rfl | rfl
      · exact sound.active ref runs
      · cases runs
  | opened vacant => exact sound.enroll vacant
  | claimed there first pushed => exact sound.claim there first pushed
  | @skipped ref rest standing next_up there =>
      obtain ⟨initialized, claimed, apart⟩ := sound.next_up next_up there
      have inactive : standing.state ≠ .active := by
        rw [initialized]
        decide
      refine sound.put_claimed claimed ?_ apart ?_
      · rw [next_up]
        exact List.sublist_cons_self _ _
      · intro other runs
        exact Or.inr ⟨sound.ne_of_running there inactive runs, runs⟩
  | @activated ref rest standing running idle next_up there runs =>
      obtain ⟨initialized, claimed, apart⟩ := sound.next_up next_up there
      refine sound.put_claimed claimed ?_ apart ?_
      · rw [next_up]
        exact List.sublist_cons_self _ _
      · intro other goes
        rcases runs with rfl | rfl
        · exact Or.inl ⟨(Option.some.inj goes).symm, rfl⟩
        · cases goes
  | completed runs there | failed runs there =>
      obtain ⟨claimed, apart⟩ := sound.of_running runs there
      exact sound.put_claimed claimed (List.Sublist.refl _) apart (by simp)
  | @verified ref standing there computed =>
      have begun : standing.state ≠ .initialized := by
        rw [computed]
        decide
      have inactive : standing.state ≠ .active := by
        rw [computed]
        decide
      have claimed := sound.claimed_of_begun there begun
      refine sound.put_claimed claimed (List.Sublist.refl _) (sound.not_waiting there begun) ?_
      intro other runs
      exact Or.inr ⟨sound.ne_of_running there inactive runs, runs⟩

/-! ## What a shift means for one phase -/

/-- A phase whose standing is replaced has another fate than all others. -/
theorem Fate.of_put {changed : ρ} {standing after : Standing} {waiting : List ρ}
    {running : Option ρ} (there : docket.standing? changed = some standing)
    (fate : (now : next.standing? changed = some after) →
      docket.standing? changed = some standing → docket.Fate move next changed)
    (next_eq : next = { docket.put changed after with waiting, running }) :
    docket.Fate move next ref := by
  have found := standing?_put docket changed ref after
  have now : next.standing? ref = (docket.put changed after).standing? ref := by rw [next_eq]
  by_cases same : ref = changed
  · subst same
    rw [if_pos rfl] at found
    exact fate (now.trans found) there
  · rw [if_neg same] at found
    exact .kept (now.trans found)

/-- **What a shift means for any one phase.** -/
theorem Shift.fate (shift : docket.Shift move next) (sound : docket.Sound) (ref : ρ) :
    docket.Fate move next ref := by
  cases shift with
  | rest => exact .kept rfl
  | @opened fresh vacant =>
      cases known : fresh ref with
      | none =>
          refine .kept ?_
          simp only [enroll, known]
      | some verification =>
          refine .opened rfl (vacant ref (by rw [known]; rfl)) known ?_
          simp only [enroll, known]
  | claimed there first => exact .of_put there (fun now before => .claimed rfl before first now) rfl
  | @skipped changed rest standing next_up there =>
      have edge : Edge standing.verification changed (.skipped changed) standing.state .error := by
        rw [(sound.next_up next_up there).1]
        exact .skip
      exact .of_put there (fun now before => .stepped before edge now) rfl
  | @activated changed rest standing running idle next_up there =>
      have edge : Edge standing.verification changed (.activated changed) standing.state
          .active := by
        rw [(sound.next_up next_up there).1]
        exact .start
      exact .of_put there (fun now before => .stepped before edge now) rfl
  | @completed changed standing runs there =>
      have edge : Edge standing.verification changed (.completed changed) standing.state
          (if standing.verification then .computed else .verified) := by
        rw [sound.active_of_running runs there]
        cases standing.verification with
        | true => exact .compute rfl
        | false => exact .finish rfl
      exact .of_put there (fun now before => .stepped before edge now) rfl
  | @failed changed standing runs there =>
      have edge : Edge standing.verification changed (.failed changed) standing.state .error := by
        rw [sound.active_of_running runs there]
        exact .fail
      exact .of_put there (fun now before => .stepped before edge now) rfl
  | @verified changed standing there computed =>
      have edge : Edge standing.verification changed (.verified changed) standing.state
          .verified := by
        rw [computed]
        exact .verify
      exact .of_put there (fun now before => .stepped before edge now) rfl

/-! ## The queue along a run -/

/-- **A phase is claimed once.** -/
theorem Shift.claims (shift : docket.Shift move next) (sound : docket.Sound) {claims : List ρ}
    (nodup : claims.Nodup) (claimed : ∀ ref ∈ claims, docket.Claimed ref) :
    (claims ++ move.claimed?.toList).Nodup ∧
      ∀ ref ∈ claims ++ move.claimed?.toList, next.Claimed ref := by
  have kept (ref : ρ) (known : ref ∈ claims) : next.Claimed ref :=
    (shift.fate sound ref).claimed_mono (claimed ref known)
  cases shift with
  | @claimed ref standing waiting there first =>
      have fresh : ref ∉ claims := by
        intro known
        obtain ⟨other, found, queued⟩ := claimed ref known
        rw [there] at found
        injection found with same
        rw [same, queued] at first
        cases first
      have now := standing?_put docket ref ref { standing with queued := true }
      rw [if_pos rfl] at now
      refine ⟨by simpa [Move.claimed?] using nodup.concat fresh, ?_⟩
      intro other member
      rw [Move.claimed?, Option.toList_some, List.mem_append, List.mem_singleton] at member
      rcases member with known | rfl
      · exact kept other known
      · exact ⟨_, now, rfl⟩
  | rest | opened | skipped | activated | completed | failed | verified =>
      simpa [Move.claimed?] using ⟨nodup, kept⟩

/-- **Phases are activated in the order in which they were claimed**, and those that wait come
behind. -/
theorem Shift.in_turn (shift : docket.Shift move next) {activations claims : List ρ}
    (in_turn : (activations ++ docket.waiting).Sublist claims) :
    (activations ++ move.activated?.toList ++ next.waiting).Sublist
      (claims ++ move.claimed?.toList) := by
  cases shift with
  | @claimed ref standing waiting there first pushed =>
      simp only [Move.activated?, Move.claimed?, Option.toList_none, Option.toList_some,
        List.append_nil]
      rcases pushed with rfl | rfl
      · rw [← List.append_assoc]
        exact in_turn.append (List.Sublist.refl _)
      · exact in_turn.trans (List.sublist_append_left _ _)
  | @skipped ref rest standing next_up there =>
      rw [next_up] at in_turn
      simp only [Move.activated?, Move.claimed?, Option.toList_none, List.append_nil]
      exact ((List.sublist_cons_self ref rest).append_left activations).trans in_turn
  | @activated ref rest standing running idle next_up there runs =>
      rw [next_up] at in_turn
      simp only [Move.activated?, Move.claimed?, Option.toList_none, Option.toList_some,
        List.append_nil, List.append_assoc]
      exact in_turn
  | rest | opened | completed | failed | verified =>
      simp only [Move.activated?, Move.claimed?, Option.toList_none, List.append_nil]
      exact in_turn

end Shifts

end Docket

/-! ## Trails -/

/-- The states that a phase has gone through, and the one it is in. -/
inductive Trail (verification : Bool) : List PhaseState → PhaseState → Prop
  | initialized : Trail verification [.initialized] .initialized
  | active : Trail verification [.initialized, .active] .active
  | computed (needed : verification = true) :
      Trail verification [.initialized, .active, .computed] .computed
  | finished (unneeded : verification = false) :
      Trail verification [.initialized, .active, .verified] .verified
  | verified (needed : verification = true) :
      Trail verification [.initialized, .active, .computed, .verified] .verified
  | skipped : Trail verification [.initialized, .error] .error
  | failed : Trail verification [.initialized, .active, .error] .error

/-- The course of a phase that nothing goes wrong with. -/
def PhaseState.course (verification : Bool) : List PhaseState :=
  if verification then [.initialized, .active, .computed, .verified]
  else [.initialized, .active, .verified]

namespace Trail

variable {ρ : Type} {ref : ρ} {move : Docket.Move ρ} {verification : Bool}
  {states : List PhaseState} {state next : PhaseState}

theorem getLast?_eq (trail : Trail verification states state) : states.getLast? = some state := by
  cases trail <;> rfl

/-- **An edge of the lifecycle extends a trail.** -/
theorem step (trail : Trail verification states state)
    (edge : Docket.Edge verification ref move state next) :
    Trail verification (states ++ [next]) next := by
  cases edge with
  | skip =>
      cases trail
      exact .skipped
  | start =>
      cases trail
      exact .active
  | compute needed =>
      cases trail
      exact .computed needed
  | finish unneeded =>
      cases trail
      exact .finished unneeded
  | fail =>
      cases trail
      exact .failed
  | verify =>
      cases trail with
      | computed needed => exact .verified needed

/-- **A trail follows the course of its phase, or begins it and is cut short by an error.** -/
theorem shape (trail : Trail verification states state) :
    states <+: PhaseState.course verification ∨
      ∃ begun, begun ≠ [] ∧ begun <+: [.initialized, .active] ∧ states = begun ++ [.error] := by
  cases trail with
  | initialized | active => exact Or.inl (by cases verification <;> decide)
  | computed needed | finished needed | verified needed => exact Or.inl (by rw [needed]; decide)
  | skipped => exact Or.inr ⟨[.initialized], by decide, by decide, rfl⟩
  | failed => exact Or.inr ⟨[.initialized, .active], by decide, by decide, rfl⟩

end Trail

/-! ## Passages -/

/-- The states gone through so far, and the one that a phase is found in, if there is the phase. -/
def PhaseState.goOn (states : List PhaseState) : Option PhaseState → List PhaseState
  | none => states
  | some state => if states.getLast? = some state then states else states ++ [state]

namespace Docket

variable {ρ : Type} [DecidableEq ρ] {docket next : Docket ρ} {move : Move ρ}

/-- What the phases have gone through led where they stand. -/
def Traces (docket : Docket ρ) (passage : ρ → List PhaseState) : Prop :=
  ∀ ref, match docket.standing? ref with
    | none => passage ref = []
    | some standing => Trail standing.verification (passage ref) standing.state

/-- **What the phases go through is the lifecycle.** -/
theorem Shift.traces (shift : docket.Shift move next) (sound : docket.Sound)
    {passage : ρ → List PhaseState} (traces : docket.Traces passage) :
    next.Traces fun ref => PhaseState.goOn (passage ref) (next.state? ref) := by
  intro ref
  have traced := traces ref
  dsimp only
  cases shift.fate sound ref with
  | kept same =>
      rw [state?, same]
      cases there : docket.standing? ref with
      | none =>
          rw [there] at traced
          exact traced
      | some standing =>
          rw [there] at traced
          have last : (passage ref).getLast? = some standing.state := traced.getLast?_eq
          simpa [PhaseState.goOn, last] using traced
  | @opened fresh verification opens nothing known now =>
      rw [nothing] at traced
      have started : passage ref = [] := traced
      rw [state?, now, started]
      exact .initialized
  | @claimed standing claims before first now =>
      rw [before] at traced
      have last : (passage ref).getLast? = some standing.state := traced.getLast?_eq
      rw [state?, now]
      simpa [PhaseState.goOn, last] using traced
  | @stepped standing state before edge now =>
      rw [before] at traced
      have last : (passage ref).getLast? = some standing.state := traced.getLast?_eq
      have moved : standing.state ≠ state := edge.ne
      rw [state?, now]
      simpa [PhaseState.goOn, last, moved] using traced.step edge

end Docket

end Mixnet
