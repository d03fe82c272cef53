import Mixnet.Proofs.Contiguity

/-!
# Faults that are no transitions

Of all faults only one says that a phase was to move along no edge of its lifecycle, and only a move
of a phase can raise it.  This file follows the other operations that a delivery and a run are made
of, and finds that none of them does.

## Main definitions

* `Fault.isTransition`: whether a fault is an illegal move of a phase
* `Fault.Lawful`: a result that is no such fault

## Main statements

* `Round.lawful_deliver`: delivering an event raises no such fault
* `Graph.lawful_run`, `Graph.lawful_takeOutput`: neither does running a graph or taking its output
-/

namespace Mixnet

namespace Fault

/-- Whether a fault is a move of a phase along no edge of its lifecycle. -/
def isTransition : Fault → Bool
  | violated invariant .. => invariant = .illegalTransition
  | _ => false

/-- A result that is no illegal move of a phase. -/
def Lawful {α : Type} (result : Except Fault α) : Prop :=
  ∀ fault, result = .error fault → fault.isTransition = false

@[simp] theorem lawful_ok {α : Type} (value : α) : Lawful (.ok value) := by
  simp [Lawful]

@[simp] theorem lawful_error {α : Type} {fault : Fault} :
    Lawful (.error fault : Except Fault α) ↔ fault.isTransition = false := by
  simp [Lawful]

theorem Lawful.bind {α β : Type} {first : Except Fault α} {next : α → Except Fault β}
    (head : Lawful first) (tail : ∀ value, Lawful (next value)) : Lawful (first >>= next) := by
  cases first with
  | error fault => exact lawful_error.mpr (head fault rfl)
  | ok value => exact tail value

theorem lawful_require {invariant : Invariant} (other : invariant ≠ .illegalTransition)
    (condition : Bool) (reason : String) (context : Option String) :
    Lawful (invariant.require condition reason context) := by
  rw [Invariant.require]
  split
  · exact lawful_ok _
  · exact lawful_error.mpr (decide_eq_false other)

end Fault

open Fault

/-! ## Words and chunks -/

theorem Word.lawful_sum (width left right : Nat) : Lawful (sum width left right) := by
  rw [sum]
  split <;> simp [isTransition]

theorem Word.lawful_product (width left right : Nat) : Lawful (product width left right) := by
  rw [product]
  split <;> simp [isTransition]

theorem Chunk.lawful_ofBounds (start stop : Nat) : Lawful (ofBounds start stop) := by
  rw [ofBounds]
  repeat' split
  all_goals simp [isTransition]

theorem Chunk.lawful_ofLength (start length : Nat) : Lawful (ofLength start length) :=
  (Word.lawful_sum 32 start length).bind fun _ => lawful_ofBounds _ _

/-! ## Assignments -/

namespace AssignmentList

theorem lawful_addWeight (list : AssignmentList) (index weight : Nat) :
    Lawful (list.addWeight index weight).1 := by
  rw [addWeight]
  split
  case h_1 => exact lawful_error.mpr rfl
  case h_2 before _ =>
    dsimp only
    split
    case h_1 fault overflow =>
      exact lawful_error.mpr (Word.lawful_sum 32 before weight fault overflow)
    case h_2 =>
      split
      · exact lawful_ok _
      · exact lawful_error.mpr rfl

theorem lawful_absorb (list : AssignmentList) (position remaining : Nat) (ready : List Chunk) :
    Lawful (list.absorb position remaining ready).1 := by
  fun_induction absorb list position remaining ready with
  | case1 => exact lawful_ok _
  | case2 => exact lawful_error.mpr rfl
  | case3 => exact lawful_error.mpr rfl
  | case4 list position remaining ready _ _ _ _ fault found =>
      exact lawful_error.mpr (Word.lawful_product _ _ _ fault found)
  | case5 list position remaining ready _ _ index _ edge _ _ weight fault stored added =>
      exact lawful_error.mpr (lawful_addWeight list index weight fault (congrArg Prod.fst added))
  | case6 list position remaining ready _ _ _ _ _ _ _ _ _ _ ih => exact ih
  | case7 list position remaining ready _ _ index _ edge _ _ weight stored _ fault found =>
      exact lawful_error.mpr (Chunk.lawful_ofLength _ _ fault found)
  | case8 list position remaining ready _ _ _ _ _ _ _ _ _ _ _ _ ih => exact ih

theorem lawful_gate (list : AssignmentList) (ready : List Chunk) : Lawful (list.gate ready).1 := by
  rw [gate]
  split
  case isTrue => exact lawful_ok _
  case isFalse =>
    dsimp only
    split
    case h_1 fault overflow => exact lawful_error.mpr (Word.lawful_sum _ _ _ fault overflow)
    case h_2 =>
      repeat' split
      all_goals exact lawful_ok _

theorem lawful_prime (list : AssignmentList) (chunk : Chunk) : Lawful (list.prime chunk).1 := by
  rw [prime]
  split
  case h_1 fault _ failed =>
    exact lawful_error.mpr (lawful_absorb list _ _ _ fault (congrArg Prod.fst failed))
  case h_2 ready stored _ => exact stored.lawful_gate ready

theorem lawful_complete (list : AssignmentList) (released : Nat) :
    Lawful (list.complete released).1 := by
  rw [complete]
  split
  case isTrue => exact lawful_ok _
  case isFalse =>
    dsimp only
    split
    case h_1 fault overflow => exact lawful_error.mpr (Word.lawful_sum _ _ _ fault overflow)
    case h_2 =>
      split
      · exact lawful_ok _
      · exact lawful_error.mpr rfl

end AssignmentList

/-! ## Graphs -/

namespace Dispatch

theorem lawful_enqueue (dispatch : Dispatch) (target : Nat) (module : Module)
    (released : List Chunk) : Lawful (dispatch.enqueue target module released).1 := by
  have counted := module.assignments.lawful_complete released.length
  rw [enqueue]
  split
  case isTrue =>
    dsimp only
    split
    · exact lawful_ok _
    · exact lawful_error.mpr rfl
  case isFalse =>
    dsimp only
    split
    · exact lawful_ok _
    · exact counted

theorem lawful_prime (dispatch : Dispatch) (source : Option Nat) (target : Nat) (piece : Chunk) :
    Lawful (dispatch.prime source target piece).1 := by
  rw [prime]
  split
  case h_1 => exact lawful_error.mpr rfl
  case h_2 module _ =>
    dsimp only
    split
    case h_1 fault _ failed =>
      have lawful := module.assignments.lawful_prime piece
      exact lawful_error.mpr (lawful fault (congrArg Prod.fst failed))
    case h_2 => exact lawful_enqueue _ _ _ _

end Dispatch

namespace Graph

theorem lawful_dispatched (graph : Graph) : Lawful graph.dispatched := by
  rw [dispatched]
  split
  · exact lawful_ok _
  · exact lawful_error.mpr rfl

/-- Sending input raises no illegal transition. -/
theorem lawful_send (graph : Graph) (chunk : Chunk) : Lawful (graph.send chunk).1 := by
  rw [send]
  split
  case h_1 fault failed => exact lawful_error.mpr (graph.lawful_dispatched fault failed)
  case h_2 dispatch _ =>
    split
    case isTrue => exact lawful_ok _
    case isFalse =>
      dsimp only
      split
      case isTrue => exact lawful_error.mpr rfl
      case isFalse => exact dispatch.lawful_prime _ _ _

/-- Running a graph raises no illegal transition. -/
theorem lawful_run (graph : Graph) : Lawful graph.run := by
  rw [run]
  split
  case isTrue => exact lawful_ok _
  case isFalse =>
    refine (lawful_require (by decide) _ _ _).bind fun _ => ?_
    exact graph.lawful_dispatched.bind fun _ => lawful_ok _

/-- Taking output raises no illegal transition. -/
theorem lawful_takeOutput (graph : Graph) : Lawful graph.takeOutput := by
  refine graph.lawful_dispatched.bind fun dispatch => ?_
  split
  case h_1 => exact lawful_error.mpr rfl
  case h_2 => exact lawful_ok _

end Graph

/-! ## Deliveries -/

theorem Phase.lawful_padding? (phase : Phase) : Lawful phase.padding? := by
  rw [padding?]
  split
  case isTrue =>
    cases bounded : Chunk.ofBounds phase.batchSize phase.graph.expandedSize with
    | error fault => exact lawful_error.mpr (Chunk.lawful_ofBounds _ _ fault bounded)
    | ok => exact lawful_ok _
  case isFalse => exact lawful_ok _

theorem Phase.lawful_sendPadding (phase : Phase) (chunk : Chunk) (done : Bool) :
    Lawful (phase.sendPadding chunk done).1 := by
  rw [sendPadding]
  split
  case isTrue =>
    split
    case h_1 fault failed => exact lawful_error.mpr (phase.lawful_padding? fault failed)
    case h_2 => exact lawful_ok _
    case h_3 padding _ => exact phase.graph.lawful_send padding
  case isFalse => exact lawful_ok _

theorem Phase.lawful_send (phase : Phase) (chunk : Chunk) : Lawful (phase.send chunk).outcome := by
  show Lawful (phase.sendPadded chunk).1
  rw [sendPadded]
  split
  case h_1 fault _ failed =>
    exact lawful_error.mpr (phase.graph.lawful_send chunk fault (congrArg Prod.fst failed))
  case h_2 graph _ => exact Phase.lawful_sendPadding _ chunk _

theorem lawful_slotRange {slots : List Slot} {batchSize : Nat} {fault : Fault}
    (faulted : slotRange slots batchSize = .error (.fault fault)) : fault.isTransition = false := by
  have ranges := slotRange_ranges slots batchSize
  rw [faulted] at ranges
  cases ranges
  rfl

/-- **A delivery raises no illegal transition.**  The one move that an event can ask for is made
only if the phase waits for it. -/
theorem Round.lawful_deliver {round : Round} {tag : String} {event : Event} {fault : Fault}
    (faulted : (round.deliver tag event).outcome = .error (.fault fault)) :
    fault.isTransition = false := by
  rcases round.deliver_cases tag event with ⟨error, refused⟩ | ⟨-, target, -, -, drives⟩
  · rw [refused] at faulted
    cases faulted
  · generalize round.deliver tag event = delivery at drives faulted
    cases drives with
    | misplaced refused =>
        injection faulted with same
        subst same
        exact lawful_slotRange refused
    | crashed range taken failed =>
        injection faulted with faulted
        injection faulted with same
        subst same
        exact Phase.lawful_send _ _ _ failed
    | spoiled => cases faulted
    | sent => cases faulted
    | started => cases faulted
    | unready => cases faulted
    | verified => cases faulted

end Mixnet
