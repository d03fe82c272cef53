/-!
# Fatal faults

Some failures are not answered by an error value.  A wiring or accounting rule that does not hold,
an addition that leaves its machine word, an index past the end of an array: each of them ends the
operation that met it, and nothing after that point is done.  This file names those failures.

## Main definitions

* `Invariant`: a numbered rule of wiring or accounting, with its fixed name
* `Fault`: what ends an operation for good
* `Failure`: either an error of a given kind, or a fault

## Design notes

A fault is a value here, never an escape: an operation that can meet one answers `Except Fault α`,
and if it changes state on the way it answers the changed state beside it.  That is what makes the
statement "this fault never occurs" a statement about a function.
-/

namespace Mixnet

/-! ## Invariants -/

/-- A rule whose violation is fatal, known by its number.  Numbers outside the table below can be
asserted too; they share one name. -/
structure Invariant where
  /-- The number the rule is reported under. -/
  number : Nat
deriving DecidableEq

namespace Invariant

/-- No assignment receives more weight than one full share from each of its inputs. -/
def weightOverflow : Invariant := ⟨1⟩

/-- No more assignments complete than exist. -/
def completionOverflow : Invariant := ⟨2⟩

/-- A phase moves along the edges of its lifecycle only. -/
def illegalTransition : Invariant := ⟨3⟩

/-- Nothing is sent to a queue after it closed. -/
def closedQueueSend : Invariant := ⟨4⟩

/-- Chunks divide assignments, and calls divide chunks. -/
def chunkDividesAssignment : Invariant := ⟨5⟩

/-- A module has between one and `Module.maxThreads` workers. -/
def threadBounds : Invariant := ⟨6⟩

/-- Every module can be reached from the first one. -/
def graphReachable : Invariant := ⟨7⟩

/-- A graph has one entrance, one exit and sizes that fit. -/
def graphShape : Invariant := ⟨8⟩

/-- A phase belongs to one round. -/
def phaseRebind : Invariant := ⟨9⟩

/-- A stream is linked once. -/
def streamRelink : Invariant := ⟨10⟩

/-- A start threshold is a fraction of a whole. -/
def thresholdRange : Invariant := ⟨11⟩

/-- Operations on a graph follow its lifecycle. -/
def graphLifecycle : Invariant := ⟨12⟩

/-- The name an invariant is reported under. -/
def name (invariant : Invariant) : String :=
  match invariant.number with
  | 1 => "WEIGHT_OVERFLOW"
  | 2 => "COMPLETION_OVERFLOW"
  | 3 => "ILLEGAL_TRANSITION"
  | 4 => "CLOSED_QUEUE_SEND"
  | 5 => "CHUNK_DIVIDES_ASSIGNMENT"
  | 6 => "THREAD_BOUNDS"
  | 7 => "GRAPH_REACHABLE"
  | 8 => "GRAPH_SHAPE"
  | 9 => "PHASE_REBIND"
  | 10 => "STREAM_RELINK"
  | 11 => "THRESHOLD_RANGE"
  | 12 => "GRAPH_LIFECYCLE"
  | _ => "UNKNOWN"

end Invariant

/-! ## Faults -/

/-- What ends an operation for good. -/
inductive Fault where
  /-- An invariant did not hold. -/
  | violated (invariant : Invariant) (reason : String) (context : Option String)
  /-- A sum left its machine word. -/
  | sumOverflow
  /-- A difference fell below zero. -/
  | differenceOverflow
  /-- A product left its machine word. -/
  | productOverflow
  /-- A bit was shifted past the end of its machine word. -/
  | shiftOverflow
  /-- A quotient, or a reduction modulo a group's prime, was taken by zero. -/
  | zeroDivisor
  /-- A position was wrapped around an empty ring. -/
  | zeroRing
  /-- A power was taken modulo zero. -/
  | zeroModulus
  /-- The exponent of an inverse fell below zero. -/
  | negativeExponent
  /-- A queue was to have more cells than can be told apart. -/
  | capacityTooLarge
  /-- The cells of a queue were to take more room than there is. -/
  | roomOverflow
  /-- An array of `length` cells has no cell `index`. -/
  | indexOutOfBounds (length index : Nat)
  /-- A chunk was to begin after its end. -/
  | reversedChunk (start stop : Nat)
  /-- A contract required invariants that were never checked. -/
  | neverChecked (label : String) (names : List String)
deriving DecidableEq

namespace Fault

/-- Whether the fault is the violation of an invariant. -/
def isViolation : Fault → Bool
  | violated .. => true
  | _ => false

end Fault

/-- What an operation can end with instead of a value: an error that the caller can answer, or a
fault. -/
inductive Failure (ε : Type) where
  /-- The operation was refused. -/
  | error (error : ε)
  /-- The operation died. -/
  | fault (fault : Fault)
deriving DecidableEq

/-- Fails with a violation of `invariant` unless `condition` holds. -/
def Invariant.require (invariant : Invariant) (condition : Bool) (reason : String)
    (context : Option String) : Except Fault Unit :=
  if condition then .ok () else .error (.violated invariant reason context)

/-- A requirement is met exactly if its condition holds. -/
theorem Invariant.require_eq_ok {invariant : Invariant} {condition : Bool} {reason : String}
    {context : Option String} :
    invariant.require condition reason context = .ok () ↔ condition = true := by
  cases condition <;> simp [require]

/-- A first part that succeeds hands its result to the second. -/
theorem Fault.ok_bind {ε α β : Type} (value : α) (next : α → Except ε β) :
    (Except.ok value >>= next) = next value :=
  rfl

/-- An operation made of two parts succeeds exactly if both do. -/
theorem Fault.bind_eq_ok {ε α β : Type} {first : Except ε α} {next : α → Except ε β}
    {result : β} :
    (first >>= next) = .ok result ↔ ∃ value, first = .ok value ∧ next value = .ok result := by
  cases first <;> simp [bind, Except.bind]

/-- An operation made of two parts is refused exactly if one of them is. -/
theorem Fault.bind_eq_error {ε α β : Type} {first : Except ε α} {next : α → Except ε β}
    {error : ε} :
    (first >>= next) = .error error ↔
      first = .error error ∨ ∃ value, first = .ok value ∧ next value = .error error := by
  cases first <;> simp [bind, Except.bind]

/-- What becomes of a result is there exactly if the result is. -/
theorem Fault.map_eq_ok {ε α β : Type} {answer : Except ε α} {change : α → β} {result : β} :
    answer.map change = .ok result ↔ ∃ value, answer = .ok value ∧ change value = result := by
  cases answer <;> simp [Except.map]

/-- Items that are all accepted are mapped. -/
theorem Fault.mapM_eq_ok {ε α β : Type} {items : List α} {answer : α → Except ε β} {value : α → β}
    (accepted : ∀ item ∈ items, answer item = .ok (value item)) :
    items.mapM answer = .ok (items.map value) := by
  induction items with
  | nil => rfl
  | cons item rest ih =>
      obtain ⟨here, others⟩ := List.forall_mem_cons.mp accepted
      rw [List.mapM_cons, here, Fault.ok_bind, ih others]
      rfl

/-- An operation that begins with a requirement succeeds exactly if the requirement is met and the
rest succeeds. -/
theorem Invariant.require_bind_eq_ok {β : Type} {invariant : Invariant} {condition : Bool}
    {reason : String} {context : Option String} {next : Unit → Except Fault β} {result : β} :
    (invariant.require condition reason context >>= next) = .ok result ↔
      condition = true ∧ next () = .ok result := by
  cases condition <;> simp [require, bind, Except.bind]

/-- An operation that begins with a requirement is refused exactly if the requirement is not met or
the rest is refused. -/
theorem Invariant.require_bind_eq_error {β : Type} {invariant : Invariant} {condition : Bool}
    {reason : String} {context : Option String} {next : Unit → Except Fault β} {fault : Fault} :
    (invariant.require condition reason context >>= next) = .error fault ↔
      condition = false ∧ .violated invariant reason context = fault ∨
        condition = true ∧ next () = .error fault := by
  cases condition <;> simp [require, bind, Except.bind]

end Mixnet
