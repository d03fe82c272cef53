import Mixnet.Phase

/-!
# The resource queue

Phases that have been claimed wait in a queue, and a single consumer runs them one at a time in the
order in which they came.

## Main definitions

* `ResourceQueue`: what waits, and what the consumer is doing
* `ResourceQueue.push`, `ResourceQueue.shutdown`: the end that phases are put in
* `Report`, `verdict`: what the consumer hears of a running phase, and what it makes of it

## Design notes

The queue holds references to phases of some type; what a reference means is up to the node.

A kernel failure closes the output early, so it is the cause of whatever the transmitter reports
after it: the verdict looks for it first.
-/

namespace Mixnet

/-- A phase being run. -/
structure RunningPhase (ρ : Type) where
  /-- The phase. -/
  phase : ρ
  /-- How far its transmission has come. -/
  transmission : Transmission
  /-- How its transmission ended, once it has. -/
  result : Option TransmitResult

/-- The phases that wait to be run, and the one that is. -/
structure ResourceQueue (ρ : Type) where
  /-- The phases waiting, oldest first. -/
  waiting : List ρ
  /-- Whether more phases are accepted. -/
  accepting : Bool
  /-- The phase the consumer is running. -/
  running : Option (RunningPhase ρ)
  /-- The fault that stopped the consumer for good. -/
  fault : Option Fault

namespace ResourceQueue

variable {ρ : Type}

/-- An open queue with nothing to do. -/
def create : ResourceQueue ρ where
  waiting := []
  accepting := true
  running := none
  fault := none

/-- Puts a phase at the end.  Answers whether the queue still accepts phases. -/
def push (queue : ResourceQueue ρ) (phase : ρ) : Bool × ResourceQueue ρ :=
  if queue.accepting then (true, { queue with waiting := queue.waiting ++ [phase] })
  else (false, queue)

/-- Accepts no more phases; those waiting are still run. -/
def shutdown (queue : ResourceQueue ρ) : ResourceQueue ρ := { queue with accepting := false }

end ResourceQueue

/-! ## Verdicts -/

/-- What the consumer hears of a running phase. -/
inductive Report where
  /-- Its transmission has ended. -/
  | transmitted (result : TransmitResult)
  /-- Its time is up. -/
  | expired (after : Span)

/-- Whether a phase has done its work, or what it failed with. -/
def verdict (phase : Phase) (report : Report) : Except RoundError Unit :=
  match phase.graph.failure with
  | some failure => .error (.kernel failure.module failure.error)
  | none =>
    match report with
    | .expired after => .error (.timeout phase.kind after)
    | .transmitted .died => .error (.terminated phase.kind)
    | .transmitted (.returned (.error error)) => .error (.transport error)
    | .transmitted (.returned (.ok ())) =>
      if phase.graph.isComplete then .ok () else .error (.terminated phase.kind)

end Mixnet
