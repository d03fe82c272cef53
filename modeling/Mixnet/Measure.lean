import Mixnet.Phase.Kind

/-!
# Measurements

Four moments in the life of a phase are measured.  A measurement names the round, the phase, the
moment and the time.

## Main definitions

* `Milestone`: the moments
* `Measurement`, `Metrics`: what has been measured, in order
* `Metrics.milestones`: the moments recorded for one phase of one round
-/

namespace Mixnet

/-- A moment in the life of a phase. -/
inductive Milestone where
  | firstSlotReceived
  | lastSlotReceived
  | lastSlotTransmitted
  | verification
deriving DecidableEq

namespace Milestone

/-- Every moment, in order. -/
def all : List Milestone :=
  [firstSlotReceived, lastSlotReceived, lastSlotTransmitted, verification]

/-- The tag a moment is recorded under. -/
def text : Milestone → String
  | firstSlotReceived => "first slot received"
  | lastSlotReceived => "last slot received"
  | lastSlotTransmitted => "last slot transmitted"
  | verification => "verification"

end Milestone

/-- A recorded moment. -/
structure Measurement where
  /-- The round. -/
  roundId : Nat
  /-- The phase. -/
  phase : PhaseKind
  /-- The moment. -/
  milestone : Milestone
  /-- The time, in the unit of whoever measures. -/
  time : Nat
deriving DecidableEq

/-- Everything measured so far. -/
structure Metrics where
  /-- The measurements, oldest first. -/
  entries : List Measurement
deriving DecidableEq

namespace Metrics

/-- Nothing measured. -/
def empty : Metrics := ⟨[]⟩

/-- The number of measurements. -/
def size (metrics : Metrics) : Nat := metrics.entries.length

/-- Adds a measurement. -/
def measure (metrics : Metrics) (measurement : Measurement) : Metrics :=
  ⟨metrics.entries ++ [measurement]⟩

/-- The moments recorded for one phase of one round, in order. -/
def milestones (metrics : Metrics) (roundId : Nat) (phase : PhaseKind) : List Milestone :=
  (metrics.entries.filter fun entry => entry.roundId = roundId && entry.phase = phase).map
    Measurement.milestone

end Metrics

end Mixnet
