import Mixnet.Binary32.Text
import Mixnet.Error
import Mixnet.Module

/-!
# Configuration

The settings of a node, with two sets of defaults and the bounds a node insists on.

## Main definitions

* `NodeConfig`: the settings
* `NodeConfig.standard`, `NodeConfig.minimal`: the defaults
* `NodeConfig.validate`: the first setting out of bounds, if there is one
-/

namespace Mixnet

/-- The settings of a node. -/
structure NodeConfig where
  /-- The capacity of the queue of completed batches. -/
  completedCapacity : Nat
  /-- The capacity of the queue of batch requests. -/
  requestCapacity : Nat
  /-- How long a phase may run unless it says otherwise. -/
  phaseTimeout : Span
  /-- How long a failed phase waits for its workers. -/
  killTimeout : Span
  /-- The number of workers of a module unless it says otherwise. -/
  defaultThreads : Nat
  /-- The least number of slots a module hands on. -/
  minSlotSize : Nat
  /-- The start threshold of the output of every graph. -/
  outputThreshold : Binary32

namespace NodeConfig

/-- The defaults on a machine that runs `cores` threads at a time. -/
def standard (cores : Nat) : NodeConfig where
  completedCapacity := 100
  requestCapacity := 100
  phaseTimeout := .ofSeconds 120
  killTimeout := .ofSeconds 1
  defaultThreads := min cores Module.maxThreads
  minSlotSize := 1
  outputThreshold := .zero

/-- Defaults with one worker for each module and short timeouts. -/
def minimal : NodeConfig :=
  { standard 1 with phaseTimeout := .ofSeconds 5, killTimeout := .ofMillis 200 }

/-- Refuses settings out of bounds; the first one is named. -/
def validate (config : NodeConfig) : Except ConfigError Unit :=
  if config.completedCapacity = 0 then
    .error (.invalid "completed_batch_capacity must be at least 1")
  else if config.requestCapacity = 0 then
    .error (.invalid "request_batch_capacity must be at least 1")
  else if config.defaultThreads = 0 ∨ Module.maxThreads < config.defaultThreads then
    .error (.invalid (s!"default_num_threads must be between 1 and {Module.maxThreads}, " ++
      s!"got {config.defaultThreads}"))
  else if config.minSlotSize = 0 then .error (.invalid "min_slot_size must be at least 1")
  else if !config.outputThreshold.isFraction then
    .error (.invalid ("output_threshold must lie in [0, 1], got " ++ config.outputThreshold.text))
  else if config.phaseTimeout.isZero then .error (.invalid "phase_timeout must be positive")
  else .ok ()

/-- The configuration itself, if it is valid. -/
def checked (config : NodeConfig) : Except ConfigError NodeConfig :=
  config.validate.map fun _ => config

end NodeConfig

end Mixnet
