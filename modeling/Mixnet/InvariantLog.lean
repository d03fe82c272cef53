import Mixnet.Fault

/-!
# The log of checked invariants

A contract names invariants that a run must have checked.  The log remembers every invariant that
was checked and held, so that a contract over it can name the ones that never were.

## Main definitions

* `InvariantLog`: the invariants that held when they were checked
* `InvariantLog.check`: checks one and records it
* `InvariantLog.contract`: whether all required ones were recorded
-/

namespace Mixnet

/-- The invariants that have been checked and held. -/
structure InvariantLog where
  /-- The recorded invariants, newest first. -/
  checked : List Invariant

namespace InvariantLog

/-- A log without entries. -/
def empty : InvariantLog := ⟨[]⟩

/-- Checks an invariant.  Only a check that holds is recorded. -/
def check (log : InvariantLog) (invariant : Invariant) (condition : Bool) (reason : String)
    (context : Option String) : Except Fault InvariantLog := do
  invariant.require condition reason context
  return ⟨invariant :: log.checked⟩

/-- Fails unless every required invariant has been recorded; the fault names the missing ones. -/
def contract (log : InvariantLog) (label : String) (required : List Invariant) :
    Except Fault Unit :=
  let missing := required.filter fun invariant => !log.checked.contains invariant
  if missing.isEmpty then .ok () else .error (.neverChecked label (missing.map Invariant.name))

end InvariantLog

end Mixnet
