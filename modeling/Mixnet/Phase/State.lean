import Mixnet.Text.Description

/-!
# The lifecycle of a phase

A phase starts out initialized and becomes active when it is selected to run.  When its work is done
it is verified at once, or computed first if a peer has to verify it.  From every state before
`verified` it can fail; `verified` and `error` are final.

## Main definitions

* `PhaseState`: the states
* `PhaseState.canMoveTo`: the edges between them
-/

namespace Mixnet

open Mixnet.Text

/-- Where a phase stands in its lifecycle. -/
inductive PhaseState where
  | initialized
  | active
  | computed
  | verified
  | error
deriving DecidableEq

namespace PhaseState

/-- Every state, in the order of the lifecycle. -/
def all : List PhaseState := [initialized, active, computed, verified, error]

/-- The position of a state in the lifecycle. -/
def number : PhaseState → Nat
  | initialized => 0
  | active => 1
  | computed => 2
  | verified => 3
  | error => 4

/-- The text of a state. -/
def text : PhaseState → String
  | initialized => "initialized"
  | active => "active"
  | computed => "computed"
  | verified => "verified"
  | error => "error"

/-- The state with a given text. -/
def ofText? (text : String) : Option PhaseState := all.find? fun state => state.text == text

/-- The edges of the lifecycle. -/
def canMoveTo : PhaseState → PhaseState → Bool
  | initialized, active => true
  | active, computed => true
  | active, verified => true
  | computed, verified => true
  | initialized, error => true
  | active, error => true
  | computed, error => true
  | _, _ => false

instance : Describe PhaseState :=
  ⟨fun
    | initialized => "Initialized"
    | active => "Active"
    | computed => "Computed"
    | verified => "Verified"
    | error => "Error"⟩

end PhaseState

end Mixnet
