import Mixnet.Error

/-!
# The registry of rounds

A node finds its live rounds by their numbers.

## Main definitions

* `RoundRegistry`: the live rounds
* `RoundRegistry.add`, `RoundRegistry.remove`: a number comes and goes
-/

namespace Mixnet

/-- Things known by round number, at most one for each. -/
structure RoundRegistry (α : Type) where
  /-- The numbers and what they stand for. -/
  entries : List (Nat × α)

namespace RoundRegistry

variable {α : Type}

/-- No rounds. -/
def empty : RoundRegistry α := ⟨[]⟩

/-- What a number stands for. -/
def get? (registry : RoundRegistry α) (id : Nat) : Option α :=
  (registry.entries.find? (·.1 = id)).map (·.2)

/-- Whether a number is taken. -/
def contains (registry : RoundRegistry α) (id : Nat) : Bool := (registry.get? id).isSome

/-- Registers a number that is not taken. -/
def add (registry : RoundRegistry α) (id : Nat) (value : α) :
    Except RoundError (RoundRegistry α) :=
  if registry.contains id then .error (.duplicateRound id)
  else .ok ⟨registry.entries ++ [(id, value)]⟩

/-- Frees a number and answers what it stood for. -/
def remove (registry : RoundRegistry α) (id : Nat) : Option α × RoundRegistry α :=
  (registry.get? id, ⟨registry.entries.filter (·.1 ≠ id)⟩)

/-- The number of rounds. -/
def size (registry : RoundRegistry α) : Nat := registry.entries.length

/-- Whether there is no round. -/
def isEmpty (registry : RoundRegistry α) : Bool := registry.entries.isEmpty

/-- The numbers taken, ascending. -/
def ids (registry : RoundRegistry α) : List Nat := (registry.entries.map (·.1)).mergeSort

end RoundRegistry

end Mixnet
