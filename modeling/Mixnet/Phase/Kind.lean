import Mixnet.Text.Description

/-!
# Kinds of phases

A round runs through phases of nine kinds: five of precomputation, two of realtime, and two that
mark how the round ended.

## Main definitions

* `PhaseKind`: the kinds, in the order of a round
* `PhaseKind.isPrecomputation`, `PhaseKind.isRealtime`: the two stages of a round
-/

namespace Mixnet

open Mixnet.Text

/-- Which stage of a round a phase computes. -/
inductive PhaseKind where
  | precompGeneration
  | precompShare
  | precompDecrypt
  | precompPermute
  | precompReveal
  | realDecrypt
  | realPermute
  | complete
  | error
deriving DecidableEq

namespace PhaseKind

/-- Every kind, in the order of a round. -/
def all : List PhaseKind :=
  [precompGeneration, precompShare, precompDecrypt, precompPermute, precompReveal, realDecrypt,
    realPermute, complete, error]

/-- The position of a kind in a round. -/
def number : PhaseKind → Nat
  | precompGeneration => 0
  | precompShare => 1
  | precompDecrypt => 2
  | precompPermute => 3
  | precompReveal => 4
  | realDecrypt => 5
  | realPermute => 6
  | complete => 7
  | error => 8

/-- The name of a kind. -/
def text : PhaseKind → String
  | precompGeneration => "PrecompGeneration"
  | precompShare => "PrecompShare"
  | precompDecrypt => "PrecompDecrypt"
  | precompPermute => "PrecompPermute"
  | precompReveal => "PrecompReveal"
  | realDecrypt => "RealDecrypt"
  | realPermute => "RealPermute"
  | complete => "Complete"
  | error => "Error"

/-- The kind with a given name. -/
def ofText? (text : String) : Option PhaseKind := all.find? fun kind => kind.text == text

/-- Whether a kind belongs to the precomputation. -/
def isPrecomputation (kind : PhaseKind) : Bool := kind.number ≤ precompReveal.number

/-- Whether a kind belongs to the realtime part of a round. -/
def isRealtime (kind : PhaseKind) : Bool := kind = realDecrypt || kind = realPermute

/-- The kinds that come after a kind. -/
def later (kind : PhaseKind) : List PhaseKind := all.filter fun other => kind.number < other.number

instance : Describe PhaseKind := ⟨text⟩

end PhaseKind

end Mixnet
