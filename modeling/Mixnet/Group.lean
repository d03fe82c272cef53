import Mixnet.Error
import Mixnet.Tape

/-!
# The cyclic group

Payloads are elements of the multiplicative group of integers modulo a prime.  An element travels as
a big-endian number of fixed width, the width of the prime.

## Main definitions

* `Bytes.ofNat`, `Bytes.toNat`: the least big-endian form of a number, and its reading
* `CyclicGroup`: a modulus and a generator
* `CyclicGroup.element`: the element an arbitrary number stands for
* `CyclicGroup.multiply`, `CyclicGroup.power`, `CyclicGroup.inverse`: the group's operations
* `CyclicGroup.decode?`, `CyclicGroup.encode`: the two directions of the wire form

## Design notes

An element is a natural number; `CyclicGroup.contains` says which numbers are elements.  Nothing
checks that the modulus is prime, so the operations name the fault that a modulus of zero meets, and
an inverse is the power that inverts in a prime group.
-/

namespace Mixnet

open Mixnet.Text

/-! ## Big-endian numbers -/

namespace Bytes

/-- The bytes of a positive number, most significant first, in front of `rest`; zero has none. -/
def onto (value : Nat) (rest : List UInt8) : List UInt8 :=
  if value = 0 then rest else onto (value / 256) (UInt8.ofNat (value % 256) :: rest)
termination_by value
decreasing_by omega

/-- The least big-endian form of a number; zero takes one byte. -/
def ofNat (value : Nat) : List UInt8 := if value = 0 then [0] else onto value []

/-- The number a big-endian byte string stands for. -/
def toNat (bytes : List UInt8) : Nat := bytes.foldl (fun value byte => value * 256 + byte.toNat) 0

end Bytes

/-! ## The group -/

/-- The multiplicative group modulo `prime`. -/
structure CyclicGroup where
  /-- The modulus. -/
  prime : Nat
  /-- The generator. -/
  generator : Nat
deriving DecidableEq

namespace CyclicGroup

/-- The width in bytes of every encoded element. -/
def byteLength (group : CyclicGroup) : Nat := (Bytes.ofNat group.prime).length

/-- The neutral element. -/
def identity : Nat := 1

/-- Whether a number is an element. -/
def contains (group : CyclicGroup) (value : Nat) : Bool := 0 < value && value < group.prime

/-- A number reduced modulo the prime. -/
def reduce (group : CyclicGroup) (value : Nat) : Except Fault Nat :=
  if group.prime = 0 then .error .zeroDivisor else .ok (value % group.prime)

/-- The element an arbitrary number stands for: its residue, or the identity if that is zero. -/
def element (group : CyclicGroup) (value : Nat) : Except Fault Nat := do
  let residue ← group.reduce value
  return if residue = 0 then identity else residue

/-- The product of two elements. -/
def multiply (group : CyclicGroup) (left right : Nat) : Except Fault Nat :=
  group.reduce (left * right)

/-- The residue of a power, by repeated squaring. -/
def powerMod (modulus base exponent : Nat) : Nat :=
  if exponent = 0 then 1 % modulus
  else
    let half := powerMod modulus (base * base % modulus) (exponent / 2)
    if exponent % 2 = 1 then base * half % modulus else half
termination_by exponent
decreasing_by omega

/-- A power of an element. -/
def power (group : CyclicGroup) (base exponent : Nat) : Except Fault Nat :=
  if group.prime = 0 then .error .zeroModulus else .ok (powerMod group.prime base exponent)

/-- The inverse of an element: in a prime group, the power with exponent `prime - 2`. -/
def inverse (group : CyclicGroup) (value : Nat) : Except Fault Nat :=
  if group.prime < 2 then .error .negativeExponent else group.power value (group.prime - 2)

/-- An element drawn from a tape.  Eight bytes more than the width of the prime are read, so that
reduction leaves next to no bias. -/
def random (group : CyclicGroup) (tape : Tape) : Except Fault Nat × Tape :=
  let (bytes, rest) := tape.read (group.byteLength + 8)
  (group.element (Bytes.toNat bytes), rest)

/-! ## The wire form -/

/-- The element a big-endian byte string stands for, unless its value is outside the group. -/
def decode? (group : CyclicGroup) (bytes : List UInt8) : Except StreamError Nat :=
  let value := Bytes.toNat bytes
  if group.contains value then .ok value else .error .notInGroup

/-- An element in the width of the prime; a wider number keeps its own width. -/
def encode (group : CyclicGroup) (value : Nat) : List UInt8 :=
  let bytes := Bytes.ofNat value
  List.replicate (group.byteLength - bytes.length) 0 ++ bytes

/-- The description of an element. -/
def describeElement (value : Nat) : String := wrapped "GroupElement" [Hex.ofNat value]

end CyclicGroup

end Mixnet
