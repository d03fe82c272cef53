import Mixnet.Group
import Mixnet.GroupArray
import Mixnet.Shuffle

/-!
# The round buffer

The phases of a round share one buffer of secrets: fifteen vectors of group values, two single
values and a permutation of the batch.  Precomputation writes them and realtime reads them.  Vectors
are as long as the largest padded batch of the round; the permutation moves real slots only.

## Main definitions

* `Quintet`, `Family`, `Letter`, `VectorName`: how the fifteen vectors are named
* `RoundBuffer`: the buffer
* `RoundBuffer.create`: a buffer of identities
* `RoundBuffer.setPermutation`, `RoundBuffer.shufflePermutation`: changing the permutation
* `RoundBuffer.isPermutation`: the permutation is one, and padding stays put
* `RoundBuffer.erase`: back to identities

## Design notes

The fifteen vectors are three families of five: the blinding values themselves, their inverses, and
the products of precomputation.  One accessor and one update serve all of them.
-/

namespace Mixnet

/-! ## Names of vectors -/

/-- Which of the five vectors of a family. -/
inductive Letter where
  | r | s | t | u | v
deriving DecidableEq

/-- Which family of vectors. -/
inductive Family where
  /-- The blinding values. -/
  | direct
  /-- The inverses of the blinding values. -/
  | inverse
  /-- The values of the precomputation. -/
  | precomputed
deriving DecidableEq

/-- The name of one of the fifteen vectors. -/
structure VectorName where
  /-- The family. -/
  family : Family
  /-- The vector within the family. -/
  letter : Letter
deriving DecidableEq

namespace VectorName

/-- The letter a character names. -/
def letter? : Char → Option Letter
  | 'r' => some .r
  | 's' => some .s
  | 't' => some .t
  | 'u' => some .u
  | 'v' => some .v
  | _ => none

/-- The vector with a given name: a letter alone, with its inverse mark, or behind the mark of the
precomputed family. -/
def ofText? (text : String) : Option VectorName :=
  match text.toList with
  | [char] => (letter? char).map (⟨.direct, ·⟩)
  | [char, '_', 'i', 'n', 'v'] => (letter? char).map (⟨.inverse, ·⟩)
  | ['y', '_', char] => (letter? char).map (⟨.precomputed, ·⟩)
  | _ => none

end VectorName

/-- Five things, one for each letter. -/
structure Quintet (α : Type) where
  r : α
  s : α
  t : α
  u : α
  v : α
deriving DecidableEq

namespace Quintet

variable {α : Type}

/-- Five equal things. -/
def all (value : α) : Quintet α := ⟨value, value, value, value, value⟩

/-- The thing under a letter. -/
def get (five : Quintet α) : Letter → α
  | .r => five.r
  | .s => five.s
  | .t => five.t
  | .u => five.u
  | .v => five.v

/-- Puts another thing under a letter. -/
def set (five : Quintet α) (letter : Letter) (value : α) : Quintet α :=
  match letter with
  | .r => { five with r := value }
  | .s => { five with s := value }
  | .t => { five with t := value }
  | .u => { five with u := value }
  | .v => { five with v := value }

end Quintet

/-! ## The buffer -/

/-- The secrets shared by the phases of a round. -/
structure RoundBuffer where
  /-- The group of every value. -/
  group : CyclicGroup
  /-- The number of real slots. -/
  batchSize : Nat
  /-- The length of every vector, padding included. -/
  expandedSize : Nat
  /-- The blinding values. -/
  direct : Quintet GroupArray
  /-- The inverses of the blinding values. -/
  inverse : Quintet GroupArray
  /-- The values of the precomputation. -/
  precomputed : Quintet GroupArray
  /-- A group value shared by all slots. -/
  z : Nat
  /-- The key of the round's ciphertexts. -/
  publicKey : Nat
  /-- Where each slot lands. -/
  permutation : Array Nat
deriving DecidableEq

namespace RoundBuffer

/-- A buffer of identities, with the permutation that moves nothing.  An expanded size below the
batch size is raised to it. -/
def create (group : CyclicGroup) (batchSize expandedSize : Nat) : RoundBuffer :=
  let expanded := max expandedSize batchSize
  let vectors := Quintet.all (GroupArray.filled expanded CyclicGroup.identity)
  { group, batchSize
    expandedSize := expanded
    direct := vectors
    inverse := vectors
    precomputed := vectors
    z := CyclicGroup.identity
    publicKey := CyclicGroup.identity
    permutation := Array.range expanded }

/-! ### Vectors -/

/-- One of the fifteen vectors. -/
def vector (buffer : RoundBuffer) (name : VectorName) : GroupArray :=
  match name.family with
  | .direct => buffer.direct.get name.letter
  | .inverse => buffer.inverse.get name.letter
  | .precomputed => buffer.precomputed.get name.letter

/-- Puts another vector under a name. -/
def setVector (buffer : RoundBuffer) (name : VectorName) (array : GroupArray) : RoundBuffer :=
  match name.family with
  | .direct => { buffer with direct := buffer.direct.set name.letter array }
  | .inverse => { buffer with inverse := buffer.inverse.set name.letter array }
  | .precomputed => { buffer with precomputed := buffer.precomputed.set name.letter array }

/-- Changes one of the fifteen vectors. -/
def modifyVector (buffer : RoundBuffer) (name : VectorName)
    (change : GroupArray → Except Fault GroupArray) : Except Fault RoundBuffer := do
  return buffer.setVector name (← change (buffer.vector name))

/-! ### The permutation -/

/-- The permutation of the real slots. -/
def realPermutation (buffer : RoundBuffer) : List Nat :=
  buffer.permutation.toList.take buffer.batchSize

/-- Where a slot lands. -/
def permutedIndex (buffer : RoundBuffer) (index : Nat) : Except Fault Nat :=
  match buffer.permutation[index]? with
  | some target => .ok target
  | none => .error (.indexOutOfBounds buffer.permutation.size index)

/-- The padding slots, each in its own place. -/
def padding (buffer : RoundBuffer) : List Nat :=
  List.range' buffer.batchSize (buffer.expandedSize - buffer.batchSize)

/-- Marks the place of each target, and answers whether every one has a place that was not marked
before. -/
def marksEach : List Nat → Array Bool → Bool
  | [], _ => true
  | target :: rest, seen =>
    match seen[target]? with
    | some false => marksEach rest (seen.setIfInBounds target true)
    | _ => false

/-- Whether a list is a rearrangement of the numbers below `size`: it has that many entries, and
each of them marks a place of its own. -/
def isBijection (targets : List Nat) (size : Nat) : Bool :=
  targets.length = size && marksEach targets (Array.replicate targets.length false)

/-- Replaces the permutation of the real slots.  A list that is not a rearrangement of them changes
nothing. -/
def setPermutation (buffer : RoundBuffer) (targets : List Nat) : Bool × RoundBuffer :=
  if isBijection targets buffer.batchSize then
    (true, { buffer with permutation := (targets ++ buffer.padding).toArray })
  else (false, buffer)

/-- Shuffles the real slots with the randomness of a tape; padding stays where it is. -/
def shufflePermutation (buffer : RoundBuffer) (tape : Tape) : RoundBuffer × Tape :=
  let real := (buffer.permutation.toList.take buffer.batchSize).toArray
  let (shuffled, rest) := Shuffle.shuffle real tape
  let targets := shuffled.toList ++ buffer.permutation.toList.drop buffer.batchSize
  ({ buffer with permutation := targets.toArray }, rest)

/-- Whether the real slots are rearranged among themselves and padding stays put. -/
def isPermutation (buffer : RoundBuffer) : Bool :=
  isBijection buffer.realPermutation buffer.batchSize &&
    buffer.permutation.toList.drop buffer.batchSize = buffer.padding

/-- Overwrites every secret with the identity. -/
def erase (buffer : RoundBuffer) : RoundBuffer :=
  create buffer.group buffer.batchSize buffer.expandedSize

end RoundBuffer

end Mixnet
