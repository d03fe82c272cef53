import Mixnet.Tape
import Mixnet.Word

/-!
# Shuffling

A shuffle visits the positions of an array from the last to the second and swaps each with a
position picked uniformly among those up to it.  A pick scales a random word to the wanted range and
draws again whenever the word falls into the part of the range that would favour some results.

## Main definitions

* `Shuffle.zone`: which scaled words are accepted
* `Shuffle.pick`: a position below a bound
* `Shuffle.shuffle`: the whole walk

## Design notes

A pick ends on every tape.  Each refused word uses up tape, and past the end of the tape the word is
zero, which is always accepted.
-/

namespace Mixnet.Shuffle

/-- The greatest low word of a scaled draw that is accepted for `bound`: the bound shifted to the
top of the word, less one. -/
def zone (bound : Nat) : Nat := bound * twoTo (31 - Nat.log2 bound) - 1

/-- A refused draw has used up tape: past the end of a tape the word is zero, and zero is always
accepted. -/
theorem shorter_of_refused {bound : Nat} {tape : Tape}
    (refused : ¬ tape.word.1 * bound % Word.limit 32 ≤ zone bound) :
    tape.word.2.bytes.length < tape.bytes.length := by
  rcases tape with ⟨bytes⟩
  cases bytes with
  | nil => exact absurd (by simp [Tape.word, Tape.read, List.replicate]) refused
  | cons byte rest =>
    simp only [Tape.word, Tape.read, List.drop_succ_cons, List.length_drop, List.length_cons]
    omega

/-- A position below `bound`, and the tape after it. -/
def pick (bound : Nat) (tape : Tape) : Nat × Tape :=
  let drawn := tape.word
  let scaled := drawn.1 * bound
  if accepted : scaled % Word.limit 32 ≤ zone bound then (scaled / Word.limit 32, drawn.2)
  else
    have := shorter_of_refused accepted
    pick bound drawn.2
termination_by tape.bytes.length

/-- Swaps position `index` and each one before it, down to the second, with a picked position. -/
def shuffleFrom {α : Type} (index : Nat) (cells : Array α) (tape : Tape) : Array α × Tape :=
  match index with
  | 0 => (cells, tape)
  | below + 1 =>
    let (other, rest) := pick (below + 2) tape
    shuffleFrom below (cells.swapIfInBounds (below + 1) other) rest

/-- A shuffled array, and the tape after it. -/
def shuffle {α : Type} (cells : Array α) (tape : Tape) : Array α × Tape :=
  shuffleFrom (cells.size - 1) cells tape

end Mixnet.Shuffle
