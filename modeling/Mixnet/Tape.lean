/-!
# Random tapes

Randomness is read from a tape of bytes.  A tape is finite, and past its end come zeros without end,
so every amount can be read.

## Main definitions

* `Tape.read`: the next bytes
* `Tape.word`: the next 32-bit word
-/

namespace Mixnet

/-- A source of random bytes. -/
structure Tape where
  /-- The bytes before the zeros. -/
  bytes : List UInt8

namespace Tape

/-- The next `count` bytes, and the tape after them. -/
def read (tape : Tape) (count : Nat) : List UInt8 × Tape :=
  let taken := tape.bytes.take count
  (taken ++ List.replicate (count - taken.length) 0, ⟨tape.bytes.drop count⟩)

/-- The next four bytes as one number, most significant byte first. -/
def word (tape : Tape) : Nat × Tape :=
  let (bytes, rest) := tape.read 4
  (bytes.foldl (fun value byte => value * 256 + byte.toNat) 0, rest)

end Tape

end Mixnet
