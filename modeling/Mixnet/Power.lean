/-!
# Powers

Words are measured in powers of two, and decimal fractions in powers of ten.

## Main definitions

* `twoTo`, `tenTo`: the powers
-/

namespace Mixnet

/-- A power of two. -/
def twoTo (exponent : Nat) : Nat := Nat.pow 2 exponent

/-- A power of ten. -/
def tenTo (exponent : Nat) : Nat := Nat.pow 10 exponent

end Mixnet
