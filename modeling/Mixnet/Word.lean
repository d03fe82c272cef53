import Mixnet.Fault
import Mixnet.Power

/-!
# Arithmetic that stays inside a machine word

Slot counts, weights and sizes are 32-bit words wherever they meet the outside; positions in a ring
are 64-bit words.  Every quantity in this library is a natural number, and the width of a word
appears only where a result can leave it: an operation below answers the exact result, or a fault if
the word cannot hold it.

## Main definitions

* `Word.limit`: how many values a word of a given width has
* `Word.sum`, `Word.product`, `Word.difference`: exact results, or the fault
* `Word.narrow`: the low bits of a number

## Design notes

The operations take the width as an argument, so one law about them serves both widths in use.
-/

namespace Mixnet.Word

/-- The number of values a word of `width` bits has. -/
def limit (width : Nat) : Nat := twoTo width

/-- The largest value of a word of `width` bits. -/
def greatest (width : Nat) : Nat := limit width - 1

/-- The sum of two words, if it is a word. -/
def sum (width left right : Nat) : Except Fault Nat :=
  if left + right < limit width then .ok (left + right) else .error .sumOverflow

/-- The product of two words, if it is a word. -/
def product (width left right : Nat) : Except Fault Nat :=
  if left * right < limit width then .ok (left * right) else .error .productOverflow

/-- The difference of two words, if it is not negative. -/
def difference (left right : Nat) : Except Fault Nat :=
  if right ≤ left then .ok (left - right) else .error .differenceOverflow

/-- The low `width` bits of a number. -/
def narrow (width value : Nat) : Nat := value % limit width

theorem sum_eq_ok {width left right : Nat} (fits : left + right < limit width) :
    sum width left right = .ok (left + right) := by
  simp [sum, fits]

theorem product_eq_ok {width left right : Nat} (fits : left * right < limit width) :
    product width left right = .ok (left * right) := by
  simp [product, fits]

theorem narrow_of_lt {width value : Nat} (fits : value < limit width) :
    narrow width value = value :=
  Nat.mod_eq_of_lt fits

end Mixnet.Word
