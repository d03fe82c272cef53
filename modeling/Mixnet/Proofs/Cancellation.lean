import Mathlib.FieldTheory.Finite.Basic
import Mixnet.Proofs.WireForm

/-!
# Blinding cancels

Precomputation multiplies factors into the slots of a round, and the realtime phases multiply the
inverses of the same factors in.  In a group whose modulus is prime nothing of this is left, in
whatever order factors and inverses come.

## Main definitions

* `CyclicGroup.Lawful`: the operations stay in the group and obey its laws
* `CyclicGroup.multiplyIn`: factors multiplied into cells of an array, one after the other
* `CyclicGroup.factorsAt`: the factors that one cell receives
* `CyclicGroup.Cancels`: factors that are some elements and the inverses of the same elements

## Main statements

* `CyclicGroup.powerMod_eq`: repeated squaring is the residue of the power
* `CyclicGroup.lawful_of_prime`: a prime modulus makes a group, also two and three
* `CyclicGroup.get_multiplyIn`: what a cell holds after any factors
* `CyclicGroup.blinding_cancels`: factors that cancel restore every cell

## Design notes

Inversion is a power, so that it inverts is Fermat's little theorem; it is used once, in
`multiply_inverse`.  Everything about orders is that a product does not depend on the order of its
factors: what a cell holds in the end is the residue of one product, and so no step in between
matters.
-/

namespace Mixnet

/-! ## One cell -/

namespace GroupArray

variable {array : GroupArray} {index value image : Nat} {change : Nat → Except Fault Nat}

theorem lt_of_get (found : array.get index = .ok value) : index < array.size := by
  by_contra outside
  rw [size] at outside
  simp [get, outside] at found

theorem get_put_self (inside : index < array.size) :
    (array.put index value).get index = .ok value := by
  rw [size] at inside
  simp [get, put, inside]

theorem get_put_of_ne {other : Nat} (apart : index ≠ other) :
    (array.put index value).get other = array.get other := by
  simp [get, put, size, Array.getElem?_setIfInBounds_ne apart]

/-- A cell that is there takes the image of its value. -/
theorem update_eq_ok (found : array.get index = .ok value) (changed : change value = .ok image) :
    array.update index change = .ok (array.put index image) := by
  rw [update, found, Fault.ok_bind, changed, Fault.ok_bind, set, if_pos (lt_of_get found)]

/-- An array is known by its cells. -/
theorem ext_get {left right : GroupArray} (same : ∀ index, left.get index = right.get index)
    (same_size : left.size = right.size) : left = right := by
  obtain ⟨cells⟩ := left
  obtain ⟨others⟩ := right
  refine congrArg GroupArray.mk (Array.ext same_size fun index inside inside' => ?_)
  simpa [get, inside, inside'] using same index

end GroupArray

namespace CyclicGroup

variable {group : CyclicGroup} {value left right : Nat}

/-! ## Powers -/

/-- **Repeated squaring computes the residue of the power.** -/
theorem powerMod_eq (modulus base exponent : Nat) :
    powerMod modulus base exponent = base ^ exponent % modulus := by
  induction exponent using Nat.strong_induction_on generalizing base with
  | _ exponent ih =>
    rw [powerMod]
    by_cases zero : exponent = 0
    · simp [zero]
    · have squared : powerMod modulus (base * base % modulus) (exponent / 2) =
          (base * base) ^ (exponent / 2) % modulus := by
        rw [ih _ (by omega), ← Nat.pow_mod]
      have even_part : (base * base) ^ (exponent / 2) = base ^ (2 * (exponent / 2)) := by
        rw [pow_mul, sq]
      rw [if_neg zero, squared, even_part]
      by_cases odd : exponent % 2 = 1
      · have whole : exponent = 2 * (exponent / 2) + 1 := by omega
        conv_rhs => rw [whole, pow_succ']
        simp [odd]
      · have whole : exponent = 2 * (exponent / 2) := by omega
        conv_rhs => rw [whole]
        simp [odd]

/-! ## Operations of a prime group -/

theorem multiply_eq_ok (positive : group.prime ≠ 0) (left right : Nat) :
    group.multiply left right = .ok (left * right % group.prime) := by
  simp [multiply, reduce, positive]

theorem power_eq_ok (positive : group.prime ≠ 0) (base exponent : Nat) :
    group.power base exponent = .ok (base ^ exponent % group.prime) := by
  simp [power, positive, powerMod_eq]

theorem inverse_eq_ok (prime : group.prime.Prime) (value : Nat) :
    group.inverse value = .ok (value ^ (group.prime - 2) % group.prime) := by
  rw [inverse, if_neg (Nat.not_lt.mpr prime.two_le), power_eq_ok prime.ne_zero]

/-- The elements are the residues that the prime does not divide. -/
theorem contains_mod_iff (prime : group.prime.Prime) :
    group.contains (value % group.prime) = true ↔ ¬ group.prime ∣ value := by
  have below := Nat.mod_lt value prime.pos
  rw [contains_iff, Nat.dvd_iff_mod_eq_zero]
  omega

theorem not_dvd_of_contains (inside : group.contains value = true) : ¬ group.prime ∣ value := by
  obtain ⟨positive, below⟩ := contains_iff.mp inside
  exact fun divides => absurd (Nat.le_of_dvd positive divides) (by omega)

theorem mod_of_contains (inside : group.contains value = true) : value % group.prime = value :=
  Nat.mod_eq_of_lt (contains_iff.mp inside).2

theorem contains_identity (prime : group.prime.Prime) : group.contains identity = true :=
  contains_iff.mpr ⟨le_rfl, prime.one_lt⟩

/-- A prime has no zero divisors: products of elements are elements. -/
theorem contains_product (prime : group.prime.Prime) (inside : group.contains left = true)
    (inside' : group.contains right = true) :
    group.contains (left * right % group.prime) = true := by
  rw [contains_mod_iff prime, prime.dvd_mul]
  rintro (divides | divides)
  · exact not_dvd_of_contains inside divides
  · exact not_dvd_of_contains inside' divides

theorem contains_power (prime : group.prime.Prime) (inside : group.contains value = true)
    (exponent : Nat) : group.contains (value ^ exponent % group.prime) = true := by
  rw [contains_mod_iff prime]
  exact fun divides => not_dvd_of_contains inside (prime.dvd_of_dvd_pow divides)

/-- Every number stands for an element. -/
theorem element_eq_ok (prime : group.prime.Prime) (value : Nat) :
    ∃ element, group.element value = .ok element ∧ group.contains element = true := by
  have reduced : group.element value =
      .ok (if value % group.prime = 0 then identity else value % group.prime) := by
    rw [element, reduce, if_neg prime.ne_zero]
    rfl
  refine ⟨_, reduced, ?_⟩
  split
  · exact contains_identity prime
  · rwa [contains_mod_iff prime, Nat.dvd_iff_mod_eq_zero]

/-- Fermat's little theorem for an element: what is left of it when it meets its inverse is one. -/
theorem mul_inverse_modEq (prime : group.prime.Prime) (inside : group.contains value = true) :
    value * (value ^ (group.prime - 2) % group.prime) ≡ 1 [MOD group.prime] := by
  have coprime : Nat.Coprime value group.prime :=
    ((prime.coprime_iff_not_dvd).mpr (not_dvd_of_contains inside)).symm
  have whole : group.prime - 2 + 1 = group.prime - 1 := by
    have := prime.two_le
    omega
  calc value * (value ^ (group.prime - 2) % group.prime)
      ≡ value * value ^ (group.prime - 2) [MOD group.prime] := (Nat.mod_modEq _ _).mul_left _
    _ = value ^ (group.prime - 1) := by rw [← pow_succ', whole]
    _ ≡ 1 [MOD group.prime] := by
      rw [← Nat.totient_prime prime]
      exact Nat.ModEq.pow_totient coprime

/-- The operations stay among the elements and obey the laws of a group and of its powers.  Each
law also says that its operations end without a fault. -/
structure Lawful (group : CyclicGroup) : Prop where
  element_mem : ∀ value, ∃ element,
    group.element value = .ok element ∧ group.contains element = true
  random_mem : ∀ tape, ∃ element rest,
    group.random tape = (.ok element, rest) ∧ group.contains element = true
  multiply_mem : ∀ left right, group.contains left = true → group.contains right = true →
    ∃ product, group.multiply left right = .ok product ∧ group.contains product = true
  power_mem : ∀ base exponent, group.contains base = true →
    ∃ power, group.power base exponent = .ok power ∧ group.contains power = true
  inverse_mem : ∀ value, group.contains value = true →
    ∃ inverse, group.inverse value = .ok inverse ∧ group.contains inverse = true
  multiply_inverse : ∀ value, group.contains value = true →
    (do group.multiply value (← group.inverse value)) = .ok identity
  power_add : ∀ base first second, group.power base (first + second) =
    do group.multiply (← group.power base first) (← group.power base second)
  power_mul : ∀ base first second, group.power base (first * second) =
    do group.power (← group.power base first) second

/-- **A prime modulus makes a group**, of whatever size, two and three included. -/
theorem lawful_of_prime (prime : group.prime.Prime) : group.Lawful where
  element_mem := element_eq_ok prime
  random_mem tape := by
    obtain ⟨element, drawn, inside⟩ :=
      element_eq_ok prime (Bytes.toNat (tape.read (group.byteLength + 8)).1)
    exact ⟨element, _, Prod.ext drawn rfl, inside⟩
  multiply_mem left right inside inside' :=
    ⟨_, multiply_eq_ok prime.ne_zero left right, contains_product prime inside inside'⟩
  power_mem base exponent inside :=
    ⟨_, power_eq_ok prime.ne_zero base exponent, contains_power prime inside exponent⟩
  inverse_mem value inside :=
    ⟨_, inverse_eq_ok prime value, contains_power prime inside _⟩
  multiply_inverse value inside := by
    rw [inverse_eq_ok prime, Fault.ok_bind, multiply_eq_ok prime.ne_zero,
      mul_inverse_modEq prime inside, Nat.mod_eq_of_lt prime.one_lt, identity]
  power_add base first second := by
    simp only [power_eq_ok prime.ne_zero, multiply_eq_ok prime.ne_zero, Fault.ok_bind]
    rw [← Nat.mul_mod, ← pow_add]
  power_mul base first second := by
    simp only [power_eq_ok prime.ne_zero, Fault.ok_bind]
    rw [← Nat.pow_mod, ← pow_mul]

/-! ## Factors for the cells of an array -/

/-- Factors multiplied into cells, one after the other: each comes with the index of its cell. -/
def multiplyIn (group : CyclicGroup) (array : GroupArray) (factors : List (Nat × Nat)) :
    Except Fault GroupArray :=
  factors.foldlM (fun array (index, factor) => array.update index (group.multiply · factor)) array

theorem multiplyIn_cons (array : GroupArray) (index factor : Nat) (factors : List (Nat × Nat)) :
    group.multiplyIn array ((index, factor) :: factors) =
      (array.update index (group.multiply · factor) >>= (group.multiplyIn · factors)) :=
  List.foldlM_cons

/-- The factors that one cell receives, in their order. -/
def factorsAt (index : Nat) (factors : List (Nat × Nat)) : List Nat :=
  (factors.filter (·.1 = index)).map (·.2)

/-- What is left in a cell that held `value` after some factors: the residue of the product, or the
value itself where there is no factor. -/
def residueOf (group : CyclicGroup) (value : Nat) (factors : List Nat) : Nat :=
  if factors = [] then value else value * factors.prod % group.prime

theorem residueOf_cons (value factor : Nat) (factors : List Nat) :
    group.residueOf (value * factor % group.prime) factors =
      group.residueOf value (factor :: factors) := by
  cases factors with
  | nil => simp [residueOf]
  | cons next rest => simp [residueOf, mul_assoc]

/-- **What the cells hold after any factors**: each the residue of one product. -/
theorem get_multiplyIn (positive : group.prime ≠ 0) (factors : List (Nat × Nat)) :
    ∀ (array : GroupArray), (∀ factor ∈ factors, factor.1 < array.size) →
      ∃ after, group.multiplyIn array factors = .ok after ∧ after.size = array.size ∧
        ∀ index value, array.get index = .ok value →
          after.get index = .ok (group.residueOf value (factorsAt index factors)) := by
  induction factors with
  | nil =>
    intro array _
    exact ⟨array, rfl, rfl, fun index value found => by simpa [factorsAt, residueOf] using found⟩
  | cons entry factors ih =>
    intro array inside
    obtain ⟨index, factor⟩ := entry
    have here : index < array.size := inside (index, factor) (by simp)
    obtain ⟨old, found⟩ : ∃ old, array.get index = .ok old := ⟨_, GroupArray.get_of_lt here⟩
    have updated : array.update index (group.multiply · factor) =
        .ok (array.put index (old * factor % group.prime)) :=
      GroupArray.update_eq_ok found (multiply_eq_ok positive old factor)
    obtain ⟨after, done, same_size, cells⟩ := ih (array.put index (old * factor % group.prime))
      fun entry later => by
        rw [GroupArray.size_put]
        exact inside entry (List.mem_cons_of_mem _ later)
    refine ⟨after, ?_, same_size.trans GroupArray.size_put, fun other value found' => ?_⟩
    · rw [multiplyIn_cons, updated, Fault.ok_bind, done]
    · by_cases same : index = other
      · subst same
        obtain rfl : old = value := Except.ok.inj (found.symm.trans found')
        rw [cells index _ (GroupArray.get_put_self here), residueOf_cons]
        simp [factorsAt]
      · rw [cells other value (by rwa [GroupArray.get_put_of_ne same])]
        simp [factorsAt, same]

/-! ## Cancellation -/

/-- Factors that cancel: some elements and the inverses of the same elements, in any order. -/
def Cancels (group : CyclicGroup) (factors : List Nat) : Prop :=
  ∃ elements inverses, (∀ element ∈ elements, group.contains element = true) ∧
    elements.mapM group.inverse = .ok inverses ∧ factors.Perm (elements ++ inverses)

/-- Every list of elements has inverses. -/
theorem mapM_inverse (prime : group.prime.Prime) (elements : List Nat) :
    elements.mapM group.inverse =
      .ok (elements.map (· ^ (group.prime - 2) % group.prime)) :=
  Fault.mapM_eq_ok fun element _ => inverse_eq_ok prime element

/-- The product of elements and of their inverses leaves one. -/
theorem prod_inverses (prime : group.prime.Prime) (elements : List Nat)
    (inside : ∀ element ∈ elements, group.contains element = true) :
    elements.prod * (elements.map (· ^ (group.prime - 2) % group.prime)).prod
      ≡ 1 [MOD group.prime] := by
  induction elements with
  | nil => rfl
  | cons element elements ih =>
    obtain ⟨here, others⟩ := List.forall_mem_cons.mp inside
    rw [List.map_cons, List.prod_cons, List.prod_cons, mul_mul_mul_comm]
    exact (mul_inverse_modEq prime here).mul (ih others)

/-- Factors that cancel leave of a value its residue. -/
theorem Cancels.residueOf_eq {factors : List Nat} (cancels : group.Cancels factors)
    (prime : group.prime.Prime) (value : Nat) :
    group.residueOf value factors = if factors = [] then value else value % group.prime := by
  obtain ⟨elements, inverses, inside, inverted, order⟩ := cancels
  obtain rfl := Except.ok.inj ((mapM_inverse prime elements).symm.trans inverted)
  have one : factors.prod ≡ 1 [MOD group.prime] := by
    rw [order.prod_eq, List.prod_append]
    exact prod_inverses prime elements inside
  unfold residueOf
  split
  · rfl
  · rw [one.mul_left value, Nat.mul_one]

/-- **Blinding cancels.**  In a group with a prime modulus the operations stay in the group and obey
its laws; every list of elements has inverses; and whatever factors are multiplied into an array,
each cell whose factors are some elements and the inverses of the same elements, in any order and
among those for other cells, holds in the end what it held before.  Only a value that was no element
is reduced. -/
theorem blinding_cancels (prime : group.prime.Prime) :
    group.Lawful ∧
    (∀ elements : List Nat, (∀ element ∈ elements, group.contains element = true) →
      ∃ inverses, elements.mapM group.inverse = .ok inverses) ∧
    ∀ (array : GroupArray) (factors : List (Nat × Nat)),
      (∀ factor ∈ factors, factor.1 < array.size) →
      ∃ after, group.multiplyIn array factors = .ok after ∧ after.size = array.size ∧
        (∀ index value, array.get index = .ok value → group.Cancels (factorsAt index factors) →
          after.get index = .ok
              (if factorsAt index factors = [] then value else value % group.prime) ∧
            (group.contains value = true → after.get index = .ok value)) ∧
        ((∀ index value, array.get index = .ok value →
            group.contains value = true ∧ group.Cancels (factorsAt index factors)) →
          after = array) := by
  refine ⟨lawful_of_prime prime, fun elements _ => ⟨_, mapM_inverse prime elements⟩,
    fun array factors inside => ?_⟩
  · obtain ⟨after, done, same_size, cells⟩ := get_multiplyIn prime.ne_zero factors array inside
    have reduced : ∀ index value, array.get index = .ok value →
        group.Cancels (factorsAt index factors) → after.get index = .ok
          (if factorsAt index factors = [] then value else value % group.prime) := by
      intro index value found cancels
      rw [cells index value found, cancels.residueOf_eq prime]
    have restored : ∀ index value, array.get index = .ok value → group.contains value = true →
        group.Cancels (factorsAt index factors) → after.get index = .ok value := by
      intro index value found element cancels
      rw [reduced index value found cancels, mod_of_contains element, ite_self]
    refine ⟨after, done, same_size, fun index value found cancels =>
      ⟨reduced index value found cancels, fun element =>
        restored index value found element cancels⟩, fun all => ?_⟩
    refine GroupArray.ext_get (fun index => ?_) same_size
    by_cases here : index < array.size
    · have found := GroupArray.get_of_lt here
      obtain ⟨element, cancels⟩ := all index _ found
      rw [restored index _ found element cancels, found]
    · have outside : ¬ index < after.size := by rwa [same_size]
      simp only [GroupArray.size] at here outside same_size
      simp [GroupArray.get, GroupArray.size, here, same_size]

/-- Two cells of the group modulo seven: the first receives three, five, and their inverses five and
three, with factors for the second among them. -/
theorem blinding_cancels_sample :
    Nat.Prime (⟨7, 3⟩ : CyclicGroup).prime ∧
      (⟨7, 3⟩ : CyclicGroup).multiplyIn ⟨#[4, 6]⟩ [(0, 3), (1, 2), (0, 3), (0, 5), (1, 4), (0, 5)] =
        .ok ⟨#[4, 6]⟩ := by
  have prime : Nat.Prime (⟨7, 3⟩ : CyclicGroup).prime := by
    show Nat.Prime 7
    decide
  obtain ⟨-, -, restores⟩ := blinding_cancels prime
  obtain ⟨after, done, -, -, whole⟩ := restores ⟨#[4, 6]⟩
    [(0, 3), (1, 2), (0, 3), (0, 5), (1, 4), (0, 5)] (by decide)
  refine ⟨prime, ?_⟩
  rw [done, whole]
  intro index value found
  have here := GroupArray.lt_of_get found
  match index, here with
  | 0, _ =>
    obtain rfl := Except.ok.inj found
    exact ⟨by decide, [3, 5], [5, 3], by decide, mapM_inverse prime [3, 5], by decide⟩
  | 1, _ =>
    obtain rfl := Except.ok.inj found
    exact ⟨by decide, [2], [4], by decide, mapM_inverse prime [2], by decide⟩

end CyclicGroup

end Mixnet
