import Mathlib.Algebra.GCDMonoid.Finset
import Mathlib.Algebra.GCDMonoid.Nat
import Mixnet.Proofs.Planning

/-!
# The expanded batch as a least common multiple

The sizes of a wiring are folded into a common multiple one by one, and the fold gives up as soon as
its partial result is no 32-bit word.  This file shows that giving up early decides nothing: the
result is that of the least common multiple of all sizes at once, taken as an exact number.  It also
carries the computation out in 64-bit words, with every operation checked, and shows that none of
the checks ever fails.

## Main definitions

* `Word.commonMultiple`, `Word.roundUp`: the operations on words
* `Expansion.units`, `Expansion.exactMultiple`: the sizes that count, and their least common
  multiple
* `expandInWords`: the expansion with every operation in a word

## Main statements

* `Expansion.commonMultiple_eq`: giving up early decides nothing
* `expandInWords_eq`: no operation leaves its word
* `expandBatchSize_exact`: the expanded size, whatever the batch and the sizes

## Design notes

The exact multiple is taken over a finite set, so that neither the order of the sizes nor how often
one of them is declared can show in it.
-/

namespace Mixnet

/-! ## The operations on words -/

namespace Word

variable {width left right : Nat}

/-- The quotient of two words, if the divisor is not zero. -/
def quotient (left right : Nat) : Except Fault Nat :=
  if right = 0 then .error .zeroDivisor else .ok (left / right)

/-- The least common multiple of two words: one times what the other does not share with it. -/
def commonMultiple (width left right : Nat) : Except Fault Nat := do
  let unshared ← quotient right (Nat.gcd left right)
  product width left unshared

/-- How many times `step` goes into `value`, a part of it counted as a whole. -/
def rounds (width value step : Nat) : Except Fault Nat := do
  let whole ← quotient value step
  if value % step = 0 then return whole else sum width whole 1

/-- The least multiple of `step` that is at least `value`. -/
def roundUp (width value step : Nat) : Except Fault Nat := do
  let times ← rounds width value step
  product width times step

theorem quotient_eq_ok (positive : 0 < right) : quotient left right = .ok (left / right) := by
  simp [quotient, positive.ne']

/-- Two words whose product is a word have a least common multiple. -/
theorem commonMultiple_eq_ok (positive : 0 < left) (fits : left * right < limit width) :
    commonMultiple width left right = .ok (Nat.lcm left right) := by
  have exact_eq : left * (right / Nat.gcd left right) = Nat.lcm left right :=
    (Nat.mul_div_assoc left (Nat.gcd_dvd_right left right)).symm
  have within : Nat.lcm left right < limit width :=
    Nat.lt_of_le_of_lt (Nat.div_le_self _ _) fits
  unfold commonMultiple
  rw [quotient_eq_ok (Nat.gcd_pos_of_pos_left right positive), Fault.ok_bind,
    product_eq_ok (exact_eq ▸ within), exact_eq]

/-- The rounds up to a number are the whole ones, and one more unless these end at the number. -/
theorem rounds_eq_ok {value step : Nat} (positive : 0 < step) (word : value < limit width) :
    rounds width value step = .ok ((value + step - 1) / step) := by
  have split := Nat.div_add_mod value step
  have below := Nat.mod_lt value positive
  unfold rounds
  rw [quotient_eq_ok positive, Fault.ok_bind]
  split_ifs with exact
  · have regrouped : value + step - 1 = step * (value / step) + (step - 1) := by omega
    rw [regrouped, Nat.mul_add_div positive, Nat.div_eq_of_lt (Nat.sub_one_lt_of_lt positive),
      Nat.add_zero]
    rfl
  · have regrouped : value + step - 1 = step * (value / step) + step + (value % step - 1) := by
      omega
    have fewer : value / step ≤ step * (value / step) := Nat.le_mul_of_pos_left _ positive
    rw [regrouped, ← Nat.mul_succ, Nat.mul_add_div positive,
      Nat.div_eq_of_lt (Nat.lt_of_le_of_lt (Nat.sub_le _ _) below), Nat.add_zero]
    exact sum_eq_ok (by omega)

/-- Rounding up stays in a word that has room for the number and one more step. -/
theorem roundUp_eq_ok {value step : Nat} (positive : 0 < step)
    (fits : value + step < limit width) :
    roundUp width value step = .ok (Expansion.roundUp value step) := by
  have within : (value + step - 1) / step * step < limit width := by
    have := Nat.div_mul_le_self (value + step - 1) step
    omega
  have word : value < limit width := Nat.lt_of_le_of_lt (Nat.le_add_right _ _) fits
  unfold roundUp
  rw [rounds_eq_ok positive word, Fault.ok_bind, product_eq_ok within]
  rfl

end Word

namespace Expansion

variable {start minSlot : Nat} {sizes : List Nat}

/-! ## One exact multiple -/

/-- The sizes that count: the smallest slot, read as one if it is zero, and every size declared that
is not zero. -/
def units (minSlot : Nat) (sizes : List Nat) : Finset Nat :=
  insert (max minSlot 1) (sizes.toFinset.erase 0)

/-- The least common multiple of all the sizes that count. -/
def exactMultiple (minSlot : Nat) (sizes : List Nat) : Nat := (units minSlot sizes).lcm id

@[simp]
theorem mem_units {size : Nat} :
    size ∈ units minSlot sizes ↔ size = max minSlot 1 ∨ size ≠ 0 ∧ size ∈ sizes := by
  simp [units]

/-- A number is a multiple of the least common multiple if every size that counts divides it. -/
theorem exactMultiple_dvd_iff {other : Nat} :
    exactMultiple minSlot sizes ∣ other ↔
      max minSlot 1 ∣ other ∧ ∀ size ∈ sizes, size ≠ 0 → size ∣ other := by
  unfold exactMultiple
  rw [Finset.lcm_dvd_iff]
  simp only [mem_units, id_eq, forall_eq_or_imp, and_imp]
  exact and_congr_right fun _ => ⟨fun each size member nonzero => each size nonzero member,
    fun each size nonzero member => each size member nonzero⟩

theorem exactMultiple_pos : 0 < exactMultiple minSlot sizes := by
  rw [Nat.pos_iff_ne_zero]
  intro vanishes
  obtain ⟨size, member, zero⟩ := Finset.lcm_eq_zero_iff.mp vanishes
  rw [id_eq] at zero
  rcases mem_units.mp (zero ▸ member) with least | ⟨nonzero, -⟩
  · omega
  · exact nonzero rfl

/-- What is folded into a word stays a word. -/
theorem commonMultiple_lt {multiple : Nat} (found : commonMultiple start sizes = some multiple)
    (word : start < Word.limit 32) : multiple < Word.limit 32 := by
  fun_induction commonMultiple start sizes with
  | case1 start =>
      injection found with found
      exact found ▸ word
  | case2 start rest ih => exact ih found word
  | case3 start size rest nonzero joined fits ih => exact ih found fits
  | case4 => cases found

/-- **Giving up early decides nothing**: the fold has a result exactly if the least common multiple
of all sizes is a word, and then it is that one. -/
theorem commonMultiple_eq (word : minSlot < Word.limit 32) :
    commonMultiple (max minSlot 1) sizes =
      if exactMultiple minSlot sizes < Word.limit 32 then some (exactMultiple minSlot sizes)
      else none := by
  have start_pos : 0 < max minSlot 1 := Nat.lt_of_lt_of_le Nat.one_pos (Nat.le_max_right _ _)
  have start_word : max minSlot 1 < Word.limit 32 := max_lt word (by decide)
  obtain ⟨start_dvd, each⟩ := exactMultiple_dvd_iff.mp (Nat.dvd_refl (exactMultiple minSlot sizes))
  split_ifs with fits
  · obtain ⟨multiple, found⟩ := exists_commonMultiple start_dvd each exactMultiple_pos fits
    obtain ⟨-, shared⟩ := commonMultiple_dvd found start_pos
    rw [found, Nat.dvd_antisymm (commonMultiple_least found start_dvd each)
      (exactMultiple_dvd_iff.mpr shared)]
  · -- A result would be a word, and the exact multiple divides it.
    rw [Option.eq_none_iff_forall_ne_some]
    intro multiple found
    obtain ⟨positive, shared⟩ := commonMultiple_dvd found start_pos
    have least := Nat.le_of_dvd positive (exactMultiple_dvd_iff.mpr shared)
    exact fits (Nat.lt_of_le_of_lt least (commonMultiple_lt found start_word))

/-- Rounding up answers the least multiple that is not below the number. -/
theorem roundUp_isLeast {step : Nat} (positive : 0 < step) (value : Nat) :
    IsLeast {multiple | value ≤ multiple ∧ step ∣ multiple} (roundUp value step) :=
  ⟨⟨le_roundUp positive, Nat.dvd_mul_left _ _⟩, fun _ ⟨holds, divides⟩ =>
    roundUp_least positive divides holds⟩

/-! ## The fold in 64-bit words -/

/-- The fold of the sizes, with every operation in a 64-bit word. -/
def foldInWords (start : Nat) : List Nat → Except Fault (Option Nat)
  | [] => return some start
  | size :: rest =>
    if size = 0 then foldInWords start rest
    else do
      let multiple ← Word.commonMultiple 64 start size
      if multiple < Word.limit 32 then foldInWords multiple rest else return none

/-- The product of two 32-bit words is a 64-bit word. -/
theorem mul_lt_limit {left right : Nat} (left_word : left < Word.limit 32)
    (right_word : right < Word.limit 32) : left * right < Word.limit 64 :=
  calc left * right < Word.limit 32 * Word.limit 32 := Nat.mul_lt_mul'' left_word right_word
    _ = Word.limit 64 := by decide

/-- The fold never leaves its words. -/
theorem foldInWords_eq (positive : 0 < start) (word : start < Word.limit 32)
    (words : ∀ size ∈ sizes, size < Word.limit 32) :
    foldInWords start sizes = .ok (commonMultiple start sizes) := by
  fun_induction commonMultiple start sizes with
  | case1 => rfl
  | case2 start rest ih =>
      rw [foldInWords, if_pos rfl, ih positive word (List.forall_mem_cons.mp words).2]
  | case3 start size rest nonzero multiple fits ih =>
      obtain ⟨size_word, rest_words⟩ := List.forall_mem_cons.mp words
      rw [foldInWords, if_neg nonzero,
        Word.commonMultiple_eq_ok positive (mul_lt_limit word size_word), Fault.ok_bind,
        if_pos fits, ih (Nat.lcm_pos positive (Nat.pos_of_ne_zero nonzero)) fits rest_words]
  | case4 start size rest nonzero multiple exceeds =>
      obtain ⟨size_word, -⟩ := List.forall_mem_cons.mp words
      rw [foldInWords, if_neg nonzero,
        Word.commonMultiple_eq_ok positive (mul_lt_limit word size_word), Fault.ok_bind,
        if_neg exceeds]
      rfl

end Expansion

open Expansion

/-- The expansion of a batch, with every operation in a 64-bit word. -/
def expandInWords (batch : Nat) (sizes : List Nat) (minSlot : Nat) : Except Fault Nat := do
  match ← foldInWords (max minSlot 1) sizes with
  | some multiple =>
    let expanded ← Word.roundUp 64 batch multiple
    if expanded < Word.limit 32 then return expanded
    else throw (expandBatchSize.overflow batch minSlot)
  | none => throw (expandBatchSize.overflow batch minSlot)

section

variable {batch minSlot : Nat} {sizes : List Nat}

/-- **No operation of the expansion leaves its word**, as long as it is given words. -/
theorem expandInWords_eq (batch_word : batch < Word.limit 32) (slot_word : minSlot < Word.limit 32)
    (words : ∀ size ∈ sizes, size < Word.limit 32) :
    expandInWords batch sizes minSlot = expandBatchSize batch sizes minSlot := by
  have start_pos : 0 < max minSlot 1 := Nat.lt_of_lt_of_le Nat.one_pos (Nat.le_max_right _ _)
  have start_word : max minSlot 1 < Word.limit 32 := max_lt slot_word (by decide)
  unfold expandInWords expandBatchSize
  rw [foldInWords_eq start_pos start_word words, Fault.ok_bind]
  cases found : commonMultiple (max minSlot 1) sizes with
  | none => rfl
  | some multiple =>
      have room : batch + multiple < Word.limit 64 :=
        calc batch + multiple < Word.limit 32 + Word.limit 32 :=
              Nat.add_lt_add batch_word (commonMultiple_lt found start_word)
          _ < Word.limit 64 := by decide
      dsimp only [Option.map_some]
      rw [Word.roundUp_eq_ok (commonMultiple_dvd found start_pos).1 room, Fault.ok_bind]
      rfl

/-- The expanded size, read off the exact multiple. -/
theorem expandBatchSize_eq (slot_word : minSlot < Word.limit 32) :
    expandBatchSize batch sizes minSlot =
      if exactMultiple minSlot sizes < Word.limit 32 ∧
          roundUp batch (exactMultiple minSlot sizes) < Word.limit 32 then
        .ok (roundUp batch (exactMultiple minSlot sizes))
      else .error (expandBatchSize.overflow batch minSlot) := by
  unfold expandBatchSize
  rw [commonMultiple_eq slot_word]
  by_cases fits : exactMultiple minSlot sizes < Word.limit 32 <;> simp [fits]

/-- Sizes count by what they are, not by where or how often they are declared. -/
theorem exactMultiple_congr {others : List Nat}
    (same : ∀ size, size ≠ 0 → (size ∈ sizes ↔ size ∈ others)) :
    exactMultiple minSlot sizes = exactMultiple minSlot others := by
  have units_eq : units minSlot sizes = units minSlot others := by
    ext size
    simp only [mem_units]
    exact or_congr_right (and_congr_right fun nonzero => same size nonzero)
  rw [exactMultiple, units_eq, exactMultiple]

/-- Rounding up leaves multiples alone, and nothing else. -/
theorem roundUp_eq_self_iff {step : Nat} (positive : 0 < step) :
    roundUp batch step = batch ↔ step ∣ batch := by
  obtain ⟨⟨holds, divides⟩, least⟩ := roundUp_isLeast positive batch
  exact ⟨fun unchanged => unchanged ▸ divides,
    fun divided => Nat.le_antisymm (least ⟨Nat.le_refl batch, divided⟩) holds⟩

/-- **A batch is expanded to the least multiple that holds it**, of the least common multiple of the
smallest slot and of all sizes that are not zero, where both are words; otherwise the wiring is at
fault.  No operation on the way leaves its 64-bit word, the order and the repetition of the sizes do
not show, and nothing is added exactly if the multiple divides the batch. -/
theorem expandBatchSize_exact (batch_word : batch < Word.limit 32)
    (slot_word : minSlot < Word.limit 32) (words : ∀ size ∈ sizes, size < Word.limit 32) :
    (∃ least, IsLeast {multiple | batch ≤ multiple ∧ exactMultiple minSlot sizes ∣ multiple} least ∧
      expandBatchSize batch sizes minSlot =
        if exactMultiple minSlot sizes < Word.limit 32 ∧ least < Word.limit 32 then .ok least
        else .error (.violated .graphShape "expanded batch size overflows u32"
          (some s!"batch {batch}, min slot {minSlot}"))) ∧
      expandInWords batch sizes minSlot = expandBatchSize batch sizes minSlot ∧
      (∀ others : List Nat, (∀ size, size ≠ 0 → (size ∈ sizes ↔ size ∈ others)) →
        expandBatchSize batch others minSlot = expandBatchSize batch sizes minSlot) ∧
      (∀ expanded, expandBatchSize batch sizes minSlot = .ok expanded →
        (expanded = batch ↔ exactMultiple minSlot sizes ∣ batch)) ∧
      (0 < batch → (expandBatchSize batch sizes minSlot = .ok batch ↔
        exactMultiple minSlot sizes ∣ batch)) := by
  refine ⟨⟨_, roundUp_isLeast exactMultiple_pos batch, expandBatchSize_eq slot_word⟩,
    expandInWords_eq batch_word slot_word words, ?_, ?_, ?_⟩
  · intro others same
    rw [expandBatchSize_eq slot_word, expandBatchSize_eq slot_word, exactMultiple_congr same]
  · intro expanded expands
    rw [expandBatchSize_eq slot_word] at expands
    split_ifs at expands
    injection expands with expands
    rw [← expands, roundUp_eq_self_iff exactMultiple_pos]
  · intro positive
    rw [expandBatchSize_eq slot_word]
    constructor
    · intro expands
      split_ifs at expands
      injection expands with expands
      exact (roundUp_eq_self_iff exactMultiple_pos).mp expands
    · intro divides
      have multiple_word :=
        Nat.lt_of_le_of_lt (Nat.le_of_dvd positive divides) batch_word
      rw [(roundUp_eq_self_iff exactMultiple_pos).mpr divides, if_pos ⟨multiple_word, batch_word⟩]

theorem expandBatchSize_exact_sample :
    ((10 < Word.limit 32 ∧ 0 < Word.limit 32 ∧ ∀ size ∈ [4, 0, 6, 4], size < Word.limit 32) ∧
        expandBatchSize 10 [4, 0, 6, 4] 0 = .ok 12 ∧ ¬exactMultiple 0 [4, 0, 6, 4] ∣ 10) ∧
      expandBatchSize 10 [6, 4] 0 = expandBatchSize 10 [4, 0, 6, 4] 0 ∧
      expandInWords 10 [65521, 65519, 65537] 1 = expandBatchSize 10 [65521, 65519, 65537] 1 := by
  have words : ∀ size ∈ [4, 0, 6, 4], size < Word.limit 32 := by decide
  have expands : expandBatchSize 10 [4, 0, 6, 4] 0 = .ok 12 := by decide +kernel
  obtain ⟨-, -, reordered, unchanged, -⟩ :=
    expandBatchSize_exact (show 10 < Word.limit 32 by decide) (show 0 < Word.limit 32 by decide)
      words
  obtain ⟨-, in_words, -⟩ :=
    expandBatchSize_exact (show 10 < Word.limit 32 by decide) (show 1 < Word.limit 32 by decide)
      (show ∀ size ∈ [65521, 65519, 65537], size < Word.limit 32 by decide)
  refine ⟨⟨⟨by decide, by decide, words⟩, expands, ?_⟩, reordered [6, 4] (by simp; omega), in_words⟩
  exact fun divides => absurd ((unchanged 12 expands).mpr divides) (by decide)

end

end Mixnet
