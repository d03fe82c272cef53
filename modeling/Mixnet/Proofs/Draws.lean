import Mathlib.Data.Nat.Find
import Mathlib.Data.Set.Card
import Mathlib.Order.Interval.Finset.Nat
import Mixnet.Proofs.BigEndian
import Mixnet.Shuffle

/-!
# Draws from a tape

A pick draws words from a tape until one is accepted.  This file says which draws are accepted, how
many of them stand for each result, and how many words a pick can read.

## Main definitions

* `Tape.skip`, `Tape.wordAt`: the words of a tape
* `Shuffle.Accepts`, `Shuffle.scaled`: which words are accepted, and the results they stand for
* `Shuffle.refusals`: how many words a pick refuses

## Main statements

* `Shuffle.pick_eq`: a pick is the first accepted word of its tape
* `Shuffle.ncard_accepted`: every result is that of equally many words
-/

namespace Mixnet

/-! ## The words of a tape -/

namespace Tape

/-- The tape behind `count` words. -/
def skip (tape : Tape) (count : Nat) : Tape := ⟨tape.bytes.drop (4 * count)⟩

/-- The word behind `position` words. -/
def wordAt (tape : Tape) (position : Nat) : Nat := (tape.skip position).word.1

/-- How many words have a byte on the tape. -/
def wordCount (tape : Tape) : Nat := (tape.bytes.length + 3) / 4

variable {tape : Tape}

@[simp] theorem skip_zero : tape.skip 0 = tape := rfl

theorem skip_skip (first second : Nat) :
    (tape.skip first).skip second = tape.skip (first + second) := by
  simp only [skip, List.drop_drop, Nat.mul_add]

theorem wordAt_skip (count position : Nat) :
    (tape.skip count).wordAt position = tape.wordAt (count + position) := by
  rw [wordAt, wordAt, skip_skip]

theorem word_snd : tape.word.2 = tape.skip 1 := rfl

theorem word_fst : tape.word.1 = Bytes.toNat (tape.read 4).1 := rfl

theorem length_read (count : Nat) : (tape.read count).1.length = count := by
  simp only [read, List.length_append, List.length_take, List.length_replicate]
  omega

theorem word_lt : tape.word.1 < Word.limit 32 := by
  have bound := Bytes.toNat_lt (tape.read 4).1
  rw [length_read] at bound
  exact bound

/-- Past its end a tape has words of zeros. -/
theorem wordAt_of_le {position : Nat} (past : tape.wordCount ≤ position) :
    tape.wordAt position = 0 := by
  have nothing : tape.bytes.drop (4 * position) = [] := by
    rw [wordCount] at past
    apply List.drop_eq_nil_of_le
    omega
  rw [wordAt, skip, nothing]
  rfl

theorem wordCount_skip (count : Nat) : (tape.skip count).wordCount = tape.wordCount - count := by
  simp only [wordCount, skip, List.length_drop]
  omega

/-! ### Tapes that begin with a word -/

/-- The tape with a word in front. -/
def begin (word : Nat) (tape : Tape) : Tape := ⟨Bytes.padded 4 word ++ tape.bytes⟩

theorem length_padded_word {word : Nat} (sized : word < Word.limit 32) :
    (Bytes.padded 4 word).length = 4 :=
  Bytes.length_padded (by decide) sized

theorem word_begin {word : Nat} (sized : word < Word.limit 32) (tape : Tape) :
    (begin word tape).word.1 = word := by
  have front : (begin word tape).bytes.take 4 = Bytes.padded 4 word :=
    List.take_left' (length_padded_word sized)
  rw [word_fst, read, front, length_padded_word sized, Nat.sub_self, List.replicate_zero,
    List.append_nil, Bytes.toNat_padded]

theorem skip_begin {word : Nat} (sized : word < Word.limit 32) (tape : Tape) :
    (begin word tape).skip 1 = tape := by
  have rest : (begin word tape).bytes.drop 4 = tape.bytes :=
    List.drop_left' (length_padded_word sized)
  rw [skip, Nat.mul_one, rest]

/-- A tape is its first word in front of the rest. -/
theorem begin_word (long : 4 ≤ tape.bytes.length) : begin tape.word.1 (tape.skip 1) = tape := by
  have four : (tape.bytes.take 4).length = 4 := List.length_take_of_le long
  have front : Bytes.padded 4 tape.word.1 = tape.bytes.take 4 := by
    rw [word_fst, read, four, Nat.sub_self, List.replicate_zero, List.append_nil]
    have some_byte : 0 < (tape.bytes.take 4).length := by omega
    have padded_eq := Bytes.padded_toNat some_byte
    rwa [four] at padded_eq
  rw [begin, front, skip, Nat.mul_one, List.take_append_drop]

/-- A condition on the first word and one on the rest are met by as many tapes as there are words
for the one and tapes for the other. -/
theorem ncard_front (front : Nat → Prop) (rest : Tape → Prop) (length : Nat) :
    {tape : Tape | tape.bytes.length = 4 * (length + 1) ∧ front tape.word.1 ∧
        rest (tape.skip 1)}.ncard =
      {word | word < Word.limit 32 ∧ front word}.ncard *
        {tape : Tape | tape.bytes.length = 4 * length ∧ rest tape}.ncard := by
  rw [← Set.ncard_prod]
  have paired : Set.BijOn (fun pair : Nat × Tape => begin pair.1 pair.2)
      ({word | word < Word.limit 32 ∧ front word} ×ˢ
        {tape | tape.bytes.length = 4 * length ∧ rest tape})
      {tape | tape.bytes.length = 4 * (length + 1) ∧ front tape.word.1 ∧ rest (tape.skip 1)} := by
    refine ⟨?_, ?_, ?_⟩
    · rintro ⟨word, tape⟩ ⟨⟨sized, fits⟩, long, goes_on⟩
      refine ⟨?_, ?_, ?_⟩
      · show (Bytes.padded 4 word ++ tape.bytes).length = _
        rw [List.length_append, length_padded_word sized, long]
        omega
      · exact (word_begin sized tape).symm ▸ fits
      · exact (skip_begin sized tape).symm ▸ goes_on
    · rintro ⟨word, tape⟩ ⟨⟨sized, -⟩, -⟩ ⟨other, others⟩ ⟨⟨sized', -⟩, -⟩ same
      have words := congrArg (·.word.1) same
      have rests := congrArg (·.skip 1) same
      simp only [word_begin sized, word_begin sized'] at words
      simp only [skip_begin sized, skip_begin sized'] at rests
      rw [words, rests]
    · rintro tape ⟨long, fits, goes_on⟩
      refine ⟨(tape.word.1, tape.skip 1), ⟨⟨word_lt, fits⟩, ?_, goes_on⟩, begin_word (by omega)⟩
      show (tape.bytes.drop (4 * 1)).length = _
      rw [List.length_drop, long]
      omega
  exact paired.ncard_eq.symm

end Tape

namespace Shuffle

variable {bound word result : Nat} {tape : Tape}

/-! ## Accepted words -/

/-- Whether a word is accepted for `bound`. -/
def Accepts (bound word : Nat) : Prop := word * bound % Word.limit 32 ≤ zone bound

instance : DecidablePred (Accepts bound) := fun _ => Nat.decLe _ _

/-- The result that a word stands for. -/
def scaled (bound word : Nat) : Nat := word * bound / Word.limit 32

theorem accepts_zero (bound : Nat) : Accepts bound 0 := by
  simp [Accepts]

/-- The number of leading zeros of a 32-bit word. -/
def leadingZeros (bound : Nat) : Nat := (BitVec.ofNat 32 bound).clz.toNat

section Word

variable (positive : 0 < bound) (word_sized : bound < Word.limit 32)

include positive word_sized

/-- The leading zeros are those places that the number does not reach. -/
theorem leadingZeros_eq : leadingZeros bound = 31 - Nat.log2 bound := by
  have value_eq : (BitVec.ofNat 32 bound).toNat = bound :=
    (BitVec.toNat_ofNat bound 32).trans (Nat.mod_eq_of_lt word_sized)
  have above : bound < 2 ^ (32 - leadingZeros bound) := by
    have above := BitVec.toNat_lt_two_pow_sub_clz (x := BitVec.ofNat 32 bound)
    rwa [value_eq] at above
  have below : 2 ^ (31 - leadingZeros bound) ≤ bound := by
    have nonzero : BitVec.ofNat 32 bound ≠ 0#32 := by
      intro zero
      rw [zero] at value_eq
      exact positive.ne value_eq
    have below := BitVec.two_pow_sub_clz_le_toNat_of_ne_zero (by decide) nonzero
    rwa [value_eq] at below
  have some_place : leadingZeros bound < 32 := by
    by_contra all
    rw [Nat.sub_eq_zero_of_le (Nat.le_of_not_lt all)] at above
    omega
  have low : Nat.log2 bound < 32 - leadingZeros bound := (Nat.log2_lt positive.ne').mpr above
  have high : ¬ Nat.log2 bound < 31 - leadingZeros bound := by
    rw [Nat.log2_lt positive.ne']
    exact Nat.not_lt.mpr below
  omega

/-- The accepted low words: as many as the bound shifted to the top of the word. -/
theorem zone_eq : zone bound = bound * 2 ^ leadingZeros bound - 1 := by
  rw [zone, leadingZeros_eq positive word_sized]
  rfl

theorem shifted_le : bound * 2 ^ leadingZeros bound ≤ Word.limit 32 := by
  rw [leadingZeros_eq positive word_sized]
  have small : Nat.log2 bound < 32 := (Nat.log2_lt positive.ne').mpr word_sized
  calc bound * 2 ^ (31 - Nat.log2 bound)
      ≤ 2 ^ (Nat.log2 bound + 1) * 2 ^ (31 - Nat.log2 bound) :=
        Nat.mul_le_mul_right _ Nat.lt_log2_self.le
    _ = 2 ^ 32 := by
        rw [← Nat.pow_add, show Nat.log2 bound + 1 + (31 - Nat.log2 bound) = 32 by omega]

/-- A word is accepted with a result exactly if its product with the bound lies in the front part of
the words that begin with the result. -/
theorem accepts_and_scaled_eq_iff :
    Accepts bound word ∧ scaled bound word = result ↔
      result * Word.limit 32 ≤ word * bound ∧
        word * bound < result * Word.limit 32 + bound * 2 ^ leadingZeros bound := by
  have shifted := shifted_le positive word_sized
  have shifted_pos : 0 < bound * 2 ^ leadingZeros bound :=
    Nat.mul_pos positive (Nat.pow_pos (by decide))
  have split := Nat.div_add_mod' (word * bound) (Word.limit 32)
  have low : word * bound % Word.limit 32 < Word.limit 32 := Nat.mod_lt _ (by decide)
  rw [Accepts, zone_eq positive word_sized, scaled]
  constructor
  · rintro ⟨accepted, rfl⟩
    omega
  · rintro ⟨above, below⟩
    have quotient : word * bound / Word.limit 32 = result := by
      apply Nat.div_eq_of_lt_le above
      rw [Nat.succ_mul]
      exact below.trans_le (Nat.add_le_add_left shifted _)
    rw [quotient] at split
    omega

/-- **Every result is that of equally many words.** -/
theorem ncard_accepted (inside : result < bound) :
    {word | word < Word.limit 32 ∧ Accepts bound word ∧ scaled bound word = result}.ncard =
      2 ^ leadingZeros bound := by
  generalize count_eq : 2 ^ leadingZeros bound = count
  have shifted := shifted_le positive word_sized
  rw [count_eq] at shifted
  -- The words form an interval: from the least one that reaches the result on, `count` of them.
  generalize least_eq : (result * Word.limit 32 + (bound - 1)) / bound = least
  have reaches (word : Nat) : least ≤ word ↔ result * Word.limit 32 ≤ word * bound := by
    rw [← least_eq, Nat.div_le_iff_le_mul_add_pred positive, Nat.mul_comm bound word]
    omega
  have passes (word : Nat) :
      word < least + count ↔ word * bound < result * Word.limit 32 + bound * count := by
    by_cases enough : count ≤ word
    · obtain ⟨more, rfl⟩ := Nat.exists_eq_add_of_le enough
      have product_eq : (count + more) * bound = bound * count + more * bound := by
        rw [Nat.add_mul, Nat.mul_comm count]
      have reaches_more := reaches more
      omega
    · have product_lt : word * bound < bound * count := by
        rw [Nat.mul_comm bound]
        exact Nat.mul_lt_mul_of_pos_right (Nat.lt_of_not_le enough) positive
      omega
  have interval : {word | word < Word.limit 32 ∧ Accepts bound word ∧ scaled bound word = result} =
      Finset.Ico least (least + count) := by
    ext word
    rw [Finset.coe_Ico, Set.mem_Ico, reaches, passes]
    show word < Word.limit 32 ∧ Accepts bound word ∧ scaled bound word = result ↔ _
    rw [accepts_and_scaled_eq_iff positive word_sized, count_eq]
    refine and_iff_right_of_imp fun bounds => ?_
    -- Beyond the words there is no result below the bound.
    have product_lt : word * bound < Word.limit 32 * bound := by
      have results : (result + 1) * Word.limit 32 ≤ Word.limit 32 * bound := by
        rw [Nat.mul_comm (Word.limit 32)]
        exact Nat.mul_le_mul_right _ inside
      rw [Nat.succ_mul] at results
      omega
    exact Nat.lt_of_mul_lt_mul_right product_lt
  rw [interval, Set.ncard_coe_finset, Nat.card_Ico, Nat.add_sub_cancel_left]

end Word

/-! ## Picks -/

theorem exists_accepted (bound : Nat) (tape : Tape) :
    ∃ position, Accepts bound (tape.wordAt position) := by
  refine ⟨tape.wordCount, ?_⟩
  rw [Tape.wordAt_of_le le_rfl]
  exact accepts_zero bound

/-- How many words a pick refuses. -/
def refusals (bound : Nat) (tape : Tape) : Nat := Nat.find (exists_accepted bound tape)

/-- Only words with a byte on the tape are refused. -/
theorem refusals_le : refusals bound tape ≤ tape.wordCount := by
  apply Nat.find_min'
  rw [Tape.wordAt_of_le le_rfl]
  exact accepts_zero bound

theorem refusals_of_accepts (accepted : Accepts bound tape.word.1) : refusals bound tape = 0 :=
  (Nat.find_eq_zero _).mpr accepted

theorem refusals_of_refused (refused : ¬ Accepts bound tape.word.1) :
    refusals bound tape = refusals bound (tape.skip 1) + 1 := by
  have later : ∃ position, Accepts bound (tape.wordAt (position + 1)) := by
    obtain ⟨position, accepted⟩ := exists_accepted bound (tape.skip 1)
    rw [Tape.wordAt_skip, Nat.add_comm] at accepted
    exact ⟨position, accepted⟩
  rw [refusals, Nat.find_comp_succ (exists_accepted bound tape) later refused]
  congr 1
  simp only [refusals, Tape.wordAt_skip, Nat.add_comm 1]

/-- **A pick is the result of the first accepted word of its tape**, and leaves the words behind
it. -/
theorem pick_eq (bound : Nat) (tape : Tape) :
    pick bound tape = (scaled bound (tape.wordAt (refusals bound tape)),
      tape.skip (refusals bound tape + 1)) := by
  induction tape using pick.induct bound with
  | case1 tape drawn product accepted =>
      rw [pick, dif_pos accepted, refusals_of_accepts accepted]
      rfl
  | case2 tape drawn product refused shorter ih =>
      rw [pick, dif_neg refused, ih, refusals_of_refused refused, Tape.word_snd, Tape.wordAt_skip,
        Tape.skip_skip, Nat.add_comm 1, Nat.add_comm 1]

end Shuffle

end Mixnet
