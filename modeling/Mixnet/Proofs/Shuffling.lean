import Mathlib.Data.FinEnum
import Mathlib.Data.Set.Finite.List
import Mixnet.Proofs.Draws

/-!
# Every permutation is equally likely

A shuffle is a walk of swaps, each with a position picked from a tape.  What it makes of the cells
depends on the picked positions alone, and every rearrangement of the cells comes of exactly one
choice of them.  Since every position is that of equally many words, equally many tapes lead to each
rearrangement.

## Main definitions

* `Shuffle.Within`: the positions that a walk can pick
* `Shuffle.arrange`: the walk with given positions
* `Shuffle.picks`, `Shuffle.wordsRead`: the positions picked from a tape, and the words read
* `Shuffle.Ending`: the tapes of a given length on which a walk ends

## Main statements

* `Shuffle.shuffleFrom_eq`: a shuffle is the walk with the positions picked from its tape
* `Shuffle.wordsRead_le`: a shuffle reads a word for each swap, and those that it refuses
* `Shuffle.bijOn_arrange`: every rearrangement comes of exactly one choice of positions
* `Shuffle.ncard_ending`: how many tapes lead to given positions does not depend on them
-/

namespace Mixnet

namespace Shuffle

variable {α : Type} {cells result : Array α} {index length pick : Nat} {chosen : List Nat}
  {tape : Tape}

/-! ## Walks -/

/-- Positions that a walk from `index` down to the second position can pick, one for each swap: none
is above the position it is swapped with. -/
inductive Within : Nat → List Nat → Prop
  | nil : Within 0 []
  | cons {below pick : Nat} {rest : List Nat} (le : pick ≤ below + 1) (others : Within below rest) :
      Within (below + 1) (pick :: rest)

/-- The cells after a walk from `index` down to the second position, each position swapped with the
next of those picked. -/
def arrange : Nat → Array α → List Nat → Array α
  | below + 1, cells, pick :: rest => arrange below (cells.swapIfInBounds (below + 1) pick) rest
  | _, cells, _ => cells

/-- The positions that a walk picks from a tape: for each swap the result of the first word that is
accepted. -/
def picks : Nat → Tape → List Nat
  | 0, _ => []
  | below + 1, tape =>
    scaled (below + 2) (tape.wordAt (refusals (below + 2) tape)) ::
      picks below (tape.skip (refusals (below + 2) tape + 1))

/-- The number of words that a walk reads from a tape. -/
def wordsRead : Nat → Tape → Nat
  | 0, _ => 0
  | below + 1, tape =>
    refusals (below + 2) tape + 1 + wordsRead below (tape.skip (refusals (below + 2) tape + 1))

/-- **A shuffle is the walk with the positions picked from its tape.** -/
theorem shuffleFrom_eq (index : Nat) (cells : Array α) (tape : Tape) :
    shuffleFrom index cells tape =
      (arrange index cells (picks index tape), tape.skip (wordsRead index tape)) := by
  induction index generalizing cells tape with
  | zero => rfl
  | succ below ih =>
      rw [shuffleFrom, pick_eq]
      dsimp only
      rw [ih, Tape.skip_skip]
      rfl

/-- **A walk reads a word for each of its swaps, and those that it refuses**: at most those with a
byte on the tape. -/
theorem wordsRead_le (index : Nat) (tape : Tape) :
    wordsRead index tape ≤ index + tape.wordCount := by
  induction index generalizing tape with
  | zero => exact Nat.zero_le _
  | succ below ih =>
      have refused : refusals (below + 2) tape ≤ tape.wordCount := refusals_le
      have rest := ih (tape.skip (refusals (below + 2) tape + 1))
      rw [Tape.wordCount_skip] at rest
      rw [wordsRead]
      omega

theorem scaled_lt {bound word : Nat} (positive : 0 < bound) (word_lt : word < Word.limit 32) :
    scaled bound word < bound := by
  apply Nat.div_lt_of_lt_mul
  exact Nat.mul_lt_mul_of_pos_right word_lt positive

theorem within_picks (index : Nat) (tape : Tape) : Within index (picks index tape) := by
  induction index generalizing tape with
  | zero => exact .nil
  | succ below ih =>
      exact .cons (Nat.le_of_lt_succ (scaled_lt (Nat.succ_pos _) Tape.word_lt)) (ih _)

/-- A shuffle of an array is the walk from its last position. -/
theorem shuffle_eq (cells : Array α) (tape : Tape) :
    shuffle cells tape = (arrange (cells.size - 1) cells (picks (cells.size - 1) tape),
      tape.skip (wordsRead (cells.size - 1) tape)) :=
  shuffleFrom_eq _ cells tape

/-! ## Rearrangements -/

/-- The arrays with the same cells, of which those above `index` are where they were. -/
def Rearranged (index : Nat) (cells : Array α) : Set (Array α) :=
  {result | result.Perm cells ∧ ∀ position, index < position → result[position]? = cells[position]?}

/-- Different positions hold different cells. -/
theorem eq_of_getElem? {value : α} {first second : Nat} (nodup : cells.toList.Nodup)
    (here : cells[first]? = some value) (there : cells[second]? = some value) : first = second := by
  have inside : first < cells.toList.length := by
    rw [Array.length_toList]
    exact (Array.getElem?_eq_some_iff.mp here).1
  apply (List.getElem?_inj inside nodup).mp
  rw [Array.getElem?_toList, Array.getElem?_toList, here, there]

section Swap

variable {top : Nat} (inside : top < cells.size) (le : pick ≤ top)

include inside le

theorem perm_swap : (cells.swapIfInBounds top pick).Perm cells := by
  have pick_lt : pick < cells.size := le.trans_lt inside
  rw [Array.swapIfInBounds_def, dif_pos inside, dif_pos pick_lt]
  exact Array.swap_perm inside pick_lt

theorem nodup_swap (nodup : cells.toList.Nodup) :
    (cells.swapIfInBounds top pick).toList.Nodup :=
  (perm_swap inside le).toList.nodup_iff.mpr nodup

theorem getElem?_swap_top : (cells.swapIfInBounds top pick)[top]? = cells[pick]? := by
  have pick_lt : pick < cells.size := le.trans_lt inside
  rw [Array.swapIfInBounds_def, dif_pos inside, dif_pos pick_lt, Array.getElem?_swap, if_pos rfl,
    Array.getElem?_eq_getElem pick_lt]
  split
  case isTrue same => simp only [same]
  case isFalse => rfl

theorem getElem?_swap_above {position : Nat} (above : top < position) :
    (cells.swapIfInBounds top pick)[position]? = cells[position]? := by
  have pick_lt : pick < cells.size := le.trans_lt inside
  rw [Array.swapIfInBounds_def, dif_pos inside, dif_pos pick_lt, Array.getElem?_swap,
    if_neg (by omega), if_neg (by omega)]

end Swap

theorem lt_size_of_succ_le {below : Nat} (inside : below + 1 ≤ cells.size - 1) :
    below + 1 < cells.size := by
  omega

theorem le_size_swap {below : Nat} (inside : below + 1 < cells.size) :
    below ≤ (cells.swapIfInBounds (below + 1) pick).size - 1 := by
  rw [Array.size_swapIfInBounds]
  omega

/-- Where only the first cell can have moved, none has. -/
theorem eq_of_rearranged_zero (rearranged : result ∈ Rearranged 0 cells) : result = cells := by
  obtain ⟨perm, frame⟩ := rearranged
  apply Array.toList_inj.mp
  have tails : result.toList.tail = cells.toList.tail := by
    apply List.ext_getElem?
    intro position
    rw [List.getElem?_tail, List.getElem?_tail, Array.getElem?_toList, Array.getElem?_toList]
    exact frame _ (Nat.succ_pos position)
  have perm := perm.toList
  cases before : cells.toList with
  | nil =>
      rw [before] at perm
      exact perm.eq_nil
  | cons first rest =>
      cases after : result.toList with
      | nil =>
          rw [before, after] at perm
          cases perm.length_eq
      | cons other others =>
          rw [before, after, List.tail_cons, List.tail_cons] at tails
          rw [before, after, tails] at perm
          have heads : [other].Perm [first] := (List.perm_append_right_iff rest).mp perm
          rw [tails, List.singleton_perm_singleton.mp heads]

/-- What the rest of a walk leaves in its place, the whole walk does too. -/
theorem rearranged_of_swap {below : Nat} (inside : below + 1 < cells.size) (le : pick ≤ below + 1)
    (rest : result ∈ Rearranged below (cells.swapIfInBounds (below + 1) pick)) :
    result ∈ Rearranged (below + 1) cells ∧ result[below + 1]? = cells[pick]? := by
  obtain ⟨perm, frame⟩ := rest
  refine ⟨⟨perm.trans (perm_swap inside le), fun position above => ?_⟩, ?_⟩
  · rw [frame position (by omega), getElem?_swap_above inside le above]
  · rw [frame _ (Nat.lt_succ_self below), getElem?_swap_top inside le]

/-- **A walk rearranges the cells up to its first position.** -/
theorem arrange_mem (inside : index ≤ cells.size - 1) (within : Within index chosen) :
    arrange index cells chosen ∈ Rearranged index cells := by
  induction within generalizing cells with
  | nil => exact ⟨.refl _, fun _ _ => rfl⟩
  | cons le others ih =>
      have inside := lt_size_of_succ_le inside
      exact (rearranged_of_swap inside le (ih (le_size_swap inside))).1

/-- **Different positions lead to different rearrangements**, if the cells are different. -/
theorem injOn_arrange (inside : index ≤ cells.size - 1) (nodup : cells.toList.Nodup) :
    Set.InjOn (arrange index cells) {chosen | Within index chosen} := by
  intro chosen within other within' same
  induction within generalizing cells other with
  | nil =>
      cases within'
      rfl
  | @cons below pick rest le others ih =>
      cases within' with
      | @cons _ pick' rest' le' others' =>
          have inside := lt_size_of_succ_le inside
          -- The topmost cell tells which position it has been swapped with.
          have top := (rearranged_of_swap inside le (arrange_mem (le_size_swap inside) others)).2
          have top' := (rearranged_of_swap inside le' (arrange_mem (le_size_swap inside) others')).2
          have picked : pick = pick' := by
            have pick_lt : pick < cells.size := le.trans_lt inside
            refine eq_of_getElem? nodup (Array.getElem?_eq_getElem pick_lt) ?_
            rw [← Array.getElem?_eq_getElem pick_lt, ← top, ← top']
            exact congrArg (·[below + 1]?) same.symm
          subst picked
          rw [ih (le_size_swap inside) (nodup_swap inside le nodup) others' same]

/-- **Every rearrangement is that of some positions**, if the cells are different. -/
theorem surjOn_arrange (inside : index ≤ cells.size - 1) (nodup : cells.toList.Nodup) :
    Set.SurjOn (arrange index cells) {chosen | Within index chosen} (Rearranged index cells) := by
  intro result rearranged
  induction index generalizing cells with
  | zero => exact ⟨[], .nil, (eq_of_rearranged_zero rearranged).symm⟩
  | succ below ih =>
      have inside := lt_size_of_succ_le inside
      obtain ⟨perm, frame⟩ := rearranged
      have nodup_result : result.toList.Nodup := perm.toList.nodup_iff.mpr nodup
      have inside_result : below + 1 < result.size := perm.size_eq ▸ inside
      -- The topmost cell of the result was somewhere, and not above.
      obtain ⟨pick, pick_lt, picked⟩ := Array.mem_iff_getElem.mp
        ((Array.Perm.mem_iff perm).mp (Array.getElem_mem inside_result))
      have found : result[below + 1]? = cells[pick]? := by
        rw [Array.getElem?_eq_getElem inside_result, Array.getElem?_eq_getElem pick_lt, picked]
      have le : pick ≤ below + 1 := by
        by_contra above
        rw [Nat.not_le] at above
        rw [← frame pick above] at found
        have inside_pick : pick < result.size := perm.size_eq ▸ pick_lt
        rw [Array.getElem?_eq_getElem inside_pick] at found
        exact above.ne (eq_of_getElem? nodup_result found (Array.getElem?_eq_getElem inside_pick))
      have rest : result ∈ Rearranged below (cells.swapIfInBounds (below + 1) pick) := by
        refine ⟨perm.trans (perm_swap inside le).symm, fun position above => ?_⟩
        rcases Nat.eq_or_lt_of_le (Nat.succ_le_of_lt above) with same | further
        · rw [← same, getElem?_swap_top inside le, ← found]
        · rw [getElem?_swap_above inside le further, frame position further]
      obtain ⟨rest, within, arranged⟩ := ih (le_size_swap inside) (nodup_swap inside le nodup) rest
      exact ⟨pick :: rest, .cons le within, arranged⟩

/-- **Every rearrangement comes of exactly one choice of positions.** -/
theorem bijOn_arrange (inside : index ≤ cells.size - 1) (nodup : cells.toList.Nodup) :
    Set.BijOn (arrange index cells) {chosen | Within index chosen} (Rearranged index cells) :=
  ⟨fun _ within => arrange_mem inside within, injOn_arrange inside nodup,
    surjOn_arrange inside nodup⟩

/-! ## Tapes -/

section FirstWord

variable {below : Nat}

theorem picks_of_refused (refused : ¬ Accepts (below + 2) tape.word.1) :
    picks (below + 1) tape = picks (below + 1) (tape.skip 1) := by
  rw [picks, picks, refusals_of_refused refused, Tape.wordAt_skip, Tape.skip_skip, Nat.add_comm 1,
    Nat.add_comm 1]

theorem wordsRead_of_refused (refused : ¬ Accepts (below + 2) tape.word.1) :
    wordsRead (below + 1) tape = wordsRead (below + 1) (tape.skip 1) + 1 := by
  rw [wordsRead, wordsRead, refusals_of_refused refused, Tape.skip_skip, Nat.add_comm 1]
  omega

theorem picks_of_accepted (accepted : Accepts (below + 2) tape.word.1) :
    picks (below + 1) tape = scaled (below + 2) tape.word.1 :: picks below (tape.skip 1) := by
  rw [picks, refusals_of_accepts accepted]
  rfl

theorem wordsRead_of_accepted (accepted : Accepts (below + 2) tape.word.1) :
    wordsRead (below + 1) tape = wordsRead below (tape.skip 1) + 1 := by
  rw [wordsRead, refusals_of_accepts accepted, Nat.zero_add, Nat.add_comm]

end FirstWord

/-- The tapes of `length` words that do not end before a walk from `index` does, and from which it
picks the chosen positions. -/
def Ending (index length : Nat) (chosen : List Nat) : Set Tape :=
  {tape | tape.bytes.length = 4 * length ∧ wordsRead index tape ≤ length ∧
    picks index tape = chosen}

theorem finite_ending : (Ending index length chosen).Finite := by
  refine Set.Finite.of_finite_image (f := Tape.bytes) ?_ ?_
  · refine (List.finite_length_eq UInt8 (4 * length)).subset ?_
    rintro - ⟨tape, ⟨long, -⟩, rfl⟩
    exact long
  · rintro ⟨bytes⟩ _ ⟨other⟩ _ same
    exact congrArg Tape.mk same

/-- A tape is spent on a first word that is refused, or on one that stands for the first of the
chosen positions. -/
theorem ncard_ending_succ {below : Nat} {rest : List Nat} (sized : below + 2 < Word.limit 32)
    (le : pick ≤ below + 1) :
    (Ending (below + 1) (length + 1) (pick :: rest)).ncard =
      {word | word < Word.limit 32 ∧ ¬ Accepts (below + 2) word}.ncard *
          (Ending (below + 1) length (pick :: rest)).ncard +
        2 ^ leadingZeros (below + 2) * (Ending below length rest).ncard := by
  have split : Ending (below + 1) (length + 1) (pick :: rest) =
      {tape | tape.bytes.length = 4 * (length + 1) ∧ ¬ Accepts (below + 2) tape.word.1 ∧
        (wordsRead (below + 1) (tape.skip 1) ≤ length ∧
          picks (below + 1) (tape.skip 1) = pick :: rest)} ∪
      {tape | tape.bytes.length = 4 * (length + 1) ∧
        (Accepts (below + 2) tape.word.1 ∧ scaled (below + 2) tape.word.1 = pick) ∧
        (wordsRead below (tape.skip 1) ≤ length ∧ picks below (tape.skip 1) = rest)} := by
    ext tape
    show _ ∧ _ ∧ _ ↔ (_ ∧ _ ∧ _ ∧ _) ∨ _ ∧ (_ ∧ _) ∧ _ ∧ _
    by_cases accepted : Accepts (below + 2) tape.word.1
    · rw [picks_of_accepted accepted, wordsRead_of_accepted accepted]
      simp only [accepted, List.cons.injEq, Nat.add_le_add_iff_right]
      tauto
    · rw [picks_of_refused accepted, wordsRead_of_refused accepted]
      simp only [accepted, Nat.add_le_add_iff_right]
      tauto
  have finite : (Ending (below + 1) (length + 1) (pick :: rest)).Finite := finite_ending
  rw [split] at finite
  rw [split, Set.ncard_union_eq _ (finite.subset Set.subset_union_left)
    (finite.subset Set.subset_union_right)]
  · rw [Tape.ncard_front (fun word => ¬ Accepts (below + 2) word)
        (fun tape => wordsRead (below + 1) tape ≤ length ∧ picks (below + 1) tape = pick :: rest),
      Tape.ncard_front
        (fun word => Accepts (below + 2) word ∧ scaled (below + 2) word = pick)
        (fun tape => wordsRead below tape ≤ length ∧ picks below tape = rest),
      ncard_accepted (Nat.succ_pos _) sized (Nat.lt_succ_of_le le)]
    rfl
  · rw [Set.disjoint_left]
    rintro tape ⟨-, refused, -⟩ ⟨-, ⟨accepted, -⟩, -⟩
    exact refused accepted

/-- **How many tapes lead to given positions does not depend on them.** -/
theorem ncard_ending {other : List Nat} (sized : index + 1 < Word.limit 32)
    (within : Within index chosen) (within' : Within index other) :
    (Ending index length chosen).ncard = (Ending index length other).ncard := by
  induction length generalizing index chosen other with
  | zero =>
      cases within with
      | nil =>
          cases within'
          rfl
      | @cons below =>
          -- Without a word there is no walk.
          have none (chosen : List Nat) : Ending (below + 1) 0 chosen = ∅ := by
            apply Set.eq_empty_of_forall_notMem
            rintro tape ⟨-, short, -⟩
            rw [wordsRead] at short
            omega
          rw [none, none]
  | succ length ih =>
      cases within with
      | nil =>
          cases within'
          rfl
      | cons le others =>
          cases within' with
          | cons le' others' =>
              rw [ncard_ending_succ sized le, ncard_ending_succ sized le',
                ih sized (.cons le others) (.cons le' others'),
                ih (by omega) others others']

/-- Tapes with a word for each swap are enough for any positions. -/
theorem ncard_ending_pos (sized : index + 1 < Word.limit 32) (within : Within index chosen)
    (long : index ≤ length) : 0 < (Ending index length chosen).ncard := by
  induction within generalizing length with
  | nil =>
      rw [Set.ncard_pos finite_ending]
      exact ⟨⟨List.replicate (4 * length) 0⟩, List.length_replicate, Nat.zero_le _, rfl⟩
  | @cons below pick rest le others ih =>
      obtain ⟨length, rfl⟩ : ∃ shorter, length = shorter + 1 := ⟨length - 1, by omega⟩
      rw [ncard_ending_succ sized le]
      have rest_pos := ih (by omega) (Nat.le_of_succ_le_succ long)
      exact Nat.add_pos_right _ (Nat.mul_pos (Nat.pow_pos (by decide)) rest_pos)

end Shuffle

end Mixnet
