import Mathlib.Algebra.BigOperators.Ring.Finset
import Mathlib.Algebra.Group.Action.Defs
import Mathlib.Algebra.Order.BigOperators.Group.Finset
import Mathlib.Order.Interval.Finset.Nat
import Mixnet.Chunk

/-!
# Coverage of slots by chunks

Accounting adds up lengths, while the laws of a graph are about slots.  The bridge between the two
is the number of times a list of chunks covers a slot: the weight that chunks put on a range of
slots is the sum of these numbers over the range.

## Main definitions

* `Chunk.coverage`: how many chunks of a list cover a slot
* `Chunk.weight`: the weight of a list of chunks on a range of slots
* `Chunk.Apart`: chunks without a common slot

## Main statements

* `Chunk.weight_cons`: a chunk adds the length of its overlap with the range
* `Chunk.coverage_pieces`: the pieces of a chunk cover its slots, each once
* `Chunk.length_of_mem_pieces`: they have the size asked for, if it divides the length
* `Chunk.pairwise_apart_iff`: chunks are disjoint exactly if no slot is covered twice
-/

namespace Mixnet.Chunk

@[simp] theorem covers_iff {chunk : Chunk} {slot : Nat} :
    chunk.covers slot = true ↔ chunk.start ≤ slot ∧ slot < chunk.stop := by
  simp [covers]

/-! ## How often a slot is covered -/

/-- How many chunks of a list cover a slot. -/
def coverage (chunks : List Chunk) (slot : Nat) : Nat := chunks.countP (·.covers slot)

@[simp] theorem coverage_nil (slot : Nat) : coverage [] slot = 0 := rfl

theorem coverage_cons (chunk : Chunk) (chunks : List Chunk) (slot : Nat) :
    coverage (chunk :: chunks) slot =
      coverage chunks slot + if chunk.covers slot then 1 else 0 := by
  simp only [coverage, List.countP_cons]

theorem coverage_append (left right : List Chunk) (slot : Nat) :
    coverage (left ++ right) slot = coverage left slot + coverage right slot :=
  List.countP_append

theorem coverage_perm {left right : List Chunk} (same : left.Perm right) (slot : Nat) :
    coverage left slot = coverage right slot :=
  same.countP_eq _

theorem coverage_pos_iff {chunks : List Chunk} {slot : Nat} :
    0 < coverage chunks slot ↔ ∃ chunk ∈ chunks, chunk.covers slot = true :=
  List.countP_pos_iff

/-! ## Weight on a range of slots -/

/-- The number of slots that a chunk shares with the range from `low` to `high`. -/
def overlap (chunk : Chunk) (low high : Nat) : Nat := min chunk.stop high - max chunk.start low

/-- The weight of a list of chunks on the slots from `low` to `high`: every slot counts once for
each chunk that covers it. -/
def weight (chunks : List Chunk) (low high : Nat) : Nat :=
  ∑ slot ∈ Finset.Ico low high, coverage chunks slot

@[simp] theorem weight_nil (low high : Nat) : weight [] low high = 0 := by simp [weight]

theorem sum_covers (chunk : Chunk) (low high : Nat) :
    (∑ slot ∈ Finset.Ico low high, if chunk.covers slot then 1 else 0) =
      chunk.overlap low high := by
  have shared : (Finset.Ico low high).filter (fun slot => chunk.covers slot = true) =
      Finset.Ico (max chunk.start low) (min chunk.stop high) := by
    ext slot
    simp only [Finset.mem_filter, Finset.mem_Ico, covers_iff]
    omega
  rw [Finset.sum_boole, shared, Nat.card_Ico]
  rfl

/-- **A chunk adds the length of its overlap.** -/
theorem weight_cons (chunk : Chunk) (chunks : List Chunk) (low high : Nat) :
    weight (chunk :: chunks) low high = weight chunks low high + chunk.overlap low high := by
  simp only [weight, coverage_cons, Finset.sum_add_distrib, sum_covers]

theorem weight_perm {left right : List Chunk} (same : left.Perm right) (low high : Nat) :
    weight left low high = weight right low high :=
  Finset.sum_congr rfl fun slot _ => coverage_perm same slot

/-- What holds of every slot from `low` to `high`, as sums over the range ask for it. -/
theorem forall_mem_range {low high : Nat} {property : Nat → Prop}
    (each : ∀ slot, low ≤ slot → slot < high → property slot) :
    ∀ slot ∈ Finset.Ico low high, property slot := by
  intro slot member
  obtain ⟨above, below⟩ := Finset.mem_Ico.mp member
  exact each slot above below

/-- A range on which no slot is covered more than `times` times carries no more weight than that. -/
theorem weight_le {chunks : List Chunk} {low high times : Nat}
    (bounded : ∀ slot, low ≤ slot → slot < high → coverage chunks slot ≤ times) :
    weight chunks low high ≤ (high - low) * times := by
  have each := forall_mem_range bounded
  calc weight chunks low high
      ≤ (Finset.Ico low high).card • times := Finset.sum_le_card_nsmul _ _ _ each
    _ = (high - low) * times := by rw [Nat.card_Ico, smul_eq_mul]

/-- A range that carries the greatest weight possible is covered evenly. -/
theorem coverage_eq_of_weight_eq {chunks : List Chunk} {low high times : Nat}
    (bounded : ∀ slot, low ≤ slot → slot < high → coverage chunks slot ≤ times)
    (full : weight chunks low high = (high - low) * times) {slot : Nat}
    (above : low ≤ slot) (below : slot < high) : coverage chunks slot = times := by
  have each := forall_mem_range bounded
  have even : ∑ slot ∈ Finset.Ico low high, coverage chunks slot =
      ∑ _slot ∈ Finset.Ico low high, times := by
    rw [Finset.sum_const, Nat.card_Ico, smul_eq_mul, ← full]
    rfl
  exact (Finset.sum_eq_sum_iff_of_le each).mp even slot (Finset.mem_Ico.mpr ⟨above, below⟩)

/-- A range that is covered evenly carries the weight of that. -/
theorem weight_eq_of_coverage_eq {chunks : List Chunk} {low high times : Nat}
    (even : ∀ slot, low ≤ slot → slot < high → coverage chunks slot = times) :
    weight chunks low high = (high - low) * times := by
  have each := forall_mem_range even
  rw [weight, Finset.sum_congr rfl each, Finset.sum_const, Nat.card_Ico, smul_eq_mul]

/-! ## Disjoint chunks -/

/-- Two chunks without a common slot. -/
def Apart (left right : Chunk) : Prop :=
  ∀ slot, ¬ (left.covers slot = true ∧ right.covers slot = true)

/-- **Chunks are disjoint exactly if no slot is covered twice.** -/
theorem pairwise_apart_iff {chunks : List Chunk} :
    chunks.Pairwise Apart ↔ ∀ slot, coverage chunks slot ≤ 1 := by
  induction chunks with
  | nil => simp
  | cons chunk chunks ih =>
      rw [List.pairwise_cons, ih]
      constructor
      · rintro ⟨apart, rest⟩ slot
        rw [coverage_cons]
        by_cases covered : chunk.covers slot = true
        · have uncovered : coverage chunks slot = 0 := by
            by_contra positive
            obtain ⟨other, member, both⟩ := coverage_pos_iff.mp (Nat.pos_of_ne_zero positive)
            exact apart other member slot ⟨covered, both⟩
          rw [if_pos covered, uncovered]
        · rw [if_neg covered]
          exact rest slot
      · intro once
        refine ⟨?_, fun slot => ?_⟩
        · rintro other member slot ⟨covered, both⟩
          have positive : 0 < coverage chunks slot := coverage_pos_iff.mpr ⟨other, member, both⟩
          have bound := once slot
          rw [coverage_cons, if_pos covered] at bound
          omega
        · have bound := once slot
          rw [coverage_cons] at bound
          omega

/-! ## Pieces -/

theorem pieces_of_lt {chunk : Chunk} (nonempty : chunk.start < chunk.stop) (size : Nat) :
    chunk.pieces size =
      { start := chunk.start
        stop := min (chunk.start + max size 1) chunk.stop
        start_le_stop := by omega
        stop_lt := (Nat.min_le_right _ _).trans_lt chunk.stop_lt } ::
      pieces
        { start := min (chunk.start + max size 1) chunk.stop
          stop := chunk.stop
          start_le_stop := Nat.min_le_right _ _
          stop_lt := chunk.stop_lt } size := by
  rw [pieces, if_pos nonempty]

theorem pieces_of_not_lt {chunk : Chunk} (empty : ¬ chunk.start < chunk.stop) (size : Nat) :
    chunk.pieces size = [] := by
  rw [pieces, if_neg empty]

/-- **The pieces of a chunk cover its slots, each once.** -/
theorem coverage_pieces (chunk : Chunk) (size slot : Nat) :
    coverage (chunk.pieces size) slot = if chunk.covers slot then 1 else 0 := by
  induction chunk using pieces.induct size with
  | case1 chunk nonempty ordered bounded cut ih =>
      rw [pieces_of_lt nonempty, coverage_cons, ih]
      simp only [covers_iff]
      split_ifs <;> omega
  | case2 chunk empty =>
      rw [pieces_of_not_lt empty, coverage_nil, if_neg]
      rw [covers_iff]
      omega

/-- Every piece is a part of the chunk, and not an empty one. -/
theorem bounds_of_mem_pieces {chunk piece : Chunk} {size : Nat}
    (member : piece ∈ chunk.pieces size) :
    chunk.start ≤ piece.start ∧ piece.start < piece.stop ∧ piece.stop ≤ chunk.stop := by
  induction chunk using pieces.induct size with
  | case1 chunk nonempty ordered bounded cut ih =>
      rw [pieces_of_lt nonempty, List.mem_cons] at member
      rcases member with rfl | later
      · refine ⟨Nat.le_refl _, ?_, Nat.min_le_right _ _⟩
        show chunk.start < min (chunk.start + max size 1) chunk.stop
        omega
      · obtain ⟨above, inside, below⟩ := ih later
        refine ⟨?_, inside, below⟩
        have : chunk.start ≤ min (chunk.start + max size 1) chunk.stop := by omega
        exact this.trans above
  | case2 chunk empty =>
      rw [pieces_of_not_lt empty] at member
      cases member

/-- A size that divides the length cuts a chunk into pieces of that size. -/
theorem length_of_mem_pieces {chunk piece : Chunk} {size : Nat} (positive : 0 < size)
    (divides : size ∣ chunk.length) (member : piece ∈ chunk.pieces size) :
    piece.length = size := by
  induction chunk using pieces.induct size with
  | case1 chunk nonempty ordered bounded cut ih =>
      have enough : size ≤ chunk.length := Nat.le_of_dvd (Nat.sub_pos_of_lt nonempty) divides
      have reach : cut = chunk.start + size := by
        simp only [length] at enough
        show min (chunk.start + max size 1) chunk.stop = chunk.start + size
        omega
      rw [pieces_of_lt nonempty, List.mem_cons] at member
      rcases member with rfl | later
      · show cut - chunk.start = size
        omega
      · refine ih ?_ later
        show size ∣ chunk.stop - cut
        rw [reach, Nat.sub_add_eq]
        exact Nat.dvd_sub divides (Nat.dvd_refl size)
  | case2 chunk empty =>
      rw [pieces_of_not_lt empty] at member
      cases member

end Mixnet.Chunk
