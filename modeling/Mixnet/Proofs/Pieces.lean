import Mathlib.Data.List.Chain
import Mixnet.Proofs.Coverage

/-!
# Cutting a chunk

A chunk is cut by an iterator that holds the rest of it in two words and adds to them without
leaving the word.  What it yields is the one way to cut the chunk into consecutive pieces of a size.

## Main definitions

* `Word.saturatingSum`: the sum of two words, or the greatest word
* `Splits`, `Splits.next`, `Splits.drain`: the iterator, one piece of it, and all of them
* `Chunk.IsCut`, `Chunk.IsEvenCut`: a list of consecutive pieces that make up a chunk

## Main statements

* `Chunk.drain_splits`: the iterator ends without a fault, and has yielded the pieces
* `Chunk.isCut_pieces`: the pieces are a cut, with a shorter piece only at the end
* `Chunk.flatMap_pieces_pieces`: cutting the pieces again is cutting the chunk

## Design notes

That a sum saturates shows only where a piece would end behind the greatest word; the end of the
chunk comes before, so that the cut is made there either way.
-/

namespace Mixnet

/-- The sum of two words, or the greatest word if the sum is none. -/
def Word.saturatingSum (width left right : Nat) : Nat :=
  if left + right < limit width then left + right else greatest width

/-! ## The iterator -/

/-- What is left of a chunk that is being cut. -/
structure Splits where
  /-- The first index of the next piece. -/
  next : Nat
  /-- The end of the chunk. -/
  stop : Nat
  /-- The size of a piece. -/
  size : Nat
  stop_lt : stop < Word.limit 32
  size_pos : 0 < size

namespace Splits

/-- The end of the next piece. -/
def cut (splits : Splits) : Nat :=
  min splits.stop (Word.saturatingSum 32 splits.next splits.size)

/-- The next piece, if there is one, and what is left behind it. -/
def advance (splits : Splits) : Except Fault (Option (Chunk × Splits)) :=
  if splits.stop ≤ splits.next then .ok none
  else do
    let piece ← Chunk.ofBounds splits.next splits.cut
    return some (piece, { splits with next := splits.cut })

/-- The cut lies one size further on, or at the end of the chunk. -/
theorem cut_eq (splits : Splits) : splits.cut = min (splits.next + splits.size) splits.stop := by
  have stop_lt := splits.stop_lt
  unfold cut Word.saturatingSum Word.greatest
  split <;> omega

/-- As long as something is left, a piece of it is yielded. -/
theorem advance_eq_ok {splits : Splits} (left : splits.next < splits.stop) :
    ∃ (ordered : splits.next ≤ splits.cut) (fits : splits.cut < Word.limit 32),
      splits.advance = .ok (some
        (⟨splits.next, splits.cut, ordered, fits⟩, { splits with next := splits.cut })) := by
  have ordered : splits.next ≤ splits.cut := by
    rw [cut_eq]
    omega
  have fits : splits.cut < Word.limit 32 := (Nat.min_le_left _ _).trans_lt splits.stop_lt
  refine ⟨ordered, fits, ?_⟩
  rw [advance, if_neg (Nat.not_le.mpr left), Chunk.ofBounds_eq_ok ordered fits, Fault.ok_bind]
  rfl

theorem advance_eq_none {splits : Splits} (nothing : ¬ splits.next < splits.stop) :
    splits.advance = .ok none := by
  rw [advance, if_pos (Nat.not_lt.mp nothing)]

/-- Every piece leaves less. -/
theorem left_lt {splits rest : Splits} {piece : Chunk}
    (yielded : splits.advance = .ok (some (piece, rest))) :
    rest.stop - rest.next < splits.stop - splits.next := by
  have size_pos := splits.size_pos
  by_cases left : splits.next < splits.stop
  · obtain ⟨_, _, advanced⟩ := advance_eq_ok left
    rw [advanced] at yielded
    injection yielded with yielded
    injection yielded with yielded
    injection yielded with _ rest_eq
    subst rest_eq
    show splits.stop - splits.cut < splits.stop - splits.next
    rw [cut_eq]
    omega
  · rw [advance_eq_none left] at yielded
    cases yielded

/-- All pieces that are yielded, up to the first fault. -/
def drain (splits : Splits) : Except Fault (List Chunk) :=
  match _yielded : splits.advance with
  | .error fault => .error fault
  | .ok none => .ok []
  | .ok (some (piece, rest)) => rest.drain.map (piece :: ·)
termination_by splits.stop - splits.next
decreasing_by exact left_lt _yielded

end Splits

namespace Chunk

variable {chunk piece : Chunk} {size : Nat}

/-- The iterator over a chunk.  Size zero is read as one. -/
def splits (chunk : Chunk) (size : Nat) : Splits where
  next := chunk.start
  stop := chunk.stop
  size := max size 1
  stop_lt := chunk.stop_lt
  size_pos := Nat.le_max_right size 1

/-- **The iterator ends without a fault**, and has yielded the pieces. -/
theorem drain_splits (chunk : Chunk) (size : Nat) :
    (chunk.splits size).drain = .ok (chunk.pieces size) := by
  induction chunk using pieces.induct size with
  | case1 chunk nonempty ordered bounded cut ih =>
      have left : (chunk.splits size).next < (chunk.splits size).stop := nonempty
      obtain ⟨ordered', fits, advanced⟩ := Splits.advance_eq_ok left
      have cut_eq : (chunk.splits size).cut = cut := Splits.cut_eq _
      have rest_eq : { chunk.splits size with next := (chunk.splits size).cut } =
          splits ⟨cut, chunk.stop, Nat.min_le_right _ _, bounded⟩ size := by
        simp only [cut_eq]
        rfl
      rw [rest_eq] at advanced
      rw [Splits.drain, advanced]
      dsimp only
      rw [ih, pieces_of_lt nonempty]
      simp only [cut_eq]
      rfl
  | case2 chunk empty =>
      rw [Splits.drain, Splits.advance_eq_none empty, pieces_of_not_lt empty]

/-! ## The cut -/

/-- Size zero is read as one. -/
theorem pieces_max (chunk : Chunk) (size : Nat) :
    chunk.pieces (max size 1) = chunk.pieces size := by
  have same : max (max size 1) 1 = max size 1 := by omega
  induction chunk using pieces.induct size with
  | case1 chunk nonempty ordered bounded cut ih =>
      rw [pieces_of_lt nonempty, pieces_of_lt nonempty]
      simp only [same]
      exact congrArg₂ List.cons rfl ih
  | case2 chunk empty => rw [pieces_of_not_lt empty, pieces_of_not_lt empty]

/-- A list of consecutive pieces that make up a chunk: each of the size asked for but the last,
which may be shorter if the size does not divide the length. -/
structure IsCut (chunk : Chunk) (size : Nat) (pieces : List Chunk) : Prop where
  nonempty : ∀ piece ∈ pieces, piece.start < piece.stop
  consecutive : pieces.IsChain fun left right => left.stop = right.start
  slots_eq : pieces.flatMap slots = chunk.slots
  full : ∀ piece ∈ pieces.dropLast, piece.length = size
  last : ∀ piece ∈ pieces.getLast?,
    piece.length ≤ size ∧ (piece.length = size ↔ size ∣ chunk.length)

/-- A cut all of whose pieces have the size asked for. -/
structure IsEvenCut (chunk : Chunk) (size : Nat) (pieces : List Chunk) : Prop
    extends chunk.IsCut size pieces where
  even : ∀ piece ∈ pieces, piece.length = size

theorem slots_of_not_lt (empty : ¬ chunk.start < chunk.stop) : chunk.slots = [] := by
  have none_left : chunk.length = 0 := by
    rw [length]
    omega
  rw [slots, none_left, List.range'_zero]

/-- The slots of two chunks one behind the other are those of both. -/
theorem slots_append {front back : Chunk} (start_eq : front.start = chunk.start)
    (meets : front.stop = back.start) (stop_eq : back.stop = chunk.stop) :
    front.slots ++ back.slots = chunk.slots := by
  have front_ordered := front.start_le_stop
  have back_ordered := back.start_le_stop
  have back_start : back.start = front.start + 1 * front.length := by
    rw [length]
    omega
  have whole : front.length + back.length = chunk.length := by
    simp only [length]
    omega
  rw [slots, slots, slots, back_start, List.range'_append, whole, start_eq]

/-- The first piece begins where the chunk does. -/
theorem start_of_mem_head? (member : piece ∈ (chunk.pieces size).head?) :
    piece.start = chunk.start := by
  by_cases nonempty : chunk.start < chunk.stop
  · rw [pieces_of_lt nonempty, List.head?_cons, Option.mem_some_iff] at member
    rw [← member]
  · rw [pieces_of_not_lt nonempty] at member
    cases member

theorem pieces_eq_nil_iff : chunk.pieces size = [] ↔ ¬ chunk.start < chunk.stop := by
  constructor
  · intro none_left nonempty
    rw [pieces_of_lt nonempty] at none_left
    cases none_left
  · exact fun empty => pieces_of_not_lt empty size

theorem isChain_pieces (chunk : Chunk) (size : Nat) :
    (chunk.pieces size).IsChain fun left right => left.stop = right.start := by
  induction chunk using pieces.induct size with
  | case1 chunk nonempty ordered bounded cut ih =>
      rw [pieces_of_lt nonempty, List.isChain_cons]
      exact ⟨fun piece member => (start_of_mem_head? member).symm, ih⟩
  | case2 chunk empty =>
      rw [pieces_of_not_lt empty]
      exact .nil

/-- The pieces of a chunk, one behind the other, have its slots. -/
theorem flatMap_slots_pieces (chunk : Chunk) (size : Nat) :
    (chunk.pieces size).flatMap slots = chunk.slots := by
  induction chunk using pieces.induct size with
  | case1 chunk nonempty ordered bounded cut ih =>
      rw [pieces_of_lt nonempty, List.flatMap_cons, ih]
      exact slots_append rfl rfl rfl
  | case2 chunk empty =>
      rw [pieces_of_not_lt empty, slots_of_not_lt empty, List.flatMap_nil]

/-- No piece but the last is shorter. -/
theorem length_of_mem_dropLast (positive : 0 < size)
    (member : piece ∈ (chunk.pieces size).dropLast) : piece.length = size := by
  induction chunk using pieces.induct size with
  | case1 chunk nonempty ordered bounded cut ih =>
      have cut_eq : cut = min (chunk.start + max size 1) chunk.stop := rfl
      rw [pieces_of_lt nonempty] at member
      by_cases more : cut < chunk.stop
      · rw [List.dropLast_cons_of_ne_nil (mt pieces_eq_nil_iff.mp (not_not_intro more)),
          List.mem_cons] at member
        rcases member with rfl | later
        · show cut - chunk.start = size
          omega
        · exact ih later
      · -- Nothing is left behind the first piece, so that it is the last.
        have nothing : pieces ⟨cut, chunk.stop, Nat.min_le_right _ _, bounded⟩ size = [] :=
          pieces_of_not_lt more size
        rw [nothing] at member
        cases member
  | case2 chunk empty =>
      rw [pieces_of_not_lt empty] at member
      cases member

/-- The last piece is shorter exactly if the size does not divide the length. -/
theorem length_of_mem_getLast? (positive : 0 < size)
    (member : piece ∈ (chunk.pieces size).getLast?) :
    piece.length ≤ size ∧ (piece.length = size ↔ size ∣ chunk.length) := by
  induction chunk using pieces.induct size with
  | case1 chunk nonempty ordered bounded cut ih =>
      have cut_eq : cut = min (chunk.start + max size 1) chunk.stop := rfl
      have length_eq : chunk.length = chunk.stop - chunk.start := rfl
      rw [pieces_of_lt nonempty] at member
      by_cases more : cut < chunk.stop
      · have some_left : pieces ⟨cut, chunk.stop, Nat.min_le_right _ _, bounded⟩ size ≠ [] :=
          mt pieces_eq_nil_iff.mp (not_not_intro more)
        rw [List.getLast?_cons_of_ne_nil some_left] at member
        have rest_length : chunk.length = size + (chunk.stop - cut) := by omega
        obtain ⟨bound, whole_iff⟩ := ih member
        rw [rest_length, Nat.dvd_add_right (Nat.dvd_refl size)]
        exact ⟨bound, whole_iff⟩
      · have nothing : pieces ⟨cut, chunk.stop, Nat.min_le_right _ _, bounded⟩ size = [] :=
          pieces_of_not_lt more size
        rw [nothing, List.getLast?_singleton, Option.mem_some_iff] at member
        have whole : piece.length = chunk.length := by
          rw [← member, length_eq]
          show cut - chunk.start = chunk.stop - chunk.start
          omega
        rw [whole]
        refine ⟨by omega, fun same => same ▸ Nat.dvd_refl size, fun divides => ?_⟩
        have := Nat.le_of_dvd (by omega) divides
        omega
  | case2 chunk empty =>
      rw [pieces_of_not_lt empty] at member
      cases member

/-- **The pieces are a cut of the chunk.** -/
theorem isCut_pieces (chunk : Chunk) (positive : 0 < size) :
    chunk.IsCut size (chunk.pieces size) where
  nonempty _ member := (bounds_of_mem_pieces member).2.1
  consecutive := isChain_pieces chunk size
  slots_eq := flatMap_slots_pieces chunk size
  full _ member := length_of_mem_dropLast positive member
  last _ member := length_of_mem_getLast? positive member

/-- The cut is even if the size divides the length. -/
theorem isEvenCut_pieces (positive : 0 < size) (divides : size ∣ chunk.length) :
    chunk.IsEvenCut size (chunk.pieces size) where
  toIsCut := isCut_pieces chunk positive
  even _ member := length_of_mem_pieces positive divides member

/-! ## Nested cuts -/

/-- A chunk of the size asked for is its only piece. -/
theorem pieces_length (nonempty : chunk.start < chunk.stop) :
    chunk.pieces chunk.length = [chunk] := by
  have whole : min (chunk.start + max chunk.length 1) chunk.stop = chunk.stop := by
    rw [length]
    omega
  rw [pieces_of_lt nonempty]
  simp only [whole]
  rw [pieces_of_not_lt (Nat.lt_irrefl _)]

/-- Chunks with the same bounds are cut alike. -/
theorem pieces_congr {left right : Chunk} (start_eq : left.start = right.start)
    (stop_eq : left.stop = right.stop) (size : Nat) : left.pieces size = right.pieces size := by
  obtain ⟨start, stop, _, _⟩ := left
  obtain ⟨_, _, _, _⟩ := right
  obtain rfl : start = _ := start_eq
  obtain rfl : stop = _ := stop_eq
  rfl

/-- Cutting both parts of a chunk is cutting the chunk, if the size divides the front. -/
theorem pieces_append {front back : Chunk} (positive : 0 < size)
    (start_eq : front.start = chunk.start) (meets : front.stop = back.start)
    (stop_eq : back.stop = chunk.stop) (divides : size ∣ front.length) :
    front.pieces size ++ back.pieces size = chunk.pieces size := by
  have back_ordered := back.start_le_stop
  revert chunk
  induction front using pieces.induct size with
  | case1 front nonempty ordered bounded cut ih =>
      intro chunk start_eq stop_eq
      have enough : size ≤ front.stop - front.start :=
        Nat.le_of_dvd (Nat.sub_pos_of_lt nonempty) divides
      have cut_eq : cut = front.start + size := by
        show min (front.start + max size 1) front.stop = _
        omega
      have same_cut : min (chunk.start + max size 1) chunk.stop = cut := by omega
      have rest_divides : size ∣ front.stop - cut := by
        rw [cut_eq, Nat.sub_add_eq]
        exact Nat.dvd_sub divides (Nat.dvd_refl size)
      rw [pieces_of_lt nonempty, pieces_of_lt (show chunk.start < chunk.stop by omega),
        List.cons_append]
      refine congrArg₂ List.cons ?_ ?_
      · simp only [mk.injEq]
        exact ⟨start_eq, same_cut.symm⟩
      · exact ih meets rest_divides same_cut.symm stop_eq
  | case2 front empty =>
      intro chunk start_eq stop_eq
      have ordered := front.start_le_stop
      rw [pieces_of_not_lt empty, List.nil_append]
      exact pieces_congr (by omega) stop_eq size

/-- **Cutting the pieces again is cutting the chunk**, if one size divides the other. -/
theorem flatMap_pieces_pieces (chunk : Chunk) {large : Nat} (positive : 0 < size)
    (nonzero : 0 < large) (divides : size ∣ large) :
    (chunk.pieces large).flatMap (·.pieces size) = chunk.pieces size := by
  induction chunk using pieces.induct large with
  | case1 chunk nonempty ordered bounded cut ih =>
      have cut_eq : cut = min (chunk.start + max large 1) chunk.stop := rfl
      rw [pieces_of_lt nonempty, List.flatMap_cons, ih]
      by_cases more : cut < chunk.stop
      · have whole : cut - chunk.start = large := by omega
        have cut_dvd : size ∣ cut - chunk.start := whole ▸ divides
        exact pieces_append positive rfl rfl rfl cut_dvd
      · have nothing : pieces ⟨cut, chunk.stop, Nat.min_le_right _ _, bounded⟩ size = [] :=
          pieces_of_not_lt more size
        have reached : cut = chunk.stop := by omega
        rw [nothing, List.append_nil]
        refine pieces_congr ?_ ?_ size
        · rfl
        · exact reached
  | case2 chunk empty =>
      rw [pieces_of_not_lt empty, pieces_of_not_lt empty, List.flatMap_nil]

end Chunk

end Mixnet
