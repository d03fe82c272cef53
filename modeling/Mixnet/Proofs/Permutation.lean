import Mixnet.Proofs.Shuffling
import Mixnet.RoundBuffer

/-!
# The permutation of a round

The buffer of a round keeps where each slot lands.  Real slots are rearranged among themselves, and
padding stays where it is, whatever is done to the buffer.  A list is taken for the new arrangement
exactly if it is one, and a shuffle makes every arrangement equally likely.

## Main definitions

* `RoundBuffer.Write`, `RoundBuffer.write`: what can be done to a buffer
* `RoundBuffer.Settles`: real slots change places among themselves, and padding stays
* `RoundBuffer.arranged`: the buffer after a walk with given positions

## Main statements

* `RoundBuffer.isBijection_iff`: the marking of places recognizes the rearrangements
* `RoundBuffer.Keeps.write`: whatever is done to a buffer leaves it a permutation
* `RoundBuffer.permutation_kept`: the law of every buffer that has been created
* `RoundBuffer.shuffle_uniform`: the law of shuffling
-/

namespace Mixnet.RoundBuffer

/-! ## Rearrangements of the real slots -/

variable {buffer : RoundBuffer} {targets : List Nat}

/-- Every target marks a place of its own exactly if the targets differ and their places were not
marked before. -/
theorem marksEach_iff {seen : Array Bool} :
    marksEach targets seen = true ↔
      targets.Nodup ∧ ∀ target ∈ targets, seen[target]? = some false := by
  induction targets generalizing seen with
  | nil => simp [marksEach]
  | cons target rest ih =>
      by_cases free : seen[target]? = some false
      · have inside : target < seen.size := (Array.getElem?_eq_some_iff.mp free).1
        have marked (other : Nat) : (seen.setIfInBounds target true)[other]? = some false ↔
            other ≠ target ∧ seen[other]? = some false := by
          by_cases same : target = other
          · subst same
            simp [inside]
          · simp [Array.getElem?_setIfInBounds_ne same, Ne.symm same]
        rw [marksEach, free]
        simp only [ih, marked, List.nodup_cons, List.forall_mem_cons, free, true_and]
        constructor
        · rintro ⟨nodup, places⟩
          exact ⟨⟨fun again => (places target again).1 rfl, nodup⟩,
            fun other member => (places other member).2⟩
        · rintro ⟨⟨fresh, nodup⟩, places⟩
          exact ⟨nodup, fun other member =>
            ⟨fun same => fresh (same ▸ member), places other member⟩⟩
      · have refused : marksEach (target :: rest) seen = false := by
          rw [marksEach]
          split
          case h_1 found => exact absurd found free
          case h_2 => rfl
        simp [refused, free]

/-- **The marking of places recognizes the rearrangements**: as many different numbers as there are,
each of them below that, are all there are. -/
theorem isBijection_iff {size : Nat} :
    isBijection targets size = true ↔ targets.Perm (List.range size) := by
  have place (target : Nat) :
      (Array.replicate targets.length false)[target]? = some false ↔ target < targets.length := by
    rw [Array.getElem?_replicate]
    split <;> simp_all
  rw [isBijection, Bool.and_eq_true, decide_eq_true_eq, marksEach_iff]
  simp only [place]
  constructor
  · rintro ⟨rfl, nodup, below⟩
    have sub : targets ⊆ List.range targets.length := fun target member =>
      List.mem_range.mpr (below target member)
    exact (List.subperm_of_subset nodup sub).perm_of_length_le (List.length_range.le)
  · intro perm
    have length_eq : targets.length = size := perm.length_eq.trans List.length_range
    refine ⟨length_eq, perm.nodup_iff.mpr List.nodup_range, fun target member => ?_⟩
    rw [length_eq]
    exact List.mem_range.mp (perm.mem_iff.mp member)

theorem isPermutation_iff :
    buffer.isPermutation = true ↔ buffer.realPermutation.Perm (List.range buffer.batchSize) ∧
      buffer.permutation.toList.drop buffer.batchSize = buffer.padding := by
  rw [isPermutation, Bool.and_eq_true, isBijection_iff, decide_eq_true_eq]

/-- A permutation is the real slots and then the padding. -/
theorem toList_permutation (buffer : RoundBuffer) :
    buffer.permutation.toList =
      buffer.realPermutation ++ buffer.permutation.toList.drop buffer.batchSize :=
  (List.take_append_drop _ _).symm

/-- With as many targets as real slots in front of the padding, the real slots go to the targets. -/
theorem realPermutation_of_append {rest : List Nat}
    (length_eq : targets.length = buffer.batchSize) :
    { buffer with permutation := (targets ++ rest).toArray }.realPermutation = targets :=
  List.take_left' length_eq

theorem isPermutation_of_append (perm : targets.Perm (List.range buffer.batchSize)) :
    { buffer with permutation := (targets ++ buffer.padding).toArray }.isPermutation = true := by
  have length_eq : targets.length = buffer.batchSize := perm.length_eq.trans List.length_range
  rw [isPermutation_iff, realPermutation_of_append length_eq]
  exact ⟨perm, List.drop_left' length_eq⟩

/-- Real slots change places among themselves, and padding stays: `target` is where each slot
lands. -/
structure Settles (buffer : RoundBuffer) (target : Nat → Nat) : Prop where
  lands : ∀ index < buffer.expandedSize, buffer.permutedIndex index = .ok (target index)
  bijOn : Set.BijOn target (Set.Iio buffer.batchSize) (Set.Iio buffer.batchSize)
  stays : ∀ index, buffer.batchSize ≤ index → index < buffer.expandedSize → target index = index

section Valid

variable (valid : buffer.isPermutation = true)

include valid

theorem length_realPermutation : buffer.realPermutation.length = buffer.batchSize :=
  (isPermutation_iff.mp valid).1.length_eq.trans List.length_range

theorem getElem?_of_lt {index : Nat} (real : index < buffer.batchSize) :
    buffer.permutation[index]? = buffer.realPermutation[index]? := by
  rw [← Array.getElem?_toList, toList_permutation,
    List.getElem?_append_left (real.trans_eq (length_realPermutation valid).symm)]

theorem getElem?_of_le {index : Nat} (padded : buffer.batchSize ≤ index)
    (inside : index < buffer.expandedSize) : buffer.permutation[index]? = some index := by
  rw [← Array.getElem?_toList, toList_permutation,
    List.getElem?_append_right ((length_realPermutation valid).trans_le padded),
    length_realPermutation valid, (isPermutation_iff.mp valid).2, padding,
    List.getElem?_range' (by omega)]
  congr 1
  omega

/-- A permutation rearranges the real slots. -/
theorem bijOn_realPermutation :
    Set.BijOn (fun index => buffer.realPermutation[index]?.getD 0) (Set.Iio buffer.batchSize)
      (Set.Iio buffer.batchSize) := by
  have perm := (isPermutation_iff.mp valid).1
  have length_eq := length_realPermutation valid
  have target_eq {index : Nat} (real : index < buffer.batchSize) :
      ∃ inside : index < buffer.realPermutation.length,
        buffer.realPermutation[index]?.getD 0 = buffer.realPermutation[index] :=
    ⟨real.trans_eq length_eq.symm, by rw [List.getElem?_eq_getElem, Option.getD_some]⟩
  refine ⟨fun index real => ?_, fun index real other real' same => ?_, fun goal real => ?_⟩
  · obtain ⟨inside, lands⟩ := target_eq real
    exact lands.trans_lt (List.mem_range.mp (perm.mem_iff.mp (List.getElem_mem inside)))
  · obtain ⟨inside, lands⟩ := target_eq real
    obtain ⟨inside', lands'⟩ := target_eq real'
    exact (perm.nodup_iff.mpr List.nodup_range).getElem_inj_iff.mp
      (lands.symm.trans (same.trans lands'))
  · obtain ⟨index, inside, lands⟩ :=
      List.mem_iff_getElem.mp (perm.mem_iff.mpr (List.mem_range.mpr real))
    have real := inside.trans_eq length_eq
    exact ⟨index, real, (target_eq real).2.trans lands⟩

/-- **Where slots land by a permutation.** -/
theorem exists_settles : ∃ target, buffer.Settles target := by
  have real {index : Nat} (inside : index < buffer.batchSize) :
      buffer.permutation[index]?.getD 0 = buffer.realPermutation[index]?.getD 0 :=
    congrArg (·.getD 0) (getElem?_of_lt valid inside)
  have padded {index : Nat} (beyond : buffer.batchSize ≤ index)
      (inside : index < buffer.expandedSize) : buffer.permutation[index]?.getD 0 = index :=
    congrArg (·.getD 0) (getElem?_of_le valid beyond inside)
  refine ⟨fun index => buffer.permutation[index]?.getD 0, fun index inside => ?_,
    (bijOn_realPermutation valid).congr fun index inside => (real inside).symm,
    fun index beyond inside => padded beyond inside⟩
  rw [permutedIndex]
  rcases Nat.lt_or_ge index buffer.batchSize with below | beyond
  · have there : index < buffer.realPermutation.length :=
      below.trans_eq (length_realPermutation valid).symm
    rw [getElem?_of_lt valid below, List.getElem?_eq_getElem there]
    rfl
  · rw [getElem?_of_le valid beyond inside]
    rfl

end Valid

/-! ## Setting and shuffling -/

/-- A list is taken exactly if it is a rearrangement of the real slots; then they go to its entries,
and otherwise nothing is changed. -/
theorem setPermutation_cases (buffer : RoundBuffer) (targets : List Nat) :
    targets.Perm (List.range buffer.batchSize) ∧
        buffer.setPermutation targets =
          (true, { buffer with permutation := (targets ++ buffer.padding).toArray }) ∨
      ¬ targets.Perm (List.range buffer.batchSize) ∧
        buffer.setPermutation targets = (false, buffer) := by
  rw [← isBijection_iff, setPermutation]
  cases isBijection targets buffer.batchSize with
  | true => exact Or.inl ⟨rfl, rfl⟩
  | false => exact Or.inr ⟨Bool.false_ne_true, rfl⟩

/-- The buffer after its real slots have been walked through from the last one down, each swapped
with the next of the chosen positions. -/
def arranged (buffer : RoundBuffer) (chosen : List Nat) : RoundBuffer :=
  let real := Shuffle.arrange (buffer.batchSize - 1) buffer.realPermutation.toArray chosen
  { buffer with
    permutation := (real.toList ++ buffer.permutation.toList.drop buffer.batchSize).toArray }

section Valid

variable (valid : buffer.isPermutation = true)

include valid

/-- **A shuffle is the walk with the positions picked from its tape.** -/
theorem shufflePermutation_eq (tape : Tape) :
    buffer.shufflePermutation tape =
      (buffer.arranged (Shuffle.picks (buffer.batchSize - 1) tape),
        tape.skip (Shuffle.wordsRead (buffer.batchSize - 1) tape)) := by
  have size_eq : buffer.realPermutation.toArray.size = buffer.batchSize :=
    length_realPermutation valid
  have shuffled := Shuffle.shuffle_eq buffer.realPermutation.toArray tape
  rw [size_eq] at shuffled
  rw [realPermutation] at shuffled
  simp only [shufflePermutation, shuffled]
  rfl

/-- A walk makes of the real slots one of their rearrangements. -/
theorem perm_arrange {chosen : List Nat} (within : Shuffle.Within (buffer.batchSize - 1) chosen) :
    (Shuffle.arrange (buffer.batchSize - 1) buffer.realPermutation.toArray chosen).toList.Perm
      (List.range buffer.batchSize) := by
  have inside : buffer.batchSize - 1 ≤ buffer.realPermutation.toArray.size - 1 :=
    (congrArg (· - 1) (length_realPermutation valid)).ge
  exact (Shuffle.arrange_mem inside within).1.toList.trans (isPermutation_iff.mp valid).1

theorem realPermutation_arranged {chosen : List Nat}
    (within : Shuffle.Within (buffer.batchSize - 1) chosen) :
    (buffer.arranged chosen).realPermutation =
      (Shuffle.arrange (buffer.batchSize - 1) buffer.realPermutation.toArray chosen).toList :=
  realPermutation_of_append ((perm_arrange valid within).length_eq.trans List.length_range)

/-- A walk leaves a permutation. -/
theorem isPermutation_arranged {chosen : List Nat}
    (within : Shuffle.Within (buffer.batchSize - 1) chosen) :
    (buffer.arranged chosen).isPermutation = true := by
  rw [arranged, (isPermutation_iff.mp valid).2]
  exact isPermutation_of_append (perm_arrange valid within)

end Valid

/-! ## Whatever is done to a buffer -/

/-- What can be done to a buffer. -/
inductive Write where
  /-- A list is to be the new arrangement of the real slots. -/
  | permutation (targets : List Nat)
  /-- The real slots are shuffled. -/
  | shuffle (tape : Tape)
  /-- All secrets are overwritten. -/
  | erase
  /-- One of the vectors is changed, if the change goes through. -/
  | vector (name : VectorName) (change : GroupArray → Except Fault GroupArray)
  /-- The value shared by all slots is replaced. -/
  | shared (value : Nat)
  /-- The key of the ciphertexts is replaced. -/
  | key (value : Nat)

/-- The buffer after a write. -/
def write (buffer : RoundBuffer) : Write → RoundBuffer
  | .permutation targets => (buffer.setPermutation targets).2
  | .shuffle tape => (buffer.shufflePermutation tape).1
  | .erase => buffer.erase
  | .vector name change =>
    match buffer.modifyVector name change with
    | .ok changed => changed
    | .error _ => buffer
  | .shared value => { buffer with z := value }
  | .key value => { buffer with publicKey := value }

/-- The buffer after a list of writes. -/
def writeAll (buffer : RoundBuffer) (writes : List Write) : RoundBuffer := writes.foldl write buffer

/-- A new buffer moves no slot. -/
theorem isPermutation_create (group : CyclicGroup) (batchSize expandedSize : Nat) :
    (create group batchSize expandedSize).isPermutation = true := by
  have raised : max expandedSize batchSize = batchSize + (max expandedSize batchSize - batchSize) :=
    (Nat.add_sub_of_le (le_max_right _ _)).symm
  have parts : (Array.range (max expandedSize batchSize)).toList =
      List.range batchSize ++ (create group batchSize expandedSize).padding := by
    rw [Array.toList_range, raised, List.range_eq_range', ← List.range'_append_1,
      ← List.range_eq_range', Nat.zero_add]
    rfl
  have unmoved : (List.range batchSize).Perm
      (List.range (create group batchSize expandedSize).batchSize) := .refl _
  have apart := isPermutation_of_append unmoved
  rwa [← parts, Array.toArray_toList] at apart

/-- A change of a vector is none of the sizes or of the permutation. -/
theorem modifyVector_frame {name : VectorName} {change : GroupArray → Except Fault GroupArray}
    {after : RoundBuffer} (changed : buffer.modifyVector name change = .ok after) :
    after.batchSize = buffer.batchSize ∧ after.expandedSize = buffer.expandedSize ∧
      after.permutation = buffer.permutation := by
  obtain ⟨array, -, changed⟩ := Fault.bind_eq_ok.mp changed
  injection changed with same
  subst same
  rw [setVector]
  cases name.family <;> exact ⟨rfl, rfl, rfl⟩

/-- What is kept of a buffer that was created for a batch: its sizes, and that it permutes the real
slots. -/
structure Keeps (buffer : RoundBuffer) (batchSize expandedSize : Nat) : Prop where
  batch_eq : buffer.batchSize = batchSize
  expanded_eq : buffer.expandedSize = expandedSize
  valid : buffer.isPermutation = true

namespace Keeps

variable {batchSize expandedSize : Nat}

/-- A change that is none of the sizes or of the permutation keeps both. -/
theorem of_same {after : RoundBuffer} (keeps : buffer.Keeps batchSize expandedSize)
    (batch_eq : after.batchSize = buffer.batchSize)
    (expanded_eq : after.expandedSize = buffer.expandedSize)
    (permutation_eq : after.permutation = buffer.permutation) :
    after.Keeps batchSize expandedSize := by
  refine ⟨batch_eq.trans keeps.batch_eq, expanded_eq.trans keeps.expanded_eq, ?_⟩
  have valid := keeps.valid
  rw [isPermutation_iff, realPermutation, padding] at valid ⊢
  rwa [permutation_eq, batch_eq, expanded_eq]

/-- **Whatever is done to a buffer leaves it a permutation.** -/
theorem write (keeps : buffer.Keeps batchSize expandedSize) (room : batchSize ≤ expandedSize)
    (write : Write) : (buffer.write write).Keeps batchSize expandedSize := by
  cases write with
  | permutation targets =>
      rcases buffer.setPermutation_cases targets with ⟨perm, taken⟩ | ⟨-, refused⟩
      · rw [RoundBuffer.write, taken]
        exact ⟨keeps.batch_eq, keeps.expanded_eq, isPermutation_of_append perm⟩
      · rw [RoundBuffer.write, refused]
        exact keeps
  | shuffle tape =>
      rw [RoundBuffer.write, shufflePermutation_eq keeps.valid]
      exact ⟨keeps.batch_eq, keeps.expanded_eq,
        isPermutation_arranged keeps.valid (Shuffle.within_picks _ tape)⟩
  | erase =>
      refine ⟨keeps.batch_eq, ?_, isPermutation_create _ _ _⟩
      show max buffer.expandedSize buffer.batchSize = expandedSize
      rw [keeps.batch_eq, keeps.expanded_eq, max_eq_left room]
  | vector name change =>
      rw [RoundBuffer.write]
      split
      case h_1 changed done =>
        obtain ⟨batch_eq, expanded_eq, permutation_eq⟩ := modifyVector_frame done
        exact keeps.of_same batch_eq expanded_eq permutation_eq
      case h_2 => exact keeps
  | shared value => exact keeps.of_same rfl rfl rfl
  | key value => exact keeps.of_same rfl rfl rfl

theorem writeAll (keeps : buffer.Keeps batchSize expandedSize) (room : batchSize ≤ expandedSize)
    (writes : List Write) : (buffer.writeAll writes).Keeps batchSize expandedSize := by
  induction writes generalizing buffer with
  | nil => exact keeps
  | cons write writes ih => exact ih (keeps.write room write)

end Keeps

/-- **The permutation of a round, whatever is done to its buffer.**  In every buffer that has been
created for a batch and then written to in any way, real slots change places among themselves and
padding stays where it is; and a list is taken for the new arrangement exactly if it is a
rearrangement of the real slots, which then go to its entries, while any other list changes
nothing. -/
theorem permutation_kept (group : CyclicGroup) (batchSize expandedSize : Nat)
    (writes : List Write) :
    let buffer := (create group batchSize expandedSize).writeAll writes
    buffer.batchSize = batchSize ∧ buffer.expandedSize = max expandedSize batchSize ∧
      buffer.isPermutation = true ∧ (∃ target, buffer.Settles target) ∧
      ∀ targets, ((buffer.setPermutation targets).1 = true ↔ targets.Perm (List.range batchSize)) ∧
        ((buffer.setPermutation targets).1 = true →
          (buffer.setPermutation targets).2.realPermutation = targets) ∧
        ((buffer.setPermutation targets).1 = false →
          (buffer.setPermutation targets).2 = buffer) := by
  intro buffer
  have room : batchSize ≤ max expandedSize batchSize := le_max_right _ _
  have created : (create group batchSize expandedSize).Keeps batchSize
      (max expandedSize batchSize) :=
    ⟨rfl, rfl, isPermutation_create group batchSize expandedSize⟩
  have keeps : buffer.Keeps batchSize (max expandedSize batchSize) := created.writeAll room writes
  refine ⟨keeps.batch_eq, keeps.expanded_eq, keeps.valid, exists_settles keeps.valid,
    fun targets => ?_⟩
  rw [← keeps.batch_eq]
  rcases buffer.setPermutation_cases targets with ⟨perm, taken⟩ | ⟨strange, refused⟩
  · rw [taken]
    refine ⟨iff_of_true rfl perm, fun _ => ?_, fun impossible => ?_⟩
    · exact realPermutation_of_append (perm.length_eq.trans List.length_range)
    · cases impossible
  · rw [refused]
    refine ⟨iff_of_false Bool.false_ne_true strange, fun impossible => ?_, fun _ => rfl⟩
    cases impossible

/-! ## Every arrangement is equally likely -/

/-- The arrays that a walk can make of the real slots are their rearrangements. -/
theorem bijOn_toList (valid : buffer.isPermutation = true) :
    Set.BijOn Array.toList
      (Shuffle.Rearranged (buffer.batchSize - 1) buffer.realPermutation.toArray)
      {targets | targets.Perm (List.range buffer.batchSize)} := by
  have real := (isPermutation_iff.mp valid).1
  refine ⟨?_, fun _ _ _ _ same => Array.toList_inj.mp same, ?_⟩
  · rintro result ⟨perm, -⟩
    exact perm.toList.trans real
  · intro targets perm
    have same_length : targets.length = buffer.realPermutation.length :=
      (perm.trans real.symm).length_eq
    refine ⟨targets.toArray, ⟨(perm.trans real.symm).toArray, fun position above => ?_⟩, rfl⟩
    -- There is no position above the last one.
    have beyond : buffer.realPermutation.length ≤ position := by
      rw [length_realPermutation valid]
      omega
    rw [List.getElem?_toArray, List.getElem?_toArray, List.getElem?_eq_none beyond,
      List.getElem?_eq_none (same_length.trans_le beyond)]

/-- A walk from the last real slot makes every arrangement of the real slots of exactly one choice
of positions. -/
theorem bijOn_arranged (valid : buffer.isPermutation = true) :
    Set.BijOn (fun chosen => (buffer.arranged chosen).realPermutation)
      {chosen | Shuffle.Within (buffer.batchSize - 1) chosen}
      {targets | targets.Perm (List.range buffer.batchSize)} := by
  have real := (isPermutation_iff.mp valid).1
  have inside : buffer.batchSize - 1 ≤ buffer.realPermutation.toArray.size - 1 :=
    (congrArg (· - 1) (length_realPermutation valid)).ge
  have walks := Shuffle.bijOn_arrange inside (real.nodup_iff.mpr List.nodup_range)
  refine ((bijOn_toList valid).comp walks).congr fun chosen within => ?_
  exact (realPermutation_arranged valid within).symm

/-- A walk leaves padding where it is. -/
theorem permutedIndex_arranged (valid : buffer.isPermutation = true) {chosen : List Nat}
    (within : Shuffle.Within (buffer.batchSize - 1) chosen) {slot : Nat}
    (padding : buffer.batchSize ≤ slot) :
    (buffer.arranged chosen).permutedIndex slot = buffer.permutedIndex slot := by
  have new_length := (perm_arrange valid within).length_eq.trans List.length_range
  have same_size : (buffer.arranged chosen).permutation.size = buffer.permutation.size := by
    rw [← Array.length_toList, ← Array.length_toList, toList_permutation buffer]
    simp only [arranged, List.length_append, new_length, length_realPermutation valid]
  have found : (buffer.arranged chosen).permutation[slot]? = buffer.permutation[slot]? := by
    rw [← Array.getElem?_toList, ← Array.getElem?_toList, toList_permutation buffer,
      arranged, List.getElem?_append_right (by rwa [new_length]), new_length,
      List.getElem?_append_right (by rwa [length_realPermutation valid]),
      length_realPermutation valid]
  rw [permutedIndex, permutedIndex, found, same_size]

/-- The tapes of `length` words that do not end before a shuffle does, and on which it sends the
real slots to the targets. -/
def LeadingTo (buffer : RoundBuffer) (length : Nat) (targets : List Nat) : Set Tape :=
  {tape | tape.bytes.length = 4 * length ∧
    Shuffle.wordsRead (buffer.batchSize - 1) tape ≤ length ∧
    (buffer.shufflePermutation tape).1.realPermutation = targets}

/-- A shuffle leads to an arrangement exactly if it picks the positions that make it. -/
theorem leadingTo_arranged (valid : buffer.isPermutation = true) {chosen : List Nat}
    (within : Shuffle.Within (buffer.batchSize - 1) chosen) (length : Nat) :
    buffer.LeadingTo length (buffer.arranged chosen).realPermutation =
      Shuffle.Ending (buffer.batchSize - 1) length chosen := by
  ext tape
  have picked := Shuffle.within_picks (buffer.batchSize - 1) tape
  have same : (buffer.shufflePermutation tape).1.realPermutation =
        (buffer.arranged chosen).realPermutation ↔
      Shuffle.picks (buffer.batchSize - 1) tape = chosen := by
    rw [shufflePermutation_eq valid]
    exact (bijOn_arranged valid).injOn.eq_iff picked within
  exact and_congr_right fun _ => and_congr_right fun _ => same

/-- **The law of shuffling.**  A shuffle of the real slots is the walk of swaps with the positions
that it picks from its tape, each the result of the first accepted word; on every tape it ends,
since it refuses no more words than have a byte there.  Every result is that of equally many words;
every arrangement of the real slots comes of exactly one choice of positions, while padding stays
where it is; and so equally many tapes lead to each arrangement. -/
theorem shuffle_uniform (valid : buffer.isPermutation = true)
    (sized : buffer.batchSize < Word.limit 32) :
    (∀ tape, buffer.shufflePermutation tape =
        (buffer.arranged (Shuffle.picks (buffer.batchSize - 1) tape),
          tape.skip (Shuffle.wordsRead (buffer.batchSize - 1) tape)) ∧
      Shuffle.Within (buffer.batchSize - 1) (Shuffle.picks (buffer.batchSize - 1) tape) ∧
      Shuffle.wordsRead (buffer.batchSize - 1) tape ≤ buffer.batchSize - 1 + tape.wordCount) ∧
    (∀ bound, 2 ≤ bound → bound < Word.limit 32 →
      Shuffle.zone bound = bound * 2 ^ Shuffle.leadingZeros bound - 1 ∧
      ∀ result < bound, {word | word < Word.limit 32 ∧ Shuffle.Accepts bound word ∧
        Shuffle.scaled bound word = result}.ncard = 2 ^ Shuffle.leadingZeros bound) ∧
    Set.BijOn (fun chosen => (buffer.arranged chosen).realPermutation)
      {chosen | Shuffle.Within (buffer.batchSize - 1) chosen}
      {targets | targets.Perm (List.range buffer.batchSize)} ∧
    (∀ chosen, Shuffle.Within (buffer.batchSize - 1) chosen → ∀ slot, buffer.batchSize ≤ slot →
      (buffer.arranged chosen).permutedIndex slot = buffer.permutedIndex slot) ∧
    ∀ length, ∃ share, (buffer.batchSize - 1 ≤ length → 0 < share) ∧
      ∀ targets, targets.Perm (List.range buffer.batchSize) →
        (buffer.LeadingTo length targets).ncard = share := by
  have room : buffer.batchSize - 1 + 1 < Word.limit 32 := by
    have two : 1 < Word.limit 32 := by decide
    omega
  refine ⟨fun tape => ⟨shufflePermutation_eq valid tape, Shuffle.within_picks _ tape,
    Shuffle.wordsRead_le _ tape⟩, ?_, bijOn_arranged valid, ?_, ?_⟩
  · intro bound above inside
    have positive : 0 < bound := by omega
    exact ⟨Shuffle.zone_eq positive inside, fun _ => Shuffle.ncard_accepted positive inside⟩
  · exact fun chosen within slot padding => permutedIndex_arranged valid within padding
  · intro length
    -- Any choice of positions has the share of all of them.
    have some_choice := Shuffle.within_picks (buffer.batchSize - 1) ⟨[]⟩
    refine ⟨_, Shuffle.ncard_ending_pos room some_choice, fun targets perm => ?_⟩
    obtain ⟨chosen, within, rfl⟩ := (bijOn_arranged valid).surjOn perm
    rw [leadingTo_arranged valid within]
    exact Shuffle.ncard_ending room within some_choice

/-- The law of shuffling three real slots in front of a padding slot. -/
theorem shuffle_uniform_three :
    (create ⟨7, 2⟩ 3 4).isPermutation = true ∧ (create ⟨7, 2⟩ 3 4).batchSize < Word.limit 32 ∧
      ∃ share, 0 < share ∧ ∀ targets, targets.Perm (List.range 3) →
        ((create ⟨7, 2⟩ 3 4).LeadingTo 2 targets).ncard = share := by
  have valid := isPermutation_create ⟨7, 2⟩ 3 4
  have sized : (create ⟨7, 2⟩ 3 4).batchSize < Word.limit 32 := by decide
  obtain ⟨-, -, -, -, shares⟩ := shuffle_uniform valid sized
  obtain ⟨share, positive, equal⟩ := shares 2
  exact ⟨valid, sized, share, positive le_rfl, equal⟩

end Mixnet.RoundBuffer
