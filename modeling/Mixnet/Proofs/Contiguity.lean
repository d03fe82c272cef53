import Mixnet.Proofs.Routing

/-!
# The slots of one event

The slots that a peer sends in one event are to follow one another inside the batch.  The check
looks at the steps from each index to the next and at the last index alone, and behind it nobody
asks again where the slots lie.  This file shows that the check is worth a look at every index: an
event that passes covers exactly a range of the batch, and one that does not is refused for what is
wrong with it.  It also carries the check out in machine words, and shows that no sum on the way
leaves its word.

## Main definitions

* `Consecutive`: slots whose indices follow one another
* `Ranges`: the answers of the check, and what each of them is for
* `ascendsInWords`, `slotRangeInWords`: the check with every sum in a word

## Main statements

* `forall_index_lt_iff`: the last index speaks for all
* `slotRange_ranges`: the check gives the answer that is for its slots
* `slotRangeInWords_eq`: no sum leaves its word
* `slotRange_exact`: the law of the check, for any slots and any batch

## Design notes

An index is compared before the next one is due.  So what is due is at most one past the 32-bit
words, and a list may be longer than all the words there are.
-/

namespace Mixnet

variable {slots : List Slot} {first batchSize : Nat}

/-! ## Indices that follow one another -/

/-- Slots with the indices `first`, `first + 1`, `first + 2` and so on, in the order of the list. -/
def Consecutive (slots : List Slot) : Prop :=
  ∃ first, ∀ place (inside : place < slots.length), slots[place].index = first + place

theorem ascendsFrom_iff : ascendsFrom first slots = true ↔
    ∀ place (inside : place < slots.length), slots[place].index = first + place := by
  induction slots generalizing first with
  | nil => simp [ascendsFrom]
  | cons slot rest ih =>
      rw [ascendsFrom, Bool.and_eq_true, decide_eq_true_eq, ih]
      constructor
      · rintro ⟨here, later⟩ place inside
        cases place with
        | zero => exact here
        | succ place =>
            rw [List.getElem_cons_succ, later place (Nat.lt_of_succ_lt_succ inside)]
            omega
      · intro each
        refine ⟨each 0 (Nat.zero_lt_succ _), fun place inside => ?_⟩
        have next := each (place + 1) (Nat.succ_lt_succ inside)
        rw [List.getElem_cons_succ] at next
        omega

/-- Where indices follow one another, the first slot tells from where. -/
theorem consecutive_cons {slot : Slot} {rest : List Slot} :
    Consecutive (slot :: rest) ↔ ascendsFrom slot.index (slot :: rest) = true := by
  rw [ascendsFrom_iff]
  constructor
  · rintro ⟨first, each⟩
    have begins : slot.index = first := each 0 (Nat.zero_lt_succ _)
    exact begins ▸ each
  · exact fun each => ⟨_, each⟩

instance : DecidablePred Consecutive
  | [] => .isTrue ⟨0, fun _ inside => absurd inside (Nat.not_lt_zero _)⟩
  | _ :: _ => decidable_of_iff _ consecutive_cons.symm

section Ascending

variable (each : ∀ place (inside : place < slots.length), slots[place].index = first + place)

include each

theorem map_index_eq : slots.map Slot.index = List.range' first slots.length := by
  refine List.ext_getElem (by simp) fun place inside _ => ?_
  rw [List.length_map] at inside
  simp [each place inside]

theorem index_getLast (nonempty : slots ≠ []) :
    (slots.getLast nonempty).index = first + (slots.length - 1) := by
  rw [List.getLast_eq_getElem]
  exact each _ _

/-- **The last index speaks for all**: no other one is greater. -/
theorem forall_index_lt_iff (nonempty : slots ≠ []) :
    (∀ slot ∈ slots, slot.index < batchSize) ↔ (slots.getLast nonempty).index < batchSize := by
  refine ⟨fun below => below _ (List.getLast_mem nonempty), fun below slot member => ?_⟩
  obtain ⟨place, inside, rfl⟩ := List.mem_iff_getElem.mp member
  rw [index_getLast each] at below
  rw [each place inside]
  omega

end Ascending

/-! ## What the check answers -/

/-- The answers of the check, each with the slots that it is for. -/
inductive Ranges (slots : List Slot) (batchSize : Nat) : Except (Failure RoundError) Chunk → Prop
  /-- There are no slots, or they do not follow one another. -/
  | broken (gap : slots ≠ [] → ¬ Consecutive slots) :
      Ranges slots batchSize (.error (.error .nonContiguousSlots))
  /-- The slots follow one another out of the batch. -/
  | beyond (nonempty : slots ≠ []) (consecutive : Consecutive slots)
      (outside : ∃ slot ∈ slots, batchSize ≤ slot.index) :
      Ranges slots batchSize
        (.error (.error (.stream (.indexOutOfRange (slots.getLast nonempty).index batchSize))))
  /-- The slots follow one another up to the last word, inside a batch that is no word. -/
  | endless (nonempty : slots ≠ []) (consecutive : Consecutive slots)
      (inside : ∀ slot ∈ slots, slot.index < batchSize) (wide : Word.limit 32 ≤ batchSize) :
      Ranges slots batchSize (.error (.fault .sumOverflow))
  /-- The slots follow one another inside the batch, and the chunk covers what they cover. -/
  | within {chunk : Chunk} (nonempty : slots ≠ []) (consecutive : Consecutive slots)
      (inside : ∀ slot ∈ slots, slot.index < batchSize)
      (covers : chunk.slots = slots.map Slot.index) :
      Ranges slots batchSize (.ok chunk)

/-- **The check gives the answer that is for its slots**, whatever they are. -/
theorem slotRange_ranges (slots : List Slot) (batchSize : Nat) :
    Ranges slots batchSize (slotRange slots batchSize) := by
  cases slots with
  | nil => exact .broken fun nonempty => absurd rfl nonempty
  | cons slot rest =>
      rw [slotRange]
      split
      case isFalse gap =>
        exact .broken fun _ consecutive => gap (consecutive_cons.mp consecutive)
      case isTrue ascends =>
        have consecutive := consecutive_cons.mpr ascends
        have each := ascendsFrom_iff.mp ascends
        have nonempty : slot :: rest ≠ [] := List.cons_ne_nil _ _
        have last_eq := index_getLast each nonempty
        dsimp only
        -- The index at which the count ends is that of the last slot.
        rw [← last_eq]
        split
        case isFalse past =>
          refine .beyond nonempty consecutive ?_
          exact ⟨_, List.getLast_mem nonempty, Nat.not_lt.mp past⟩
        case isTrue below =>
          have inside := (forall_index_lt_iff each nonempty).mpr below
          by_cases fits : (List.getLast _ nonempty).index + 1 < Word.limit 32
          · have ordered : slot.index ≤ (List.getLast _ nonempty).index + 1 := by omega
            have length_eq : (List.getLast _ nonempty).index + 1 - slot.index =
                (slot :: rest).length := by
              rw [last_eq, List.length_cons]
              omega
            rw [Chunk.ofBounds_eq_ok ordered fits]
            refine .within nonempty consecutive inside ?_
            rw [map_index_eq each, Chunk.slots, Chunk.length, length_eq]
          · rw [Chunk.ofBounds, dif_neg fits]
            exact .endless nonempty consecutive inside (by omega)

namespace Ranges

variable {answer : Except (Failure RoundError) Chunk} (ranges : Ranges slots batchSize answer)

include ranges

theorem accepts_iff (word : batchSize < Word.limit 32) : (∃ chunk, answer = .ok chunk) ↔
    slots ≠ [] ∧ Consecutive slots ∧ ∀ slot ∈ slots, slot.index < batchSize := by
  cases ranges with
  | broken gap =>
      refine ⟨fun ⟨_, accepted⟩ => (nomatch accepted), fun ⟨nonempty, consecutive, _⟩ => ?_⟩
      exact absurd consecutive (gap nonempty)
  | beyond nonempty consecutive outside =>
      refine ⟨fun ⟨_, accepted⟩ => (nomatch accepted), fun ⟨_, _, inside⟩ => ?_⟩
      obtain ⟨slot, member, past⟩ := outside
      exact absurd (inside slot member) (Nat.not_lt.mpr past)
  | endless _ _ _ wide => exact absurd word (Nat.not_lt.mpr wide)
  | within nonempty consecutive inside =>
      exact ⟨fun _ => ⟨nonempty, consecutive, inside⟩, fun _ => ⟨_, rfl⟩⟩

theorem slots_eq {chunk : Chunk} (accepted : answer = .ok chunk) :
    chunk.slots = slots.map Slot.index := by
  cases ranges with
  | broken | beyond | endless => cases accepted
  | within _ _ _ covers =>
      obtain rfl := Except.ok.inj accepted
      exact covers

theorem gapped_iff : answer = .error (.error .nonContiguousSlots) ↔
    slots = [] ∨ ¬ Consecutive slots := by
  rw [or_iff_not_imp_left]
  cases ranges with
  | broken gap => exact ⟨fun _ => gap, fun _ => rfl⟩
  | beyond nonempty consecutive | endless nonempty consecutive | within nonempty consecutive =>
      exact ⟨fun refused => (nomatch refused), fun gap => absurd consecutive (gap nonempty)⟩

theorem outside_iff {index size : Nat} :
    answer = .error (.error (.stream (.indexOutOfRange index size))) ↔
      Consecutive slots ∧ (∃ slot ∈ slots, batchSize ≤ slot.index) ∧
        slots.getLast?.map Slot.index = some index ∧ size = batchSize := by
  cases ranges with
  | broken gap =>
      refine ⟨fun refused => (nomatch refused), fun ⟨consecutive, ⟨slot, member, _⟩, _⟩ => ?_⟩
      exact absurd consecutive (gap (List.ne_nil_of_mem member))
  | beyond nonempty consecutive outside =>
      rw [List.getLast?_eq_some_getLast nonempty]
      constructor
      · rintro ⟨⟩
        exact ⟨consecutive, outside, rfl, rfl⟩
      · rintro ⟨-, -, ⟨⟩, rfl⟩
        rfl
  | endless _ _ inside | within _ _ inside =>
      refine ⟨fun refused => (nomatch refused), fun ⟨_, ⟨slot, member, past⟩, _⟩ => ?_⟩
      exact absurd (inside slot member) (Nat.not_lt.mpr past)

theorem ne_fault (word : batchSize < Word.limit 32) (fault : Fault) :
    answer ≠ .error (.fault fault) := by
  cases ranges with
  | broken | beyond | within => exact fun faulted => nomatch faulted
  | endless _ _ _ wide => exact absurd word (Nat.not_lt.mpr wide)

end Ranges

/-! ## The check in machine words -/

/-- Whether the indices ascend one by one, from a place of the list on.  Places are counted, and
what is due at each of them is summed, in 64-bit words. -/
def ascendsInWords (first : Nat) : Nat → List Slot → Except Fault Bool
  | _, [] => return true
  | place, slot :: rest => do
    let due ← Word.sum 64 first place
    let next ← Word.sum 64 place 1
    if slot.index = due then ascendsInWords first next rest else return false

/-- The check, with every sum in a word. -/
def slotRangeInWords (slots : List Slot) (batchSize : Nat) : Except (Failure RoundError) Chunk :=
  match slots.head?, slots.getLast? with
  | some first, some last => do
    if ← (ascendsInWords first.index 0 slots).mapError .fault then
      if last.index < batchSize then
        let stop ← (Word.sum 32 last.index 1).mapError .fault
        (Chunk.ofBounds first.index stop).mapError .fault
      else throw (.error (.stream (.indexOutOfRange last.index batchSize)))
    else throw (.error .nonContiguousSlots)
  | _, _ => throw (.error .nonContiguousSlots)

/-- What is due is no more than one past the words that indices are. -/
theorem ascendsInWords_eq {place : Nat} (words : ∀ slot ∈ slots, slot.index < Word.limit 32)
    (due_le : first + place ≤ Word.limit 32) :
    ascendsInWords first place slots = .ok (ascendsFrom (first + place) slots) := by
  induction slots generalizing place with
  | nil => rfl
  | cons slot rest ih =>
      obtain ⟨word, rest_words⟩ := List.forall_mem_cons.mp words
      have room : Word.limit 32 + 1 < Word.limit 64 := by decide
      rw [ascendsInWords, Word.sum_eq_ok (by omega), Fault.ok_bind, Word.sum_eq_ok (by omega),
        Fault.ok_bind, ascendsFrom]
      split
      case isTrue here =>
        -- The slot is a word and has the index that was due, so the next one due has room.
        rw [ih rest_words (by omega), here]
        simp [Nat.add_assoc]
      case isFalse elsewhere => simp [elsewhere, pure, Except.pure]

/-- **No sum of the check leaves its word**, however long the list. -/
theorem slotRangeInWords_eq (words : ∀ slot ∈ slots, slot.index < Word.limit 32)
    (word : batchSize < Word.limit 32) :
    slotRangeInWords slots batchSize = slotRange slots batchSize := by
  cases slots with
  | nil => rfl
  | cons slot rest =>
      have nonempty : slot :: rest ≠ [] := List.cons_ne_nil _ _
      have begins_le : slot.index + 0 ≤ Word.limit 32 :=
        Nat.le_of_lt (words slot List.mem_cons_self)
      rw [slotRangeInWords, List.head?_cons, List.getLast?_eq_some_getLast nonempty, slotRange]
      dsimp only
      rw [ascendsInWords_eq words begins_le, Nat.add_zero, Except.mapError, Fault.ok_bind]
      split
      case isFalse => rfl
      case isTrue ascends =>
        rw [← index_getLast (ascendsFrom_iff.mp ascends) nonempty]
        split
        case isFalse => rfl
        case isTrue below =>
          rw [Word.sum_eq_ok (by omega), Except.mapError, Fault.ok_bind]

/-! ## The law of the check -/

/-- What the check makes of the slots of an event. -/
structure Delimits (slots : List Slot) (batchSize : Nat) : Prop where
  /-- It accepts slots that follow one another inside the batch, and no others. -/
  accepted : (∃ chunk, slotRange slots batchSize = .ok chunk) ↔
    slots ≠ [] ∧ Consecutive slots ∧ ∀ slot ∈ slots, slot.index < batchSize
  /-- The chunk enumerates the indices of the slots, in their order. -/
  enumerated : ∀ chunk, slotRange slots batchSize = .ok chunk →
    chunk.slots = slots.map Slot.index
  /-- It finds the slots broken exactly where there are none, or some do not follow one another. -/
  gapped : slotRange slots batchSize = .error (.error .nonContiguousSlots) ↔
    slots = [] ∨ ¬ Consecutive slots
  /-- It names an index exactly where slots follow one another out of the batch: the last one. -/
  outside : ∀ index size,
    slotRange slots batchSize = .error (.error (.stream (.indexOutOfRange index size))) ↔
      Consecutive slots ∧ (∃ slot ∈ slots, batchSize ≤ slot.index) ∧
        slots.getLast?.map Slot.index = some index ∧ size = batchSize
  /-- No sum leaves its word. -/
  in_words : slotRangeInWords slots batchSize = slotRange slots batchSize
  /-- Nor does the check end in any other fault. -/
  sound : ∀ fault, slotRangeInWords slots batchSize ≠ .error (.fault fault)

/-- **An event covers the chunk between its first slot and its last, exactly if its slots follow one
another inside the batch**; else it is refused for what is wrong with it.  The indices and the batch
size are any words, the greatest included, and there may be more slots than there are words. -/
theorem slotRange_exact (words : ∀ slot ∈ slots, slot.index < Word.limit 32)
    (word : batchSize < Word.limit 32) : Delimits slots batchSize := by
  have in_words := slotRangeInWords_eq words word
  have ranges := slotRange_ranges slots batchSize
  exact {
    accepted := ranges.accepts_iff word
    enumerated := fun _ => ranges.slots_eq
    gapped := ranges.gapped_iff
    outside := fun _ _ => ranges.outside_iff
    in_words
    sound := fun fault => in_words ▸ ranges.ne_fault word fault }

/-- Two slots at the end of the greatest batch. -/
theorem slotRange_exact_sample :
    let slots : List Slot := [⟨4294967293, [], []⟩, ⟨4294967294, [], []⟩]
    ((∀ slot ∈ slots, slot.index < Word.limit 32) ∧ 4294967295 < Word.limit 32) ∧
      Delimits slots 4294967295 ∧
      ∃ chunk, slotRange slots 4294967295 = .ok chunk ∧
        chunk.slots = [4294967293, 4294967294] := by
  intro slots
  have words : ∀ slot ∈ slots, slot.index < Word.limit 32 := by decide
  have word : 4294967295 < Word.limit 32 := by decide
  have law : Delimits slots 4294967295 := slotRange_exact words word
  obtain ⟨chunk, accepted⟩ := law.accepted.mpr (by decide)
  exact ⟨⟨words, word⟩, law, chunk, accepted, law.enumerated chunk accepted⟩

/-- The index after the greatest word is not zero. -/
example : slotRange [⟨4294967295, [], []⟩, ⟨0, [], []⟩] 8 =
    .error (.error .nonContiguousSlots) := rfl

end Mixnet
