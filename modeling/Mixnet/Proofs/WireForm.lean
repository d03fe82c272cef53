import Mixnet.Proofs.BigEndian
import Mixnet.Stream

/-!
# Slots on the wire

A slot travels as two payloads, each a group element in the width of the group's prime.  A stream
takes exactly the slots of that form, gives back the bytes it was given, and what it gives out is
taken by every stream of its group.

## Main definitions

* `CyclicGroup.IsForm`: the byte strings that are the wire form of an element
* `LinkedPayloads.Sized`: cells of which there are as many as slots
* `LinkedPayloads.store`: taking a slot in place, one step after the other
* `PayloadStream.Linked`: a stream that has been linked, whatever has been written to it since

## Main statements

* `CyclicGroup.encode_toNat`, `CyclicGroup.isForm_encode`: the two directions invert each other
* `LinkedPayloads.run_store`: a slot that is refused has changed nothing, also in place
* `PayloadStream.slot_codec`: the law of slots that go in and come out
-/

namespace Mixnet

/-! ## Elements -/

namespace CyclicGroup

variable {group : CyclicGroup} {bytes : List UInt8} {value : Nat}

/-- The wire form of an element: as many bytes as the prime has, for a number in `[1, prime)`. -/
structure IsForm (group : CyclicGroup) (bytes : List UInt8) : Prop where
  length_eq : bytes.length = group.byteLength
  one_le : 1 ≤ Bytes.toNat bytes
  lt_prime : Bytes.toNat bytes < group.prime

theorem contains_iff : group.contains value = true ↔ 1 ≤ value ∧ value < group.prime := by
  simp [contains, Nat.one_le_iff_ne_zero, Nat.pos_iff_ne_zero]

theorem byteLength_pos (group : CyclicGroup) : 0 < group.byteLength :=
  Bytes.length_ofNat_pos group.prime

/-- The width of the prime holds every element. -/
theorem lt_of_contains (inside : group.contains value = true) : value < 256 ^ group.byteLength := by
  have prime_lt := Bytes.toNat_lt (Bytes.ofNat group.prime)
  rw [Bytes.toNat_ofNat] at prime_lt
  exact (contains_iff.mp inside).2.trans prime_lt

theorem encode_eq_padded (group : CyclicGroup) (value : Nat) :
    group.encode value = Bytes.padded group.byteLength value := rfl

/-- A string of the width of the prime is the form of the number it stands for. -/
theorem encode_toNat (width : bytes.length = group.byteLength) :
    group.encode (Bytes.toNat bytes) = bytes := by
  rw [encode_eq_padded, ← width, Bytes.padded_toNat]
  rw [width]
  exact group.byteLength_pos

theorem toNat_encode (group : CyclicGroup) (value : Nat) :
    Bytes.toNat (group.encode value) = value :=
  Bytes.toNat_padded _ _

/-- What an element is written as is a wire form. -/
theorem isForm_encode (inside : group.contains value = true) :
    group.IsForm (group.encode value) where
  length_eq := Bytes.length_padded group.byteLength_pos (lt_of_contains inside)
  one_le := by
    rw [toNat_encode]
    exact (contains_iff.mp inside).1
  lt_prime := by
    rw [toNat_encode]
    exact (contains_iff.mp inside).2

/-- A string is decoded to the number it stands for, if that is an element. -/
theorem decode?_eq_ok_iff :
    group.decode? bytes = .ok value ↔
      Bytes.toNat bytes = value ∧ 1 ≤ Bytes.toNat bytes ∧ Bytes.toNat bytes < group.prime := by
  rw [← contains_iff, decode?]
  by_cases inside : group.contains (Bytes.toNat bytes) = true
  · simp [inside]
  · simp [inside]

end CyclicGroup

/-! ## Cells -/

namespace GroupArray

variable {array : GroupArray} {index value : Nat}

theorem get_of_lt (inside : index < array.size) :
    array.get index = .ok (array.valueAt index) := by
  rw [size] at inside
  simp [get, valueAt, inside]

theorem size_put : (array.put index value).size = array.size :=
  Array.size_setIfInBounds

theorem valueAt_put_of_ne {other : Nat} (apart : index ≠ other) :
    (array.put index value).valueAt other = array.valueAt other := by
  rw [valueAt, valueAt, put, Array.getD_eq_getD_getElem?, Array.getD_eq_getD_getElem?,
    Array.getElem?_setIfInBounds_ne apart]

theorem valueAt_put_self (inside : index < array.size) :
    (array.put index value).valueAt index = value := by
  rw [size] at inside
  simp [valueAt, put, inside]

theorem size_filled (length value : Nat) : (filled length value).size = length :=
  Array.size_replicate

end GroupArray

namespace LinkedPayloads

variable {cells after : LinkedPayloads} {index : Nat} {slot : Slot}

/-- There are as many cells on each side as there are slots. -/
def Sized (cells : LinkedPayloads) : Prop := ∀ side, (cells.array side).size = cells.size

/-- A stream that has just been linked has a cell on each side for each of its slots. -/
theorem sized_identities (group : CyclicGroup) (size : Nat) : (identities group size).Sized := by
  intro side
  cases side with
  | a => exact GroupArray.size_filled size _
  | b => exact GroupArray.size_filled size _

/-- Another array of the same length keeps the number of cells. -/
theorem Sized.setArray (sized : cells.Sized) (side : PayloadSide) {array : GroupArray}
    (size_eq : array.size = cells.size) : (cells.setArray side array).Sized := by
  intro other
  cases side <;> cases other
  · exact size_eq
  · exact sized .b
  · exact sized .a
  · exact size_eq

/-- A write of a kernel keeps the number of cells. -/
theorem Sized.write (sized : cells.Sized) (side : PayloadSide) (index value : Nat) :
    (cells.setArray side ((cells.array side).put index value)).Sized :=
  sized.setArray side (GroupArray.size_put.trans (sized side))

/-- **Which slots are taken, and what they leave.** -/
theorem input_eq_ok_iff :
    cells.input index slot = .ok after ↔
      index < cells.size ∧ cells.group.IsForm slot.payloadA ∧ cells.group.IsForm slot.payloadB ∧
        after = { cells with
          payloadA := cells.payloadA.put index (Bytes.toNat slot.payloadA)
          payloadB := cells.payloadB.put index (Bytes.toNat slot.payloadB) } := by
  have index_ok : cells.checkIndex index = .ok () ↔ index < cells.size := by
    simp [checkIndex]
  have width_ok (label : String) (payload : List UInt8) :
      cells.checkWidth label payload = .ok () ↔ payload.length = cells.group.byteLength := by
    simp [checkWidth]
  unfold input
  simp only [Fault.bind_eq_ok, exists_const, index_ok, width_ok, CyclicGroup.decode?_eq_ok_iff]
  constructor
  · rintro ⟨inside, wide, wide', first, ⟨rfl, low, high⟩, second, ⟨rfl, low', high'⟩, stored⟩
    injection stored with same
    exact ⟨inside, ⟨wide, low, high⟩, ⟨wide', low', high'⟩, same.symm⟩
  · rintro ⟨inside, ⟨wide, low, high⟩, ⟨wide', low', high'⟩, rfl⟩
    exact ⟨inside, wide, wide', _, ⟨rfl, low, high⟩, _, ⟨rfl, low', high'⟩, rfl⟩

/-- A slot that is taken keeps the number of cells. -/
theorem Sized.input (sized : cells.Sized) (taken : cells.input index slot = .ok after) :
    after.Sized := by
  obtain ⟨-, -, -, rfl⟩ := input_eq_ok_iff.mp taken
  exact (sized.write .a index _).write .b index _

/-- Taking a slot in place: each step finds the cells as the steps before it have left them, and a
step that is refused leaves them as they are then. -/
def store (index : Nat) (slot : Slot) : EStateM StreamError LinkedPayloads Unit := do
  let cells ← get
  MonadExcept.ofExcept (cells.checkIndex index)
  MonadExcept.ofExcept (cells.checkWidth "payload A" slot.payloadA)
  MonadExcept.ofExcept (cells.checkWidth "payload B" slot.payloadB)
  let first ← MonadExcept.ofExcept (cells.group.decode? slot.payloadA)
  let second ← MonadExcept.ofExcept (cells.group.decode? slot.payloadB)
  modify fun cells => cells.setArray .a (cells.payloadA.put index first)
  modify fun cells => cells.setArray .b (cells.payloadB.put index second)

/-- What is left in place of an operation that answers other cells or an error: the other cells, or
those there were. -/
def left (cells : LinkedPayloads) :
    Except StreamError LinkedPayloads → EStateM.Result StreamError LinkedPayloads Unit
  | .ok after => .ok () after
  | .error error => .error error cells

/-- A step in place that can be refused, followed by steps that leave what `rest` says. -/
theorem run_ofExcept_bind {α : Type} {outcome : Except StreamError α}
    {next : α → EStateM StreamError LinkedPayloads Unit}
    {rest : α → Except StreamError LinkedPayloads}
    (follows : ∀ value, (next value).run cells = cells.left (rest value)) :
    (MonadExcept.ofExcept outcome >>= next).run cells = cells.left (outcome >>= rest) := by
  cases outcome with
  | error error => rfl
  | ok value => exact follows value

/-- **A slot that is refused in place has changed nothing**, and one that is taken has changed what
`input` says. -/
theorem run_store (cells : LinkedPayloads) (index : Nat) (slot : Slot) :
    (store index slot).run cells = cells.left (cells.input index slot) := by
  -- The steps in place are those of `input`, one by one; the two writes come last.
  refine run_ofExcept_bind fun _ => ?_
  refine run_ofExcept_bind fun _ => ?_
  refine run_ofExcept_bind fun _ => ?_
  refine run_ofExcept_bind fun first => ?_
  exact run_ofExcept_bind fun second => rfl

theorem output_eq_ok (inside : index < cells.size) :
    cells.output index = .ok {
      index
      payloadA := cells.group.encode (cells.payloadA.valueAt index)
      payloadB := cells.group.encode (cells.payloadB.valueAt index) } := by
  rw [output, checkIndex, if_pos inside]
  rfl

/-- **What went in comes out.** -/
theorem Sized.output_of_input (sized : cells.Sized) (taken : cells.input index slot = .ok after) :
    after.output index = .ok { slot with index } := by
  obtain ⟨inside, formA, formB, rfl⟩ := input_eq_ok_iff.mp taken
  have insideA : index < cells.payloadA.size := inside.trans_eq (sized .a).symm
  have insideB : index < cells.payloadB.size := inside.trans_eq (sized .b).symm
  rw [output_eq_ok (by exact inside)]
  simp only [GroupArray.valueAt_put_self insideA, GroupArray.valueAt_put_self insideB,
    CyclicGroup.encode_toNat formA.length_eq, CyclicGroup.encode_toNat formB.length_eq]

/-- **What comes out goes in**, at any place of any cells of the same group. -/
theorem Sized.input_of_output {other : LinkedPayloads} {place : Nat} (sized : other.Sized)
    (same_group : other.group = cells.group) (there : place < other.size)
    (inside : ∀ side, cells.group.contains ((cells.array side).valueAt index) = true)
    (given : cells.output index = .ok slot) :
    ∃ after, other.input place slot = .ok after ∧
      ∀ side, (after.array side).valueAt place = (cells.array side).valueAt index := by
  obtain ⟨_, -, given⟩ := Fault.bind_eq_ok.mp given
  injection given with same
  subst same
  have formA := CyclicGroup.isForm_encode (inside .a)
  have formB := CyclicGroup.isForm_encode (inside .b)
  refine ⟨_, input_eq_ok_iff.mpr ⟨there, same_group ▸ formA, same_group ▸ formB, rfl⟩,
    fun side => ?_⟩
  cases side with
  | a =>
      exact (GroupArray.valueAt_put_self (there.trans_eq (sized .a).symm)).trans
        (CyclicGroup.toNat_encode _ _)
  | b =>
      exact (GroupArray.valueAt_put_self (there.trans_eq (sized .b).symm)).trans
        (CyclicGroup.toNat_encode _ _)

end LinkedPayloads

/-! ## Streams -/

namespace PayloadStream

variable {stream after : PayloadStream} {cells : LinkedPayloads} {index : Nat} {slot : Slot}

/-- Linking gives a stream its cells: those of a group, as many as there are slots. -/
theorem sized_of_link {size : Nat} {buffer : RoundBuffer}
    (linked : stream.link size buffer = .ok after) :
    ∃ cells, after.cells = some cells ∧ cells.Sized ∧ cells.size = size ∧
      cells.group = buffer.group := by
  obtain ⟨-, linked⟩ := Invariant.require_bind_eq_ok.mp linked
  injection linked with same
  subst same
  exact ⟨_, rfl, LinkedPayloads.sized_identities _ _, rfl, rfl⟩

/-- A stream with cells does with a slot what its cells do. -/
theorem input_of_linked (linked : stream.cells = some cells) :
    stream.input index slot = (cells.input index slot).map fun next => ⟨some next⟩ := by
  rw [input, PayloadStream.linked, linked]
  rfl

theorem output_of_linked (linked : stream.cells = some cells) :
    stream.output index = cells.output index := by
  rw [output, PayloadStream.linked, linked]
  rfl

theorem input_eq_ok_iff (linked : stream.cells = some cells) :
    stream.input index slot = .ok after ↔
      ∃ next, cells.input index slot = .ok next ∧ after = ⟨some next⟩ := by
  rw [input_of_linked linked]
  cases cells.input index slot <;> simp [Except.map, eq_comm]

/-- A stream that has been linked.  Slots may have been taken in since, and kernels may have written
to its cells. -/
inductive Linked : PayloadStream → Prop
  /-- It has just been linked. -/
  | link {before after : PayloadStream} {size : Nat} {buffer : RoundBuffer}
      (done : before.link size buffer = .ok after) : Linked after
  /-- A slot has been taken in. -/
  | input {before after : PayloadStream} {index : Nat} {slot : Slot} (linked : Linked before)
      (taken : before.input index slot = .ok after) : Linked after
  /-- A kernel has written a cell. -/
  | write {cells : LinkedPayloads} (linked : Linked ⟨some cells⟩) (side : PayloadSide)
      (index value : Nat) :
      Linked ⟨some (cells.setArray side ((cells.array side).put index value))⟩

/-- **A linked stream has a cell on each side for each of its slots.** -/
theorem Linked.sized (linked : stream.Linked) :
    ∃ cells, stream.cells = some cells ∧ cells.Sized := by
  induction linked with
  | link done =>
      obtain ⟨cells, cells_eq, sized, -⟩ := sized_of_link done
      exact ⟨cells, cells_eq, sized⟩
  | input linked taken ih =>
      obtain ⟨cells, cells_eq, sized⟩ := ih
      obtain ⟨next, entered, rfl⟩ := (input_eq_ok_iff cells_eq).mp taken
      exact ⟨next, rfl, sized.input entered⟩
  | write linked side index value ih =>
      obtain ⟨cells, cells_eq, sized⟩ := ih
      injection cells_eq with same
      subst same
      exact ⟨_, rfl, sized.write side index value⟩

/-- **The law of slots that go in and come out**, for every stream that has been linked.  A slot is
taken exactly if there is a place for it and both payloads are wire forms.  One that is taken
changes the two cells at its place alone, and comes out again as it went in; one that is refused has
changed no cell, also where it is taken in place.  And where both cells of a place are elements,
what comes out is two wire forms, which every linked stream of the same group takes at every place
it has, and from which it gets the same two elements. -/
theorem slot_codec (linked : stream.Linked) : ∃ cells, stream.cells = some cells ∧
    (∀ index slot, (∃ after, stream.input index slot = .ok after) ↔
      index < cells.size ∧ cells.group.IsForm slot.payloadA ∧ cells.group.IsForm slot.payloadB) ∧
    (∀ index slot after, stream.input index slot = .ok after → ∃ next,
      after.cells = some next ∧ after.Linked ∧ next.group = cells.group ∧ next.size = cells.size ∧
      (∀ side other, index ≠ other →
        (next.array side).valueAt other = (cells.array side).valueAt other) ∧
      after.output index = .ok { slot with index } ∧
      (LinkedPayloads.store index slot).run cells = .ok () next) ∧
    (∀ index slot error, stream.input index slot = .error error →
      (LinkedPayloads.store index slot).run cells = .error error cells) ∧
    ∀ index < cells.size,
      (∀ side, cells.group.contains ((cells.array side).valueAt index) = true) →
      ∃ slot, stream.output index = .ok slot ∧ slot.index = index ∧
        cells.group.IsForm slot.payloadA ∧ cells.group.IsForm slot.payloadB ∧
        ∀ (other : PayloadStream) (others : LinkedPayloads), other.Linked →
          other.cells = some others → others.group = cells.group → ∀ place < others.size,
          ∃ after next, other.input place slot = .ok after ∧ after.cells = some next ∧
            ∀ side, (next.array side).valueAt place = (cells.array side).valueAt index := by
  obtain ⟨cells, cells_eq, sized⟩ := linked.sized
  refine ⟨cells, cells_eq, fun index slot => ?_, fun index slot after taken => ?_,
    fun index slot error refused => ?_, fun index inside elements => ?_⟩
  · simp only [input_eq_ok_iff cells_eq, LinkedPayloads.input_eq_ok_iff]
    constructor
    · rintro ⟨-, -, ⟨inside, formA, formB, -⟩, -⟩
      exact ⟨inside, formA, formB⟩
    · rintro ⟨inside, formA, formB⟩
      exact ⟨_, _, ⟨inside, formA, formB, rfl⟩, rfl⟩
  · have after_linked : after.Linked := .input linked taken
    obtain ⟨next, entered, rfl⟩ := (input_eq_ok_iff cells_eq).mp taken
    have in_place := cells.run_store index slot
    rw [entered] at in_place
    have given := (output_of_linked rfl).trans (sized.output_of_input entered)
    refine ⟨next, rfl, after_linked, ?_⟩
    obtain ⟨-, -, -, rfl⟩ := LinkedPayloads.input_eq_ok_iff.mp entered
    refine ⟨rfl, rfl, fun side other apart => ?_, given, in_place⟩
    cases side with
    | a => exact GroupArray.valueAt_put_of_ne apart
    | b => exact GroupArray.valueAt_put_of_ne apart
  · rw [cells.run_store index slot]
    rw [input_of_linked cells_eq] at refused
    cases taken : cells.input index slot with
    | error cause =>
        rw [taken] at refused
        injection refused with same
        rw [same]
        rfl
    | ok next =>
        rw [taken] at refused
        cases refused
  · have given := LinkedPayloads.output_eq_ok inside
    refine ⟨_, (output_of_linked cells_eq).trans given, rfl,
      CyclicGroup.isForm_encode (elements .a), CyclicGroup.isForm_encode (elements .b), ?_⟩
    intro other others other_linked others_eq same_group place there
    obtain ⟨found, found_eq, other_sized⟩ := other_linked.sized
    obtain rfl : found = others := Option.some.inj (found_eq.symm.trans others_eq)
    obtain ⟨next, taken, reproduced⟩ :=
      other_sized.input_of_output same_group there elements given
    exact ⟨⟨some next⟩, next, (input_eq_ok_iff others_eq).mpr ⟨next, taken, rfl⟩, rfl, reproduced⟩

/-- A stream of two slots, over the group modulo 257. -/
def sampleLinked : PayloadStream := ⟨some (.identities ⟨257, 3⟩ 2)⟩

theorem sample_linked : sampleLinked.Linked :=
  .link (show unlinked.link 2 (.create ⟨257, 3⟩ 2 2) = .ok sampleLinked from rfl)

/-- Slots of that stream have two bytes on each side. -/
theorem sample_isForm (high low : UInt8)
    (inside : 1 ≤ Bytes.toNat [high, low] ∧ Bytes.toNat [high, low] < 257) :
    CyclicGroup.IsForm ⟨257, 3⟩ [high, low] :=
  ⟨by simp [CyclicGroup.byteLength, Bytes.ofNat, Bytes.onto], inside.1, inside.2⟩

/-- The greatest element and the least, in two bytes each, go in and come out. -/
theorem slot_codec_sample : ∃ after, sampleLinked.Linked ∧
    sampleLinked.input 1 ⟨9, [1, 0], [0, 1]⟩ = .ok after ∧
    after.output 1 = .ok ⟨1, [1, 0], [0, 1]⟩ := by
  obtain ⟨cells, cells_eq, accepts, stores, -, -⟩ := slot_codec sample_linked
  injection cells_eq with same
  subst same
  obtain ⟨after, taken⟩ := (accepts 1 ⟨9, [1, 0], [0, 1]⟩).mpr
    ⟨by decide, sample_isForm 1 0 (by decide), sample_isForm 0 1 (by decide)⟩
  obtain ⟨-, -, -, -, -, -, given, -⟩ := stores _ _ _ taken
  exact ⟨after, sample_linked, taken, given⟩

end PayloadStream

end Mixnet
