import Mathlib.Tactic.Ring
import Mixnet.Group

/-!
# Big-endian numbers

A byte string stands for a number, most significant byte first.  Leading zeros do not count, so a
number has one form for each width that holds it.

## Main definitions

* `Bytes.padded`: the form of a number in at least a given number of bytes

## Main statements

* `Bytes.toNat_inj`: strings of one length stand for different numbers
* `Bytes.toNat_padded`: a form stands for its number
* `Bytes.padded_toNat`: a string is the form, in its own width, of the number it stands for
-/

namespace Mixnet.Bytes

/-! ## Reading -/

@[simp] theorem toNat_nil : toNat [] = 0 := rfl

/-- Reading goes on with what has been read. -/
theorem foldl_eq (bytes : List UInt8) (value : Nat) :
    bytes.foldl (fun value byte => value * 256 + byte.toNat) value =
      value * 256 ^ bytes.length + toNat bytes := by
  induction bytes generalizing value with
  | nil => simp
  | cons byte rest ih =>
      rw [toNat, List.foldl_cons, List.foldl_cons, ih, ih (0 * 256 + byte.toNat), List.length_cons]
      ring

theorem toNat_append (front back : List UInt8) :
    toNat (front ++ back) = toNat front * 256 ^ back.length + toNat back := by
  rw [toNat, List.foldl_append, foldl_eq]
  rfl

theorem toNat_cons (byte : UInt8) (rest : List UInt8) :
    toNat (byte :: rest) = byte.toNat * 256 ^ rest.length + toNat rest := by
  rw [toNat, List.foldl_cons, foldl_eq, Nat.zero_mul, Nat.zero_add]

/-- A string stands for a number that its bytes can hold. -/
theorem toNat_lt (bytes : List UInt8) : toNat bytes < 256 ^ bytes.length := by
  induction bytes with
  | nil => simp
  | cons byte rest ih =>
      rw [toNat_cons, List.length_cons, Nat.pow_succ']
      have digit : byte.toNat + 1 ≤ 256 := byte.toNat_lt
      calc byte.toNat * 256 ^ rest.length + toNat rest
          < byte.toNat * 256 ^ rest.length + 256 ^ rest.length := Nat.add_lt_add_left ih _
        _ = (byte.toNat + 1) * 256 ^ rest.length := (Nat.succ_mul _ _).symm
        _ ≤ 256 * 256 ^ rest.length := Nat.mul_le_mul_right _ digit

/-- **Strings of one length stand for different numbers.** -/
theorem toNat_inj {left right : List UInt8} (same_length : left.length = right.length)
    (same : toNat left = toNat right) : left = right := by
  induction left generalizing right with
  | nil => exact (List.length_eq_zero_iff.mp same_length.symm).symm
  | cons byte rest ih =>
      cases right with
      | nil => cases same_length
      | cons other others =>
          have lengths : rest.length = others.length := Nat.succ.inj same_length
          rw [toNat_cons, toNat_cons, ← lengths] at same
          have low := toNat_lt rest
          have low' := toNat_lt others
          rw [← lengths] at low'
          -- The first byte is the quotient by the weight of its place, and the rest the remainder.
          have bytes_eq : byte.toNat = other.toNat := by
            have weight_pos : 0 < 256 ^ rest.length := Nat.pow_pos (by decide)
            have quotients := congrArg (· / 256 ^ rest.length) same
            simp only [Nat.mul_comm _ (256 ^ rest.length), Nat.mul_add_div weight_pos,
              Nat.div_eq_of_lt low, Nat.div_eq_of_lt low', Nat.add_zero] at quotients
            exact quotients
          rw [bytes_eq] at same
          rw [UInt8.toNat_inj.mp bytes_eq, ih lengths (Nat.add_left_cancel same)]

theorem toNat_replicate_zero (count : Nat) : toNat (List.replicate count 0) = 0 := by
  induction count with
  | zero => rfl
  | succ count ih => rw [List.replicate_succ, toNat_cons, ih, UInt8.toNat_zero, Nat.zero_mul]

/-! ## Writing -/

theorem onto_eq (value : Nat) (rest : List UInt8) : onto value rest = onto value [] ++ rest := by
  induction value using Nat.strong_induction_on generalizing rest with
  | _ value ih =>
      by_cases zero : value = 0
      · rw [zero, onto, if_pos rfl, onto, if_pos rfl, List.nil_append]
      · have smaller : value / 256 < value := Nat.div_lt_self (Nat.pos_of_ne_zero zero) (by decide)
        rw [onto, if_neg zero, ih _ smaller, onto.eq_def value [], if_neg zero, ih _ smaller [_],
          List.append_assoc, List.singleton_append]

/-- The bytes of a positive number are those of its quotient and its remainder. -/
theorem onto_of_ne_zero {value : Nat} (positive : value ≠ 0) :
    onto value [] = onto (value / 256) [] ++ [UInt8.ofNat (value % 256)] := by
  rw [onto, if_neg positive, onto_eq]

theorem toNat_onto (value : Nat) : toNat (onto value []) = value := by
  induction value using Nat.strong_induction_on with
  | _ value ih =>
      by_cases zero : value = 0
      · rw [zero, onto, if_pos rfl, toNat_nil]
      · rw [onto_of_ne_zero zero, toNat_append, ih _ (by omega), toNat_cons, toNat_nil,
          UInt8.toNat_ofNat_of_lt' (by simpa using Nat.mod_lt value (by decide))]
        simp only [List.length_cons, List.length_nil]
        omega

/-- A form stands for its number. -/
theorem toNat_ofNat (value : Nat) : toNat (ofNat value) = value := by
  rw [ofNat]
  split
  case isTrue zero => rw [zero]; rfl
  case isFalse => exact toNat_onto value

/-- The bytes of a number that is small enough are few enough. -/
theorem length_onto_le {value width : Nat} (small : value < 256 ^ width) :
    (onto value []).length ≤ width := by
  induction width generalizing value with
  | zero =>
      rw [Nat.pow_zero, Nat.lt_one_iff] at small
      rw [small, onto, if_pos rfl, List.length_nil]
  | succ width ih =>
      by_cases zero : value = 0
      · rw [zero, onto, if_pos rfl]
        exact Nat.zero_le _
      · have quotient : value / 256 < 256 ^ width := by
          rw [Nat.pow_succ] at small
          exact Nat.div_lt_of_lt_mul (by rwa [Nat.mul_comm])
        rw [onto_of_ne_zero zero, List.length_append, List.length_singleton]
        exact Nat.succ_le_succ (ih quotient)

theorem length_ofNat_pos (value : Nat) : 0 < (ofNat value).length := by
  rw [ofNat]
  split
  case isTrue => exact Nat.one_pos
  case isFalse positive =>
    rw [onto_of_ne_zero positive, List.length_append, List.length_singleton]
    exact Nat.succ_pos _

/-! ## Forms of a given width -/

/-- The form of a number in at least `width` bytes. -/
def padded (width value : Nat) : List UInt8 :=
  List.replicate (width - (ofNat value).length) 0 ++ ofNat value

/-- **A form stands for its number.** -/
theorem toNat_padded (width value : Nat) : toNat (padded width value) = value := by
  rw [padded, toNat_append, toNat_replicate_zero, Nat.zero_mul, Nat.zero_add, toNat_ofNat]

/-- A number that `width` bytes can hold has a form of that width. -/
theorem length_padded {width value : Nat} (some_width : 0 < width) (small : value < 256 ^ width) :
    (padded width value).length = width := by
  have short : (ofNat value).length ≤ width := by
    rw [ofNat]
    split
    case isTrue => exact some_width
    case isFalse => exact length_onto_le small
  rw [padded, List.length_append, List.length_replicate]
  exact Nat.sub_add_cancel short

/-- **A string is the form, in its own width, of the number it stands for.** -/
theorem padded_toNat {bytes : List UInt8} (some_byte : 0 < bytes.length) :
    padded bytes.length (toNat bytes) = bytes :=
  toNat_inj (length_padded some_byte (toNat_lt bytes)) (toNat_padded _ _)

end Mixnet.Bytes
