/-!
# Hexadecimal text

Group values are written as lower-case hexadecimal numbers without leading zeros, and payload bytes
as two digits each.

## Main definitions

* `Hex.ofNat`: the digits of a number, at least one
* `Hex.ofBytes`: two digits for every byte
* `Hex.digit?`, `Hex.toNat?`, `Hex.toBytes?`: reading them back
-/

namespace Mixnet.Text.Hex

/-- The digit of a value below sixteen. -/
def digit (value : Nat) : Char :=
  if value < 10 then Char.ofNat ('0'.toNat + value) else Char.ofNat ('a'.toNat + (value - 10))

/-- The digits of a number, most significant first, in front of `rest`.  Zero has none. -/
def digitsOnto (value : Nat) (rest : List Char) : List Char :=
  if value = 0 then rest else digitsOnto (value / 16) (digit (value % 16) :: rest)
termination_by value
decreasing_by omega

/-- A number in lower-case hexadecimal, without leading zeros. -/
def ofNat (value : Nat) : String :=
  if value = 0 then "0" else String.ofList (digitsOnto value [])

/-- The two digits of a byte. -/
def ofByte (byte : UInt8) : List Char :=
  [digit (byte.toNat / 16), digit (byte.toNat % 16)]

/-- A byte string, two digits a byte. -/
def ofBytes (bytes : List UInt8) : String :=
  String.ofList (bytes.flatMap ofByte)

/-- The value of a digit; both cases are read. -/
def digit? (char : Char) : Option Nat :=
  if '0' ≤ char ∧ char ≤ '9' then some (char.toNat - '0'.toNat)
  else if 'a' ≤ char ∧ char ≤ 'f' then some (char.toNat - 'a'.toNat + 10)
  else if 'A' ≤ char ∧ char ≤ 'F' then some (char.toNat - 'A'.toNat + 10)
  else none

/-- Reads a number onto the value of the digits before it. -/
def toNatFrom (value : Nat) : List Char → Option Nat
  | [] => some value
  | char :: rest => (digit? char).bind fun d => toNatFrom (value * 16 + d) rest

/-- The number that a non-empty string of digits stands for. -/
def toNat? (text : String) : Option Nat :=
  match text.toList with
  | [] => none
  | chars => toNatFrom 0 chars

/-- The bytes that a string of digit pairs stands for. -/
def toByteList? : List Char → Option (List UInt8)
  | [] => some []
  | [_] => none
  | high :: low :: rest => do
    let h ← digit? high
    let l ← digit? low
    let bytes ← toByteList? rest
    return UInt8.ofNat (h * 16 + l) :: bytes

/-- The bytes that a string of digit pairs stands for. -/
def toBytes? (text : String) : Option (List UInt8) :=
  toByteList? text.toList

end Mixnet.Text.Hex
