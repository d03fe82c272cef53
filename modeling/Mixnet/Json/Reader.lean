import Mixnet.Json

/-!
# Reading JSON

The reader turns a text into the JSON value it stands for.

## Main definitions

* `Json.readString`: a string, from behind its opening quote
* `Json.readValue`: one value, and the text after it
* `Json.parse?`: the value of a whole text

## Design notes

Lists and objects nest, so the reader is given a number of steps.  At most three steps in a row take
no character, so four steps for each character are more than it can use.
-/

namespace Mixnet.Json

open Mixnet.Text

/-! ## Strings -/

/-- The character that a letter stands for behind a backslash. -/
def unescape : Char → Char
  | 'n' => '\n'
  | 't' => '\t'
  | 'r' => '\r'
  | 'b' => Char.ofNat 8
  | 'f' => Char.ofNat 12
  | char => char

/-- The code unit written with four hexadecimal digits. -/
def codeUnit? (a b c d : Char) : Option Nat := Hex.toNat? (String.ofList [a, b, c, d])

/-- The character that two halves of a surrogate pair stand for. -/
def ofSurrogates (high low : Nat) : Char :=
  Char.ofNat (0x10000 + high % 0x400 * 0x400 + low % 0x400)

/-- Reads a string from behind its opening quote, onto the characters before it. -/
def readString (done : List Char) (input : List Char) : Option (String × List Char) :=
  match input with
  | '"' :: rest => some (String.ofList done.reverse, rest)
  | '\\' :: 'u' :: a :: b :: c :: d :: '\\' :: 'u' :: e :: f :: g :: h :: rest =>
    match codeUnit? a b c d, codeUnit? e f g h with
    | some high, some low =>
      if high / 0x400 = 54 then readString (ofSurrogates high low :: done) rest
      else readString (Char.ofNat high :: done) ('\\' :: 'u' :: e :: f :: g :: h :: rest)
    | _, _ => none
  | '\\' :: 'u' :: a :: b :: c :: d :: rest =>
    match codeUnit? a b c d with
    | some unit => readString (Char.ofNat unit :: done) rest
    | none => none
  | '\\' :: char :: rest => readString (unescape char :: done) rest
  | char :: rest => readString (char :: done) rest
  | [] => none
termination_by input.length
decreasing_by all_goals simp_wf <;> omega

/-! ## Values -/

/-- A text without its leading blanks. -/
def skipBlanks (input : List Char) : List Char := input.dropWhile Char.isWhitespace

/-- Whether a character can stand in a number. -/
def inNumber (char : Char) : Bool := char.isDigit || "+-.eE".toList.contains char

/-- Reads a number. -/
def readNumber (input : List Char) : Option (Json × List Char) :=
  let text := input.takeWhile inNumber
  if text.isEmpty then none else some (number (String.ofList text), input.dropWhile inNumber)

mutual

/-- Reads one value. -/
def readValue (steps : Nat) (input : List Char) : Option (Json × List Char) :=
  match steps with
  | 0 => none
  | steps + 1 =>
    match skipBlanks input with
    | '"' :: rest => (readString [] rest).map fun read => (string read.1, read.2)
    | '[' :: rest =>
      match skipBlanks rest with
      | ']' :: tail => some (array [], tail)
      | items => (readItems steps items).map fun read => (array read.1, read.2)
    | '\x7b' :: rest =>
      match skipBlanks rest with
      | '\x7d' :: tail => some (object [], tail)
      | fields => (readFields steps fields).map fun read => (object read.1, read.2)
    | 't' :: 'r' :: 'u' :: 'e' :: rest => some (bool true, rest)
    | 'f' :: 'a' :: 'l' :: 's' :: 'e' :: rest => some (bool false, rest)
    | 'n' :: 'u' :: 'l' :: 'l' :: rest => some (null, rest)
    | other => readNumber other

/-- Reads the items of a list, up to and with its closing bracket. -/
def readItems (steps : Nat) (input : List Char) : Option (List Json × List Char) :=
  match steps with
  | 0 => none
  | steps + 1 => do
    let (item, rest) ← readValue steps input
    match skipBlanks rest with
    | ',' :: tail =>
      let (items, after) ← readItems steps tail
      return (item :: items, after)
    | ']' :: tail => return ([item], tail)
    | _ => none

/-- Reads the fields of an object, up to and with its closing brace. -/
def readFields (steps : Nat) (input : List Char) : Option (List (String × Json) × List Char) :=
  match steps with
  | 0 => none
  | steps + 1 => do
    let (name, value, rest) ← readField steps (skipBlanks input)
    match skipBlanks rest with
    | ',' :: tail =>
      let (fields, after) ← readFields steps tail
      return ((name, value) :: fields, after)
    | '\x7d' :: tail => return ([(name, value)], tail)
    | _ => none

/-- Reads one field: a name, a colon and a value. -/
def readField (steps : Nat) (input : List Char) : Option (String × Json × List Char) :=
  match steps, input with
  | steps + 1, '"' :: rest => do
    let (name, behindName) ← readString [] rest
    match skipBlanks behindName with
    | ':' :: tail =>
      let (value, after) ← readValue steps tail
      return (name, value, after)
    | _ => none
  | _, _ => none

end

/-- The value of a text, which holds nothing else but blanks. -/
def parse? (text : String) : Option Json :=
  match readValue (4 * text.length + 4) text.toList with
  | some (value, rest) => if (skipBlanks rest).isEmpty then some value else none
  | none => none

end Mixnet.Json
