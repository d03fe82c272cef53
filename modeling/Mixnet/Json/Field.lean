import Mixnet.Binary32.Text
import Mixnet.Chunk
import Mixnet.Json
import Mixnet.Phase.Kind
import Mixnet.Phase.State

/-!
# Fields of JSON objects

A request is an object whose fields are read one by one.  A wanted field that is missing, and any
field that holds nothing of its type, makes the request unusable, and the refusal names the field.
Where a field may be missing, null stands for its absence.

Truth values, and texts that may be missing, are read more loosely: what is no truth value or no
text is as good as absent.  Names and digits that are texts, but not of the right form, are refused
by what they were to be.

## Main definitions

* `Json.word?`, `Json.text?`, `Json.flag?`, `Json.list?`, `Json.bytes?`, `Json.binary32?`: what a
  value can be read as
* `BadField`: the name of an unusable field
* `Json.given?`: the value of a field that may be missing
* `Json.field`, `Json.field?`, `Json.fieldOr`: a field that must, may or need not be there
* `Json.flagOr`, `Json.textField?`, `Json.textOr`: the fields that are read loosely
* `Json.hexField`, `Json.phaseKindField`, `Json.phaseStateField`: texts of a form
-/

namespace Mixnet

open Mixnet.Text

/-- A field of a request is missing or unusable. -/
structure BadField where
  /-- The name of the field. -/
  name : String
deriving DecidableEq

namespace Json

/-! ## Types of values -/

/-- A whole number of at most `width` bits.  A number with a sign, a fraction or an exponent is
none. -/
def word? (width : Nat) : Json → Option Nat
  | number text =>
    let digits := text.toList
    let value := (Binary32.readDigits digits).1
    if !digits.isEmpty && digits.all Char.isDigit && value < Word.limit width then some value
    else none
  | _ => none

/-- A text. -/
def text? : Json → Option String
  | string text => some text
  | _ => none

/-- A truth value. -/
def flag? : Json → Option Bool
  | bool value => some value
  | _ => none

/-- The items of a list. -/
def items? : Json → Option (List Json)
  | array items => some items
  | _ => none

/-- A list of values that all can be read. -/
def list? {α : Type} (decode : Json → Option α) (json : Json) : Option (List α) :=
  json.items?.bind fun items => items.mapM decode

/-- A byte string, by two hexadecimal digits a byte. -/
def bytes? (json : Json) : Option (List UInt8) := json.text?.bind Hex.toBytes?

/-- A binary32 number: either a number, which is rounded to binary64 first, or a text. -/
def binary32? : Json → Option Binary32
  | number text => (Binary32.Numeral.ofText? text).map fun numeral =>
    Binary32.ofDecimalTwice numeral.negative numeral.digits numeral.exponent
  | string text => Binary32.ofText? text
  | _ => none

/-! ## Fields -/

/-- A value that must be there, or the refusal that names its field. -/
def require {α : Type} (name : String) : Option α → Except BadField α
  | some value => .ok value
  | none => .error ⟨name⟩

/-- A field that must be there. -/
def field {α : Type} (decode : Json → Option α) (name : String) (json : Json) :
    Except BadField α :=
  require name ((json.get? name).bind decode)

/-- The value of a field that may be missing; a null field is as good as none. -/
def given? (name : String) (json : Json) : Option Json :=
  match json.get? name with
  | some null => none
  | found => found

/-- A field that may be missing. -/
def field? {α : Type} (decode : Json → Option α) (name : String) (json : Json) :
    Except BadField (Option α) :=
  match json.given? name with
  | none => .ok none
  | some value => (require name (decode value)).map some

/-- A field with a default. -/
def fieldOr {α : Type} (decode : Json → Option α) (name : String) (fallback : α) (json : Json) :
    Except BadField α :=
  (field? decode name json).map (·.getD fallback)

/-! ### Loose fields -/

/-- A truth value with a default, which stands in for all that is no truth value. -/
def flagOr (name : String) (fallback : Bool) (json : Json) : Bool :=
  ((json.get? name).bind flag?).getD fallback

/-- A text that may be missing; what is no text counts as missing. -/
def textField? (name : String) (json : Json) : Option String := (json.get? name).bind text?

/-- A text with a default, which stands in for all that is no text. -/
def textOr (name fallback : String) (json : Json) : String := (json.textField? name).getD fallback

/-! ### Texts of a form -/

/-- The kind of a phase with a name. -/
def phaseKind (name : String) : Except BadField PhaseKind :=
  require "phase type" (PhaseKind.ofText? name)

/-- The state of a phase with a name. -/
def phaseState (name : String) : Except BadField PhaseState :=
  require "phase state" (PhaseState.ofText? name)

/-- The kind of a phase, by its name. -/
def phaseKindField (name : String) (json : Json) : Except BadField PhaseKind := do
  phaseKind (← field text? name json)

/-- The state of a phase, by its name. -/
def phaseStateField (name : String) (json : Json) : Except BadField PhaseState := do
  phaseState (← field text? name json)

/-- States of a phase, by their names. -/
def phaseStatesField (name : String) (json : Json) : Except BadField (List PhaseState) := do
  (← field (list? text?) name json).mapM phaseState

/-- A number given by its hexadecimal digits. -/
def hexField (name : String) (json : Json) : Except BadField Nat := do
  require "hex number" (Hex.toNat? (← field text? name json))

end Json

end Mixnet
