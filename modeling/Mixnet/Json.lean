import Mixnet.Text.Hex

/-!
# JSON values

Stored values and reports are exchanged as JSON.  A number keeps its text, so that no digit and no
sign is lost before its reader has chosen a type for it.

## Main definitions

* `Json`: a value
* `Json.get?`: a field of an object
* `Json.render`: the text of a value
-/

namespace Mixnet

open Mixnet.Text

/-- A JSON value. -/
inductive Json where
  | null
  | bool (value : Bool)
  /-- A number, by its text. -/
  | number (text : String)
  | string (text : String)
  | array (items : List Json)
  /-- Names and values, in the order of the text. -/
  | object (fields : List (String × Json))
deriving Inhabited

namespace Json

instance : Coe Bool Json := ⟨bool⟩

instance : Coe Nat Json := ⟨fun value => number (toString value)⟩

instance : Coe String Json := ⟨string⟩

/-- The field of an object with a given name, the last one if there are several. -/
def get? (json : Json) (name : String) : Option Json :=
  match json with
  | object fields => fields.reverse.lookup name
  | _ => none

/-- The names of the fields of an object. -/
def names : Json → List String
  | object fields => fields.map Prod.fst
  | _ => []

/-- A value or null. -/
def ofOption {α : Type} (encode : α → Json) : Option α → Json
  | some value => encode value
  | none => null

/-- A list of values. -/
def ofList {α : Type} (encode : α → Json) (values : List α) : Json := array (values.map encode)

/-- A list of natural numbers. -/
def ofNats (values : List Nat) : Json := ofList (fun (value : Nat) => (value : Json)) values

/-- A list of texts. -/
def ofStrings (values : List String) : Json := ofList string values

/-! ## Text -/

/-- How one character is written inside a string. -/
def escape (char : Char) : String :=
  if char = '"' then "\\\""
  else if char = '\\' then "\\\\"
  else if char.toNat < 0x10 then "\\u000" ++ Hex.ofNat char.toNat
  else if char.toNat < 0x20 then "\\u00" ++ Hex.ofNat char.toNat
  else char.toString

/-- A string between its quotes. -/
def renderString (text : String) : String :=
  "\"" ++ String.join (text.toList.map escape) ++ "\""

mutual

/-- The text of a value. -/
def render : Json → String
  | null => "null"
  | bool value => if value then "true" else "false"
  | number text => text
  | string text => renderString text
  | array items => "[" ++ ",".intercalate (renderItems items) ++ "]"
  | object fields => "\x7b" ++ ",".intercalate (renderFields fields) ++ "\x7d"

/-- The texts of the items of a list. -/
def renderItems : List Json → List String
  | [] => []
  | item :: rest => item.render :: renderItems rest

/-- The texts of the fields of an object. -/
def renderFields : List (String × Json) → List String
  | [] => []
  | (name, value) :: rest => (renderString name ++ ":" ++ value.render) :: renderFields rest

end

end Json

end Mixnet
