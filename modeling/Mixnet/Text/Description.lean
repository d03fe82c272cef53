import Mixnet.Text.Quoted

/-!
# Descriptions of values

A description shows a value for diagnosis: a record as its name and fields between braces, a list
between brackets, a tuple or a wrapped value between parentheses.  Texts inside it are quoted.

## Main definitions

* `Describe`: the class of values with a description
* `record`, `wrapped`: descriptions of structures and of tagged values

## Design notes

The class exists so that the description of a container follows from that of its parts.  A type of
this library gets its instance beside its definition.
-/

namespace Mixnet.Text

/-- A value with a description. -/
class Describe (α : Type) where
  /-- The description of a value. -/
  describe : α → String

export Describe (describe)

/-- Texts with a comma between neighbours. -/
def commaSeparated (parts : List String) : String := ", ".intercalate parts

/-- A record: its name, then its fields in order. -/
def record (name : String) (fields : List (String × String)) : String :=
  name ++ " \x7b " ++ commaSeparated (fields.map fun field => field.1 ++ ": " ++ field.2) ++ " \x7d"

/-- A tagged value: the tag, then the values it wraps. -/
def wrapped (tag : String) (parts : List String) : String :=
  tag ++ "(" ++ commaSeparated parts ++ ")"

instance : Describe Nat := ⟨fun value => toString value⟩

instance : Describe Bool := ⟨fun value => if value then "true" else "false"⟩

instance : Describe String := ⟨quote⟩

instance {α : Type} [Describe α] : Describe (Option α) :=
  ⟨fun
    | none => "None"
    | some value => wrapped "Some" [describe value]⟩

instance {α : Type} [Describe α] : Describe (List α) :=
  ⟨fun values => "[" ++ commaSeparated (values.map describe) ++ "]"⟩

instance {α β : Type} [Describe α] [Describe β] : Describe (α × β) :=
  ⟨fun pair => wrapped "" [describe pair.1, describe pair.2]⟩

end Mixnet.Text
