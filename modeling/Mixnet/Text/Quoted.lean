import Mixnet.Text.Hex
import Mixnet.Text.Invisible

/-!
# Quoted text

A text inside a description stands between double quotes.  Characters that would end the quotation,
or that a reader could not see, are escaped; every other character stands for itself.

## Main definitions

* `Quoted.escape`: how one character is written
* `quote`: a whole text
-/

namespace Mixnet.Text

/-- How one character is written inside a quotation. -/
def Quoted.escape (char : Char) : String :=
  if char = Char.ofNat 0 then "\\0"
  else if char = '\t' then "\\t"
  else if char = '\r' then "\\r"
  else if char = '\n' then "\\n"
  else if char = '"' then "\\\""
  else if char = '\\' then "\\\\"
  else if isInvisible char then "\\u\x7b" ++ Hex.ofNat char.toNat ++ "\x7d"
  else char.toString

/-- A text between double quotes, escaped where needed. -/
def quote (text : String) : String :=
  "\"" ++ String.join (text.toList.map Quoted.escape) ++ "\""

end Mixnet.Text
