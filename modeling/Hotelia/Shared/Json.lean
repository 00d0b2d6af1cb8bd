import Mathlib.Algebra.GroupWithZero.Nat
import Mathlib.Data.String.Basic

/-!
# JSON values

The values that payloads and request bodies are made of. A number is kept as the
text that `JSON.stringify` prints for it: no modelled code computes with the
numbers of a payload.
-/

namespace Hotelia

/-- A value as `JSON.parse` returns it. -/
inductive Json where
  | null
  | bool (b : Bool)
  | num (text : String)
  | str (s : String)
  | arr (items : List Json)
  | obj (fields : List (String × Json))

/-- `Record<string, unknown>`. -/
abbrev JsonRecord := List (String × Json)

mutual

/-- `String(v)`. -/
def Json.text : Json → String
  | .null => "null"
  | .bool b => if b then "true" else "false"
  | .num text => text
  | .str s => s
  | .arr items => Json.joinTexts items
  | .obj _ => "[object Object]"

/-- `items.join(',')`, which prints `null` as nothing. -/
def Json.joinTexts : List Json → String
  | [] => ""
  | [v] => Json.itemText v
  | v :: vs => Json.itemText v ++ "," ++ Json.joinTexts vs

/-- One item of a joined array. -/
def Json.itemText : Json → String
  | .null => ""
  | .bool b => if b then "true" else "false"
  | .num text => text
  | .str s => s
  | .arr items => Json.joinTexts items
  | .obj _ => "[object Object]"

end

/-- `String(record[field])`; an absent field reads as `undefined`. -/
def JsonRecord.text (record : JsonRecord) (field : String) : String :=
  match record.lookup field with
  | none => "undefined"
  | some v => v.text

end Hotelia
