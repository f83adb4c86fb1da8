import DocumentLayout.Error
import DocumentLayout.Json.Basic

/-!
# Metadata as JSON

Metadata becomes a JSON value. The names of an object are strings, so a key has to be a string or
have one that stands for it: a boolean and a finite number do. Numbers that are not finite become
null, and a tag becomes an object with one member.
-/

namespace DocumentLayout

namespace Value

/-- The name that stands for a key. -/
def jsonName : Value → Except JsonFault Text
  | .string text => .ok text
  | .bool b => .ok (if b then "true" else "false").toList
  | .int n => .ok (Text.ofInt n)
  | .float x => if x.isFinite then .ok (Decimal.write Json.numbers x) else .error .keyNotFinite
  | _ => .error .keyNotText

mutual

/-- A value as JSON. -/
def toJson : Value → Except JsonFault Json
  | .null => .ok .null
  | .bool b => .ok (.bool b)
  | .int n => .ok (.int n)
  | .float x => .ok (if x.isFinite then .float x else .null)
  | .string text => .ok (.string text)
  | .sequence items => (itemsToJson items).map .array
  | .mapping entries => (entriesToJson entries).map .ofMembers
  | .tagged tag value => (toJson value).map fun value => .object [('!' :: tag, value)]

/-- The items of a sequence as JSON. -/
def itemsToJson : List Value → Except JsonFault (List Json)
  | [] => .ok []
  | item :: items => do
    let first ← toJson item
    let rest ← itemsToJson items
    return first :: rest

/-- The entries of a mapping as members in the same order. The first key without a name is the one
that is reported. -/
def entriesToJson : List (Value × Value) → Except JsonFault (List (Text × Json))
  | [] => .ok []
  | (key, value) :: entries => do
    let name ← jsonName key
    let member ← toJson value
    let rest ← entriesToJson entries
    return (name, member) :: rest

end

end Value

/-- Metadata as JSON. -/
def Metadata.toJson (metadata : Metadata) : Except Error Json :=
  (Value.toJson (.mapping metadata)).mapError .metadataJson

end DocumentLayout
