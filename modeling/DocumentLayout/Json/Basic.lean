import DocumentLayout.Number.Decimal
import DocumentLayout.Text.Hex
import DocumentLayout.Text.Named

/-!
# JSON values and their text

A JSON object has its members in the order of their names, and no two of the same name. A value is
written on one line or spread over lines.
-/

namespace DocumentLayout

/-- A JSON value. -/
inductive Json where
  | null
  | bool (b : Bool)
  | int (n : Int)
  /-- A finite floating point number. -/
  | float (x : Binary64)
  | string (text : Text)
  | array (items : List Json)
  | object (members : List (Text × Json))
  deriving Repr, Inhabited

namespace Json

/-! ## Objects -/

/-- An object with these members, of which a later one takes the place of an earlier one of the
same name. -/
def ofMembers (members : List (Text × Json)) : Json := .object (Named.ofList members)

/-! ## Writing -/

/-- How numbers are written: a plus sign in front of an exponent that is not negative. -/
def numbers : Decimal.Style := ⟨['+'], "null".toList, "null".toList⟩

/-- A character between quotes. Only what cannot stand there is escaped. -/
def escape (c : Char) : Text :=
  match c with
  | '"' => "\\\"".toList
  | '\\' => "\\\\".toList
  | '\n' => "\\n".toList
  | '\r' => "\\r".toList
  | '\t' => "\\t".toList
  | '\x08' => "\\b".toList
  | '\x0c' => "\\f".toList
  | c =>
    if c.toNat < 0x20 then "\\u".toList ++ Text.paddedHex 4 c.toNat else [c]

/-- A text between quotes. -/
def quote (text : Text) : Text := '"' :: text.flatMap escape ++ ['"']

mutual

/-- A value on one line. -/
def compact : Json → Text
  | .null => "null".toList
  | .bool b => (if b then "true" else "false").toList
  | .int n => Text.ofInt n
  | .float x => Decimal.write numbers x
  | .string text => quote text
  | .array items => '[' :: compactItems items ++ [']']
  | .object members => '\x7b' :: compactMembers members ++ ['\x7d']

/-- Items with commas between them. -/
def compactItems : List Json → Text
  | [] => []
  | [item] => compact item
  | item :: items => compact item ++ ',' :: compactItems items

/-- Members with commas between them. -/
def compactMembers : List (Text × Json) → Text
  | [] => []
  | [(name, value)] => quote name ++ ':' :: compact value
  | (name, value) :: members =>
    quote name ++ ':' :: compact value ++ ',' :: compactMembers members

end

/-- A new line at a depth, indented by two spaces for each level. -/
def newLine (depth : Nat) : Text := '\n' :: List.replicate (2 * depth) ' '

mutual

/-- A value over several lines, one for each item and each member. -/
def pretty (depth : Nat) : Json → Text
  | .null => "null".toList
  | .bool b => (if b then "true" else "false").toList
  | .int n => Text.ofInt n
  | .float x => Decimal.write numbers x
  | .string text => quote text
  | .array [] => "[]".toList
  | .array (item :: items) =>
    '[' :: prettyItems (depth + 1) (item :: items) ++ newLine depth ++ [']']
  | .object [] => "\x7b\x7d".toList
  | .object (member :: members) =>
    '\x7b' :: prettyMembers (depth + 1) (member :: members) ++ newLine depth ++ ['\x7d']

/-- Items on lines of their own. -/
def prettyItems (depth : Nat) : List Json → Text
  | [] => []
  | [item] => newLine depth ++ pretty depth item
  | item :: items => newLine depth ++ pretty depth item ++ ',' :: prettyItems depth items

/-- Members on lines of their own. -/
def prettyMembers (depth : Nat) : List (Text × Json) → Text
  | [] => []
  | [(name, value)] => newLine depth ++ quote name ++ ": ".toList ++ pretty depth value
  | (name, value) :: members =>
    newLine depth ++ quote name ++ ": ".toList ++ pretty depth value ++
      ',' :: prettyMembers depth members

end

end Json

end DocumentLayout
