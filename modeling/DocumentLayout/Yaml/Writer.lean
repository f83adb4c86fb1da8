import DocumentLayout.Yaml.Quoting
import DocumentLayout.Yaml.Token.Tag

/-!
# Values as YAML

A value is written in block style, one item or entry a line, with two columns more for each level.
Only empty sequences and mappings are written with brackets and braces. The items of a sequence
under a key are indented no further than the key.
-/

namespace DocumentLayout.Yaml

/-! ## Tags -/

/-- The whole tag with a name. -/
def fullTag (name : Text) : Text := if name.head? = some '!' then name else '!' :: name

/-- A character of a tag, or its octets as escapes. -/
def tagChar (c : Char) : Text :=
  if isTagChar true c ∧ c ≠ '%' then [c]
  else (String.singleton c).toUTF8.toList.flatMap fun octet => '%' :: upperHex 2 octet.toNat

/-- A tag as it is written. The lone `!` would stand for no tag at all, so it is given in full. -/
def writeTag (name : Text) : Text :=
  match fullTag name with
  | ['!'] => "!<!>".toList
  | tag => tag.flatMap tagChar

/-! ## Keys -/

/-- A scalar as it is written; nothing for a sequence, a mapping or a tag. -/
def writeScalar (indent : Nat) : Value → Text
  | .null => "null".toList
  | .bool b => (if b then "true" else "false").toList
  | .int n => Text.ofInt n
  | .float x => Decimal.write numbers x
  | .string text => writeString indent text
  | _ => []

/-- The bytes of a key with its tag, before it is quoted; nothing when it has several lines. -/
def keySize? : Value → Option Nat
  | .sequence items => if items.isEmpty then some 0 else none
  | .mapping entries => if entries.isEmpty then some 0 else none
  | .tagged name value => (keySize? value).map (Text.byteLength (fullTag name) + ·)
  | .string text => if text.any isBreak then none else some (Text.byteLength text)
  | value => some (Text.byteLength (writeScalar 0 value))

/-- Whether a key can stand in front of its colon. A longer one needs a mark of its own. -/
def isSimpleKey (key : Value) : Bool := (keySize? key).any (· ≤ 128)

/-- A key that stands in front of its colon. -/
def writeKey : Value → Text
  | .sequence _ => "[]".toList
  | .mapping _ => "\x7b\x7d".toList
  | .tagged name value => writeTag name ++ ' ' :: writeKey value
  | value => writeScalar 0 value

/-! ## Values -/

/-- A text with a line feed, unless it is a block of lines that ends in a line break. -/
def endLine (text : Text) : Text :=
  if text.head? = some '|' ∧ text.getLast?.any isBreak then text else text ++ ['\n']

mutual

/-- A value after the indicator in front of it, through the end of its last line. The collection
around it is indented by `indent`, `fresh` says that its line holds nothing but indentation and
indicators, and `inMapping` that the collection around it is a mapping. -/
def writeNode (indent : Nat) (fresh inMapping : Bool) : Value → Text
  | .sequence items =>
    if items.isEmpty then " []\n".toList
    else if fresh then ' ' :: (writeItems (indent + indentStep) items).drop (indent + indentStep)
    else '\n' :: writeItems (if inMapping then indent else indent + indentStep) items
  | .mapping entries =>
    if entries.isEmpty then " \x7b\x7d\n".toList
    else if fresh then
      ' ' :: (writeEntries (indent + indentStep) entries).drop (indent + indentStep)
    else '\n' :: writeEntries (indent + indentStep) entries
  | .tagged name value => ' ' :: writeTag name ++ writeNode indent false inMapping value
  | value => ' ' :: endLine (writeScalar (indent + indentStep) value)

/-- The items of a sequence, each from the start of a line. -/
def writeItems (indent : Nat) : List Value → Text
  | [] => []
  | item :: items =>
    spaces indent ++ '-' :: writeNode indent true false item ++ writeItems indent items

/-- The entries of a mapping, each from the start of a line. -/
def writeEntries (indent : Nat) : List (Value × Value) → Text
  | [] => []
  | (key, value) :: entries =>
    (if isSimpleKey key then
      spaces indent ++ writeKey key ++ ':' :: writeNode indent false true value
    else
      spaces indent ++ '?' :: writeNode indent true true key ++
        spaces indent ++ ':' :: writeNode indent true true value) ++ writeEntries indent entries

end

/-! ## Values without a written form -/

/-- Whether a value is a tag or a mapping with a single entry. Inside a mapping with a single
entry, such a key cannot be told from a tag. -/
def looksTagged : Value → Bool
  | .tagged _ _ => true
  | .mapping [_] => true
  | _ => false

mutual

/-- Whether a value has a written form. `underTag` says that a tag stands right in front of it;
another tag cannot follow. -/
def canWrite (underTag : Bool) : Value → Bool
  | .sequence items => canWriteItems items
  | .mapping entries =>
    (underTag || entries.length != 1 || entries.all fun (key, _) => !looksTagged key) &&
      canWriteEntries entries
  | .tagged _ value => !underTag && canWrite true value
  | _ => true

/-- Whether all items have a written form. -/
def canWriteItems : List Value → Bool
  | [] => true
  | item :: items => canWrite false item && canWriteItems items

/-- Whether all keys and values have a written form. -/
def canWriteEntries : List (Value × Value) → Bool
  | [] => true
  | (key, value) :: entries =>
    canWrite false key && canWrite false value && canWriteEntries entries

end

/-- Metadata with entries as a YAML document; nothing when it has no written form. -/
def write? (metadata : Metadata) : Option Text :=
  if canWrite false (.mapping metadata) then some (writeEntries 0 metadata) else none

end DocumentLayout.Yaml
