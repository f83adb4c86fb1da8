import DocumentLayout.Number.Decimal

/-!
# Metadata values

The values that the front matter of a document may hold, whichever language it is written in.
A mapping keeps its entries in the order they were written, its keys may be any value, and a value
may carry a tag.
-/

namespace DocumentLayout

/-- A metadata value. -/
inductive Value where
  | null
  | bool (b : Bool)
  | int (n : Int)
  | float (x : Binary64)
  | string (text : Text)
  | sequence (items : List Value)
  | mapping (entries : List (Value × Value))
  /-- A value with a tag, whose name is held without its leading `!`. -/
  | tagged (tag : Text) (value : Value)
  deriving Repr, Inhabited

/-- The entries of a mapping in the order they were written. -/
abbrev Metadata := List (Value × Value)

/-- What sort of value a value is. -/
inductive ValueKind where
  | null
  | boolean
  | number
  | string
  | sequence
  | mapping
  | tagged
  deriving DecidableEq, Repr, Inhabited

/-- A sort of value as a message calls it. -/
def ValueKind.describe : ValueKind → Text
  | .null => "nothing".toList
  | .boolean => "a boolean".toList
  | .number => "a number".toList
  | .string => "a string".toList
  | .sequence => "a sequence".toList
  | .mapping => "a mapping".toList
  | .tagged => "a tagged value".toList

namespace Value

/-- The sort of a value. -/
def kind : Value → ValueKind
  | .null => .null
  | .bool _ => .boolean
  | .int _ => .number
  | .float _ => .number
  | .string _ => .string
  | .sequence _ => .sequence
  | .mapping _ => .mapping
  | .tagged _ _ => .tagged

mutual

/-- Equality of values. The order of the entries of a mapping does not count, the two zeros are
equal, and what is not a number equals itself. -/
def same : Value → Value → Bool
  | .null, .null => true
  | .bool a, .bool b => a == b
  | .int m, .int n => m == n
  | .float x, .float y => Binary64.same x y
  | .string s, .string t => s == t
  | .sequence xs, .sequence ys => sameItems xs ys
  | .mapping xs, .mapping ys => xs.length == ys.length && allFound xs ys
  | .tagged s x, .tagged t y => s == t && same x y
  | _, _ => false

/-- Equality of sequences, item by item. -/
def sameItems : List Value → List Value → Bool
  | [], [] => true
  | x :: xs, y :: ys => same x y && sameItems xs ys
  | _, _ => false

/-- Whether each of the entries is found among those of another mapping. -/
def allFound : List (Value × Value) → List (Value × Value) → Bool
  | [], _ => true
  | (key, value) :: rest, ys =>
    ys.any (fun (k, v) => same key k && same value v) && allFound rest ys

end

/-- The value under a key in a list of entries. -/
def find? (key : Value) (entries : List (Value × Value)) : Option Value :=
  (entries.find? fun (k, _) => same key k).map (·.2)

/-- Whether two of the entries have the same key. -/
def hasDuplicateKey : List (Value × Value) → Bool
  | [] => false
  | (key, _) :: rest => (find? key rest).isSome || hasDuplicateKey rest

end Value

/-- Equality of metadata, whatever the order of its entries. -/
def Metadata.same (a b : Metadata) : Bool := Value.same (.mapping a) (.mapping b)

end DocumentLayout
