import DocumentLayout.Metadata.Value

/-!
# Plain scalars as values

A plain scalar is null, a boolean, a number or a string by its spelling alone. A number may have a
sign and be written in base two, eight or sixteen with `0b`, `0o` and `0x`; a whole number with a
leading zero is a string.
-/

namespace DocumentLayout.Yaml

/-- Whether one of the spellings is the text. -/
def isOneOf (spellings : List String) (text : Text) : Bool :=
  spellings.any fun spelling => spelling.toList == text

/-- The spellings of null, the empty text apart. -/
def isNull (text : Text) : Bool := isOneOf ["null", "Null", "NULL", "~"] text

/-- The boolean that a text spells. -/
def bool? (text : Text) : Option Bool :=
  if isOneOf ["true", "True", "TRUE"] text then some true
  else if isOneOf ["false", "False", "FALSE"] text then some false
  else none

/-! ## Integers -/

/-- The value of a digit in a base up to sixteen. -/
def digitValue? (base : Nat) (c : Char) : Option Nat :=
  let value :=
    if c.isDigit then c.toNat - '0'.toNat
    else if c.isLower then c.toNat - 'a'.toNat + 10
    else if c.isUpper then c.toNat - 'A'.toNat + 10
    else base
  if value < base then some value else none

/-- The natural number that digits in a base spell, at least one. -/
def digits? (base : Nat) (text : Text) : Option Nat :=
  if text = [] then none
  else text.foldlM (fun n c => (digitValue? base c).map (base * n + ·)) 0

/-- A whole number without a sign: digits, or digits in the base that a mark announces. -/
def natural? (text : Text) : Option Nat :=
  match text with
  | '0' :: 'x' :: digits => digits? 16 digits
  | '0' :: 'o' :: digits => digits? 8 digits
  | '0' :: 'b' :: digits => digits? 2 digits
  | digits => digits? 10 digits

/-- The text after a sign, if it starts with one. -/
def dropSign : Text → Text
  | '-' :: rest => rest
  | '+' :: rest => rest
  | text => text

/-- Whether a text has digits only, starts with zero and is longer than that. -/
def hasLeadingZero (text : Text) : Bool :=
  match dropSign text with
  | '0' :: c :: rest => (c :: rest).all Char.isDigit
  | _ => false

/-- The whole number that a text spells. -/
def integer? (text : Text) : Option Int :=
  if hasLeadingZero text then none
  else
    match text with
    | '-' :: digits => (natural? digits).map fun n => -(n : Int)
    | '+' :: digits => (natural? digits).map fun n => (n : Int)
    | digits => (natural? digits).map fun n => (n : Int)

/-- The whole numbers that are values: those of 64 bits, with or without a sign. -/
def isValueRange (n : Int) : Bool := -(twoPow 63) ≤ n && n < twoPow 64

/-- The whole numbers that are read as such although they are no values: those of 128 bits, with or
without a sign. -/
def isWideRange (n : Int) : Bool := -(twoPow 127) ≤ n && n < twoPow 128

/-! ## Floating point numbers -/

/-- The floating point number that a text spells; a decimal beyond all finite numbers spells
none. -/
def float? (text : Text) : Option Binary64 :=
  if isOneOf [".inf", ".Inf", ".INF", "+.inf", "+.Inf", "+.INF"] text then some (.infinite false)
  else if isOneOf ["-.inf", "-.Inf", "-.INF"] text then some (.infinite true)
  else if isOneOf [".nan", ".NaN", ".NAN"] text then some .nan
  else
    ((Decimal.read? (dropSign text)).map fun decimal =>
      decimal.toBinary64 (text.head? == some '-')).filter Binary64.isFinite

/-! ## Values -/

/-- The value of a plain scalar; nothing for a whole number that is read as such and too wide. -/
def plainValue? (text : Text) : Option Value :=
  if text = [] ∨ isNull text then some .null
  else
    match bool? text with
    | some b => some (.bool b)
    | none =>
      match (integer? text).filter isWideRange with
      | some n => if isValueRange n then some (.int n) else none
      | none =>
        if hasLeadingZero text then some (.string text)
        else
          match float? text with
          | some x => some (.float x)
          | none => some (.string text)

end DocumentLayout.Yaml
