import DocumentLayout.Text.Hex
import DocumentLayout.Toml.Basic
import DocumentLayout.Toml.Datetime

/-!
# TOML scalars

Strings between double quotes have escapes, those between single quotes have none, and both may run
over several lines between three quotes. All other scalars are told apart by their spelling.
-/

namespace DocumentLayout.Toml

/-! ## Strings -/

/-- Whether a character may stand in a comment or a string: no control character but the tab. -/
def isVisible (c : Char) : Bool := c == '\t' || (0x20 ≤ c.toNat && c.toNat != 0x7F)

/-- What the letter of a short escape stands for. -/
def escaped? (c : Char) : Option Char :=
  match c with
  | 'b' => some '\x08'
  | 't' => some '\t'
  | 'n' => some '\n'
  | 'f' => some '\x0c'
  | 'r' => some '\r'
  | 'e' => some '\x1b'
  | '"' => some '"'
  | '\\' => some '\\'
  | _ => none

/-- The number of digits that follow the letter of an escape by code point. -/
def escapeDigits? (c : Char) : Option Nat :=
  match c with
  | 'x' => some 2
  | 'u' => some 4
  | 'U' => some 8
  | _ => none

/-- The character of an escape after its backslash, and the text after it. -/
def escape? : Text → Option (Char × Text)
  | [] => none
  | c :: rest =>
    match escapeDigits? c with
    | some count => do
      let d ← (← Text.hexNumber? count rest) |> Text.ofCodePoint?
      some (d, rest.drop count)
    | none => (escaped? c).map fun d => (d, rest)

/-- The characters of a string in double quotes up to its end, and the text after it. -/
def basic? : Nat → Text → Option (Text × Text)
  | 0, _ => none
  | _, [] => none
  | fuel + 1, c :: rest =>
    if c = '"' then some ([], rest)
    else if c = '\\' then do
      let (d, rest) ← escape? rest
      let (text, rest) ← basic? fuel rest
      some (d :: text, rest)
    else if isVisible c then (basic? fuel rest).map fun (text, rest) => (c :: text, rest)
    else none

/-- The characters of a string in single quotes up to its end, and the text after it. -/
def raw? : Text → Option (Text × Text)
  | [] => none
  | c :: rest =>
    if c = '\'' then some ([], rest)
    else if isVisible c then (raw? rest).map fun (text, rest) => (c :: text, rest)
    else none

/-- The text after spaces, tabs and line breaks; nothing when there is a carriage return without a
line feed. -/
def skipLines? : Text → Option Text
  | '\r' :: '\n' :: rest => skipLines? rest
  | '\r' :: _ => none
  | c :: rest => if c = ' ' ∨ c = '\t' ∨ c = '\n' then skipLines? rest else some (c :: rest)
  | [] => some []

/-- The text after a backslash at the end of a line and after all white space that follows. -/
def continued? (text : Text) : Option Text :=
  let rest := text.dropWhile fun c => c == ' ' || c == '\t'
  if rest.head?.any fun c => c == '\n' || c == '\r' then skipLines? rest else none

/-- How the quotes at the start of a text end a string over several lines: the quotes that still
belong to it and the text after its end. Three quotes end it, and two more may stand before them. -/
def closing? (quote : Char) (text : Text) : Option (Text × Text) :=
  let count := min 5 (text.takeWhile (· == quote)).length
  if 3 ≤ count then some (List.replicate (count - 3) quote, text.drop count) else none

/-- The characters of a string over several lines up to its end, and the text after it. Line breaks
are kept as they are; escapes count if `escapes` says so. -/
def lines? (quote : Char) (escapes : Bool) : Nat → Text → Option (Text × Text)
  | 0, _ => none
  | fuel + 1, text =>
    match closing? quote text, text with
    | some ending, _ => some ending
    | none, [] => none
    | none, c :: rest =>
      let keep (kept : Text) (rest : Text) : Option (Text × Text) :=
        (lines? quote escapes fuel rest).map fun (text, rest) => (kept ++ text, rest)
      if escapes ∧ c = '\\' then
        match continued? rest with
        | some rest => keep [] rest
        | none => (escape? rest).bind fun (d, rest) => keep [d] rest
      else if c = '\r' then
        match rest with
        | '\n' :: rest => keep ['\r', '\n'] rest
        | _ => none
      else if c = '\n' ∨ isVisible c then keep [c] rest
      else none

/-- The string at the start of a text, if one starts there, and the text after it. A line break
right after three quotes does not belong to it. -/
def string? (text : Text) : Option (Text × Text) :=
  match text with
  | '"' :: '"' :: '"' :: rest => lines? '"' true (rest.length + 1) (Text.dropBreak rest)
  | '\'' :: '\'' :: '\'' :: rest => lines? '\'' false (rest.length + 1) (Text.dropBreak rest)
  | '"' :: rest => basic? (rest.length + 1) rest
  | '\'' :: rest => raw? rest
  | _ => none

/-! ## Numbers -/

/-- The digits of a number without the underscores between them; nothing when an underscore does
not stand between two digits, or when there is no digit. -/
def joinDigits? (isDigit : Char → Bool) : Text → Option Text
  | [] => none
  | c :: rest =>
    if !isDigit c then none
    else
      match rest with
      | [] => some [c]
      | '_' :: rest => (joinDigits? isDigit rest).map (c :: ·)
      | rest => (joinDigits? isDigit rest).map (c :: ·)

/-- A whole number in a base given by its digits. -/
def radix? (base : Nat) (text : Text) : Option Int :=
  (joinDigits? (fun c => (Text.hexValue? c).any (· < base)) text).map fun digits =>
    digits.foldl (fun n c => base * n + (Text.hexValue? c).getD 0) 0

/-- The digits of a decimal number, which start with zero only if it is the only one. -/
def decimal? (text : Text) : Option Text :=
  (joinDigits? Char.isDigit text).filter fun digits => digits.head? ≠ some '0' ∨ digits.length = 1

/-- The whole numbers that are read: those of 128 bits, with a sign or without. -/
def ofInt (n : Int) : Toml := if -(twoPow 127) ≤ n ∧ n < twoPow 128 then .int n else .overflow

/-- A floating point number; one beyond all finite numbers is too large. -/
def ofBinary64 (x : Binary64) : Toml := if x.isFinite then .float x else .overflow

/-- The exponent of a number after its mark: a sign or none, and digits. -/
def exponent? (text : Text) : Option Int :=
  let value? (digits : Text) : Option Int :=
    (joinDigits? Char.isDigit digits).map fun digits => (Text.decimalValue digits : Int)
  match text with
  | '-' :: digits => (value? digits).map (- ·)
  | '+' :: digits => value? digits
  | digits => value? digits

/-- The floating point number that a text without a sign spells: a decimal number with a fraction,
an exponent or both. -/
def float? (negative : Bool) (text : Text) : Option Toml := do
  let mantissa := text.takeWhile fun c => c != 'e' && c != 'E'
  let exponent ← match text.drop mantissa.length with
    | [] => some 0
    | _ :: rest => exponent? rest
  let whole ← decimal? (mantissa.takeWhile (· != '.'))
  let fraction ← match mantissa.dropWhile (· != '.') with
    | [] => some []
    | _ :: rest => joinDigits? Char.isDigit rest
  some (ofBinary64 (.ofDecimal negative (Text.decimalValue (whole ++ fraction))
    (exponent - fraction.length)))

/-- The number that a text without a sign spells. -/
def number? (negative : Bool) (text : Text) : Option Toml :=
  if text = "inf".toList then some (.float (.infinite negative))
  else if text = "nan".toList then some (.float .nan)
  else if text.any fun c => c == '.' || c == 'e' || c == 'E' then float? negative text
  else
    (decimal? text).map fun digits =>
      let n : Int := Text.decimalValue digits
      ofInt (if negative then -n else n)

/-- The value of a scalar without quotes. -/
def scalar? (text : Text) : Option Toml :=
  match text with
  | '-' :: rest => number? true rest
  | '+' :: rest => number? false rest
  | '0' :: 'x' :: digits => (radix? 16 digits).map ofInt
  | '0' :: 'o' :: digits => (radix? 8 digits).map ofInt
  | '0' :: 'b' :: digits => (radix? 2 digits).map ofInt
  | text =>
    if text = "true".toList then some (.bool true)
    else if text = "false".toList then some (.bool false)
    else
      match datetime? text with
      | some text => some (.datetime text)
      | none => number? false text

end DocumentLayout.Toml
