import DocumentLayout.Yaml.Input
import DocumentLayout.Yaml.Plain

/-!
# Scalars as they are written

A string is written plain where it reads back as itself, as a block of lines where it has line
feeds, and between quotes where neither will do. Single quotes are preferred to double quotes,
which alone can hold any character.
-/

namespace DocumentLayout.Yaml

/-! ## What a string is like -/

/-- Whether a character can be written as it is. -/
def isWritable (c : Char) : Bool :=
  let n := c.toNat
  n == 0xA || (0x20 ≤ n && n ≤ 0x7E) || (0xA0 ≤ n && n ≤ 0xD7FF) ||
  (0xE000 ≤ n && n ≤ 0xFFFD && n != 0xFEFF) || 0x10000 ≤ n

/-- Whether a character of the first kind stands right before one of the second. -/
def hasPair (first second : Char → Bool) : Text → Bool
  | c :: d :: rest => (first c && second d) || hasPair first second (d :: rest)
  | _ => false

/-- Whether a text starts with an indicator, which would give it another meaning. -/
def startsIndicator (text : Text) : Bool :=
  match text with
  | [] => false
  | c :: rest =>
    "#,[]\x7b\x7d&*!|>'\"%@\x60".toList.contains c ||
      ("?:-".toList.contains c && endsOrBlank rest) ||
      List.isPrefixOf "---".toList text || List.isPrefixOf "...".toList text

/-- Whether a colon that ends a key or a mark that starts a comment stands inside a text. -/
def holdsIndicator : Text → Bool
  | [] => false
  | c :: rest =>
    (c == ':' && endsOrBlank rest) || (isBlankOrBreak c && rest.head? == some '#') ||
    holdsIndicator rest

/-- Whether a text reads back as itself without quotes, if only as a string. -/
def isPlain (text : Text) : Bool :=
  text.all (fun c => isWritable c && !isBreak c) && text.head?.any (· != ' ') &&
  text.getLast?.any (· != ' ') && !startsIndicator text && !holdsIndicator text

/-- Whether a text may stand between single quotes. -/
def isSingleQuotable (text : Text) : Bool :=
  text.all isWritable &&
  !hasPair isBreak (· == ' ') text && !hasPair (· == ' ') isBreak text

/-- Whether a text may stand as a block of lines. -/
def isLiteral (text : Text) : Bool :=
  text.all isWritable &&
  text.getLast?.any (· != ' ') && !hasPair (· == ' ') isBreak text

/-- Whether a text without quotes would be read as something else than a string. -/
def needsQuotes (text : Text) : Bool :=
  match plainValue? text with
  | some (.string _) => hasLeadingZero text
  | _ => true

/-! ## Ways to write it -/

/-- `count` spaces. -/
def spaces (count : Nat) : Text := List.replicate count ' '

/-- The characters of a text between single quotes. A line that a break starts is indented, and a
quote is doubled. -/
def singleQuotedChars (indent : Nat) (atStart : Bool) : Text → Text
  | [] => if atStart then spaces indent else []
  | c :: rest =>
    if isBreak c then c :: singleQuotedChars indent true rest
    else
      (if atStart then spaces indent else []) ++ (if c = '\'' then ['\'', '\''] else [c]) ++
        singleQuotedChars indent false rest

/-- A text between single quotes. -/
def singleQuoted (indent : Nat) (text : Text) : Text :=
  '\'' :: singleQuotedChars indent false text ++ ['\'']

/-- A number in base sixteen with at least `width` digits, in upper case. -/
def upperHex (width n : Nat) : Text := Text.upperAscii (Text.paddedHex width n)

/-- A character between double quotes. -/
def escape (c : Char) : Text :=
  if isWritable c ∧ ¬ isBreak c ∧ c ≠ '"' ∧ c ≠ '\\' then [c]
  else
    '\\' :: match c with
      | '\x00' => ['0']
      | '\x07' => ['a']
      | '\x08' => ['b']
      | '\t' => ['t']
      | '\n' => ['n']
      | '\x0b' => ['v']
      | '\x0c' => ['f']
      | '\r' => ['r']
      | '\x1b' => ['e']
      | '"' => ['"']
      | '\\' => ['\\']
      | '\u0085' => ['N']
      | '\u2028' => ['L']
      | '\u2029' => ['P']
      | c =>
        let n := c.toNat
        if n ≤ 0xFF then 'x' :: upperHex 2 n
        else if n ≤ 0xFFFF then 'u' :: upperHex 4 n
        else 'U' :: upperHex 8 n

/-- A text between double quotes. -/
def doubleQuoted (text : Text) : Text := '"' :: text.flatMap escape ++ ['"']

/-- The lines of a block, each indented unless it is empty. -/
def literalLines (indent : Nat) (atStart : Bool) : Text → Text
  | [] => []
  | c :: rest =>
    if isBreak c then c :: literalLines indent true rest
    else (if atStart then spaces indent else []) ++ c :: literalLines indent false rest

/-- How many columns each level is indented. -/
def indentStep : Nat := 2

/-- What the first line of a block says about it: the indentation when its first character is
white space, and whether it has no line break at its end or more than one. -/
def literalHints (text : Text) : Text :=
  let start := if text.head?.any fun c => c == ' ' || isBreak c then Text.ofNat indentStep else []
  let stop := match text.reverse with
    | last :: others =>
      if !isBreak last then ['-']
      else if others.head?.all isBreak then ['+']
      else []
    | [] => ['-']
  start ++ stop

/-- A text as a block of lines. -/
def literal (indent : Nat) (text : Text) : Text :=
  '|' :: literalHints text ++ '\n' :: literalLines indent true text

/-- A string as it is written with `indent` columns in front of each further line. -/
def writeString (indent : Nat) (text : Text) : Text :=
  if text.contains '\n' then
    if isLiteral text then literal indent text else doubleQuoted text
  else if isPlain text ∧ ¬ needsQuotes text then text
  else if isSingleQuotable text then singleQuoted indent text
  else doubleQuoted text

/-- How floating point numbers are written: no plus sign in an exponent. -/
def numbers : Decimal.Style := ⟨[], ".inf".toList, ".nan".toList⟩

end DocumentLayout.Yaml
