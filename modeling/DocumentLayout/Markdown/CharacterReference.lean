import DocumentLayout.Markdown.CharacterName
import DocumentLayout.Text.Hex
import DocumentLayout.Text.Punctuation

/-!
# Escapes and character references

A backslash takes away the meaning of the punctuation after it. An ampersand, a name or a number and
a semicolon stand for a character.
-/

namespace DocumentLayout.Markdown

/-- The character that stands for one that a document must not hold. -/
def replacementChar : Char := '\ufffd'

/-- Whether a number of a reference stands for itself: no control character, no surrogate and no
code point without a meaning. -/
def isReferable (n : Nat) : Bool :=
  !(n ≤ 8 || n == 0xB || (0xE ≤ n && n ≤ 0x1F) || (0x7F ≤ n && n ≤ 0x9F) ||
    (0xFDD0 ≤ n && n ≤ 0xFDEF) || n % 0x10000 == 0xFFFE || n % 0x10000 == 0xFFFF)

/-- The character with a number. -/
def numbered (n : Nat) : Char :=
  if isReferable n then (Text.ofCodePoint? n).getD replacementChar else replacementChar

/-- The number that digits in base sixteen spell. -/
def hexValue (digits : Text) : Nat :=
  digits.foldl (fun n c => 16 * n + (Text.hexValue? c).getD 0) 0

/-- The characters of an entry of the table of names. -/
def charactersOf (codes : String) : Text :=
  (List.splitOn '+' codes.toList).filterMap fun code => Text.ofCodePoint? (hexValue code)

/-- The entry for a name among words in which each name is followed by its entry. -/
def lookupName (name : String) : List String → Option String
  | key :: codes :: rest => if key = name then some codes else lookupName name rest
  | _ => none

/-- The characters that a name stands for. -/
def named? (name : Text) : Option Text :=
  match name with
  | [] => none
  | c :: _ =>
    let words := ((namesFrom c).splitOn "\n").flatMap fun line =>
      (line.splitOn " ").filter (· != "")
    (lookupName (String.ofList name) words).map charactersOf

/-- The text up to a semicolon, of at most `limit` characters of a kind and at least one, and the
text after the semicolon. -/
def untilSemicolon? (isPart : Char → Bool) (limit : Nat) (text : Text) : Option (Text × Text) :=
  let part := text.takeWhile isPart
  match text.drop part.length with
  | ';' :: rest => if part = [] ∨ limit < part.length then none else some (part, rest)
  | _ => none

/-- The characters that a reference stands for, after its ampersand, and the text after it. -/
def reference? (text : Text) : Option (Text × Text) :=
  match text with
  | '#' :: 'x' :: rest | '#' :: 'X' :: rest =>
    (untilSemicolon? (fun c => (Text.hexValue? c).isSome) 6 rest).map fun (digits, rest) =>
      ([numbered (hexValue digits)], rest)
  | '#' :: rest =>
    (untilSemicolon? Char.isDigit 7 rest).map fun (digits, rest) =>
      ([numbered (Text.decimalValue digits)], rest)
  | rest =>
    (untilSemicolon? Char.isAlphanum 31 rest).bind fun (name, rest) =>
      (named? name).map fun characters => (characters, rest)

/-- A text with its escapes and references replaced by what they stand for, by a count of steps that
is the length of the text at least. -/
def unescapeWithin : Nat → Text → Text
  | 0, text => text
  | _, [] => []
  | steps + 1, '\\' :: c :: rest =>
    if Text.isAsciiPunctuation c then c :: unescapeWithin steps rest
    else '\\' :: unescapeWithin steps (c :: rest)
  | steps + 1, '&' :: rest =>
    match reference? rest with
    | some (characters, rest) => characters ++ unescapeWithin steps rest
    | none => '&' :: unescapeWithin steps rest
  | steps + 1, c :: rest => c :: unescapeWithin steps rest

/-- A text with its escapes and references replaced by what they stand for. -/
def unescape (text : Text) : Text := unescapeWithin text.length text

end DocumentLayout.Markdown
