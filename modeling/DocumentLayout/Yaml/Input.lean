import DocumentLayout.Text.Hex

/-!
# Input of the YAML lexer

The characters that are left and where they start. Lines and columns matter to YAML: indentation
is its block structure, and a key has to stand on one line.
-/

namespace DocumentLayout.Yaml

/-! ## Characters -/

/-- Line breaks: carriage return, line feed, next line, line separator, paragraph separator. -/
def isBreak (c : Char) : Bool :=
  c == '\r' || c == '\n' || c == '\u0085' || c == '\u2028' || c == '\u2029'

/-- The white space inside a line. -/
def isBlank (c : Char) : Bool := c == ' ' || c == '\t'

/-- White space of any kind. -/
def isBlankOrBreak (c : Char) : Bool := isBlank c || isBreak c

/-- The characters of names of anchors, tag handles and directives. -/
def isNameChar (c : Char) : Bool := c.isAlphanum || c == '_' || c == '-'

/-- Whether a document may hold a character at all. -/
def isAllowed (c : Char) : Bool :=
  let n := c.toNat
  n == 0x9 || n == 0xA || n == 0xD || (0x20 ≤ n && n ≤ 0x7E) || n == 0x85 ||
  (0xA0 ≤ n && n ≤ 0xD7FF) || (0xE000 ≤ n && n ≤ 0xFFFD) || 0x10000 ≤ n

/-- Whether a text ends or goes on with white space. -/
def endsOrBlank (text : Text) : Bool := text.head?.all isBlankOrBreak

/-! ## Positions -/

/-- The text that is left, the line and column where it starts, and the characters before it. -/
structure Input where
  rest : Text
  line : Nat
  column : Nat
  index : Nat
  deriving Repr, Inhabited

namespace Input

/-- The start of a text. -/
def ofText (text : Text) : Input := ⟨text, 0, 0, 0⟩

/-- The input after `count` characters of the same line. -/
def advance (input : Input) (count : Nat) : Input :=
  { input with
    rest := input.rest.drop count
    column := input.column + count
    index := input.index + count }

/-- The input after the characters that satisfy `p`, none of which may be a line break, and these
characters. -/
def takeWhile (p : Char → Bool) (input : Input) : Text × Input :=
  let taken := input.rest.takeWhile p
  (taken, input.advance taken.length)

/-- The input after the characters that satisfy `p`. -/
def skipWhile (p : Char → Bool) (input : Input) : Input := (input.takeWhile p).2

/-- The line break that comes next, as content, and the input after it. CRLF, CR, LF and next line
count as a line feed; the two separators stand for themselves. -/
def takeBreak (input : Input) : Text × Input :=
  let next (text : Text) (count : Nat) : Text × Input :=
    (text, ⟨input.rest.drop count, input.line + 1, 0, input.index + count⟩)
  match input.rest with
  | '\r' :: '\n' :: _ => next ['\n'] 2
  | c :: _ =>
    if c == '\u2028' || c == '\u2029' then next [c] 1
    else if isBreak c then next ['\n'] 1
    else ([], input)
  | [] => ([], input)

/-- The first of the characters that are left. -/
def peek? (input : Input) : Option Char := input.rest.head?

/-- Whether a marker of three characters starts a line and ends there as a word. -/
def startsMarker (marker : Text) (input : Input) : Bool :=
  input.column == 0 && ((Text.dropPrefix? marker input.rest).map endsOrBlank).getD false

/-- Whether a line that opens or closes a document comes next. -/
def startsDocumentMarker (input : Input) : Bool :=
  input.startsMarker "---".toList || input.startsMarker "...".toList

/-- The input after a comment, if there is one, up to the end of the line. -/
def skipComment (input : Input) : Input :=
  if input.peek? = some '#' then input.skipWhile (!isBreak ·) else input

end Input

end DocumentLayout.Yaml
