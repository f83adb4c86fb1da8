import DocumentLayout.Text.Line

/-!
# Markers of lines

What the start of a line says about the block that it opens or continues. A marker may be indented
by up to three columns; a line indented further is code.
-/

namespace DocumentLayout.Marker

open Text (isIndent isSpace isBlank blockStart? indentation stripColumns trim trimEnd trimStart)

/-! ## Fences -/

/-- The opening of a fenced code block: the character of the fence, how often it stands there, and
the words after it. -/
structure Fence where
  symbol : Char
  length : Nat
  info : Text
  deriving DecidableEq, Repr, Inhabited

/-- The number of times `c` stands at the start of a text. -/
def run (c : Char) (text : Text) : Nat := (text.takeWhile (· == c)).length

/-- Three or more backquotes or tildes. The words after backquotes hold no backquote, so that
code inside a line does not open a block. -/
def fence? (line : Text) : Option Fence :=
  match blockStart? line with
  | some (c :: rest) =>
    if c == '\x60' || c == '~' then
      let length := run c (c :: rest)
      let info := trim ((c :: rest).drop length)
      if length < 3 then none
      else if c == '\x60' && info.contains '\x60' then none
      else some ⟨c, length, info⟩
    else none
  | _ => none

/-- Whether a line closes a fence: the same character at least as often, and nothing else. -/
def Fence.isClosedBy (fence : Fence) (line : Text) : Bool :=
  match blockStart? line with
  | some rest =>
    let count := run fence.symbol rest
    fence.length ≤ count && isBlank (rest.drop count)
  | none => false

/-! ## Headings and breaks -/

/-- The depth of a heading that opens with one to six `#` and then ends or goes on with a space or
a tab. -/
def headingDepth? (line : Text) : Option Nat :=
  (blockStart? line).bind fun rest =>
    let depth := run '#' rest
    if 1 ≤ depth ∧ depth ≤ 6 ∧ (rest.drop depth).head?.all isIndent then some depth else none

/-- Whether a line consists of three or more `*`, `-` or `_`, all the same, with spaces and tabs
between them. -/
def isThematicBreak (line : Text) : Bool :=
  match blockStart? line with
  | some (c :: rest) =>
    (c == '*' || c == '-' || c == '_') &&
      (c :: rest).all (fun d => isIndent d || d == c) && 3 ≤ (c :: rest).count c
  | _ => false

/-- The depth of the heading that a line makes of the line above it: `=` throughout for one and
`-` throughout for two. -/
def underlineDepth? (line : Text) : Option Nat :=
  match (blockStart? line).map trimEnd with
  | some (c :: rest) =>
    if (c :: rest).all (· == '=') then some 1
    else if (c :: rest).all (· == '-') then some 2
    else none
  | _ => none

/-! ## Quotes and HTML -/

/-- The line after the `>` that it opens with. -/
def quoted? (line : Text) : Option Text := (blockStart? line).bind (Text.dropPrefix? ['>'])

/-- Whether a line opens with `<` and a letter, `/`, `!` or `?`. -/
def isHtmlStart (line : Text) : Bool :=
  match blockStart? line with
  | some ('<' :: c :: _) => c.isAlpha || c == '/' || c == '!' || c == '?'
  | _ => false

/-! ## List items -/

/-- The opening of a list item. -/
structure ListMarker where
  ordered : Bool
  /-- The bullet, or the character after the number. -/
  symbol : Char
  /-- The columns from the start of the line to the content of the item. -/
  contentIndent : Nat
  /-- The content on the line of the marker. -/
  content : Text
  /-- Whether there is content on the line of the marker. -/
  hasContent : Bool
  /-- Whether the number of the item is one. -/
  startsAtOne : Bool
  deriving DecidableEq, Repr, Inhabited

/-- Whether an item belongs to the list that another one opens. -/
def ListMarker.continues (marker other : ListMarker) : Bool :=
  marker.ordered == other.ordered && marker.symbol == other.symbol

/-- The bullet or the number of a list item: whether it is a number, its last character, its width
and whether it is the number one. A number has at most nine digits. -/
def bullet? (rest : Text) : Option (Bool × Char × Nat × Bool) :=
  let digits := rest.takeWhile Char.isDigit
  match rest.drop digits.length with
  | c :: _ =>
    if digits = [] then
      if c == '-' || c == '+' || c == '*' then some (false, c, 1, false) else none
    else if digits.length ≤ 9 && (c == '.' || c == ')') then
      some (true, c, digits.length + 1, Text.decimalValue digits == 1)
    else none
  | [] => none

/-- The columns between a bullet and the content that follows it. Five or more mean that the
content is code, which starts one column after the bullet. -/
def spacing (after : Text) : Nat :=
  if isBlank after then 1
  else if Text.tabWidth < indentation after then 1
  else indentation after

/-- The list item that a line opens. A space, a tab or the end of the line follows the bullet. -/
def listItem? (line : Text) : Option ListMarker :=
  (blockStart? line).bind fun rest =>
    (bullet? rest).bind fun (ordered, symbol, width, startsAtOne) =>
      let after := rest.drop width
      if after.head?.all isIndent then
        some {
          ordered, symbol, startsAtOne
          contentIndent := indentation line + width + spacing after
          content := stripColumns after (spacing after)
          hasContent := !isBlank after }
      else none

/-! ## Tables -/

/-- A text without the character `c` at its start. -/
def dropFront (c : Char) : Text → Text
  | [] => []
  | d :: rest => if d = c then rest else d :: rest

/-- A text without the character `c` at its end. -/
def dropBack (c : Char) (text : Text) : Text := (Text.dropLast? c text).getD text

/-- Whether a cell of a delimiter row holds dashes only, with a colon before or after them. -/
def isDelimiterCell (cell : Text) : Bool :=
  let dashes := dropBack ':' (dropFront ':' (trim cell))
  dashes != [] && dashes.all (· == '-')

/-- Whether a line separates the header of a table from its rows. -/
def isDelimiterRow (line : Text) : Bool :=
  match blockStart? line with
  | some rest =>
    let row := dropBack '|' (dropFront '|' (trim rest))
    row != [] && (List.splitOn '|' row).all isDelimiterCell
  | none => false

/-! ## Ends of paragraphs -/

/-- Whether a line ends the paragraph above it although no blank line stands between them. -/
def interruptsParagraph (line : Text) : Bool :=
  (fence? line).isSome || (headingDepth? line).isSome || isThematicBreak line ||
    (quoted? line).isSome || isHtmlStart line ||
    (listItem? line).any fun marker => marker.hasContent && (!marker.ordered || marker.startsAtOne)

end DocumentLayout.Marker
