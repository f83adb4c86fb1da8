import DocumentLayout.Markdown.Inline.Address
import DocumentLayout.Markdown.Inline.Emphasis
import DocumentLayout.Markdown.Tag

/-!
# Reading inline content

A text is read from left to right. Code, tags and addresses are taken whole, brackets become links
once they are closed, and emphasis is resolved last.
-/

namespace DocumentLayout.Markdown

/-- What the labels in a text can refer to. -/
structure References where
  targets : Targets
  /-- The labels of notes. -/
  notes : List Text
  deriving Repr, Inhabited

/-- The target of a label as it is written. -/
def References.target? (references : References) (label : Text) : Option Target :=
  references.targets.lookup (normalizedLabel label)

/-! ## Code -/

/-- The text of code as it is meant: line breaks are spaces, and one space on each side that keeps
the text from its marks is left out. -/
def codeText (text : Text) : Text :=
  let text := text.map fun c => if c = '\n' then ' ' else c
  if text.head? = some ' ' ∧ text.getLast? = some ' ' ∧ text.any (· != ' ') then
    (text.drop 1).dropLast
  else text

/-- The text up to the next run of exactly `count` marks, and the text after that run. `run` counts
the marks just before the text. -/
def untilMarks? (count run : Nat) : Text → Option (Text × Text)
  | [] => if run = count then some ([], []) else none
  | c :: rest =>
    if c = '\x60' then untilMarks? count (run + 1) rest
    else if run = count then some ([], c :: rest)
    else
      (untilMarks? count 0 rest).map fun (text, rest) =>
        (List.replicate run '\x60' ++ c :: text, rest)

/-- The code at the start of a text, or the marks alone when nothing closes them, and the text after
it. -/
def codeSpan (text : Text) : Inline × Text :=
  let marks := text.takeWhile (· == '\x60')
  let rest := text.drop marks.length
  match untilMarks? marks.length 0 rest with
  | some (code, rest) => (.code (codeText code), rest)
  | none => (.text marks, rest)

/-! ## Pieces -/

/-- The white space at the start of a text, and the text after it. Around a line break it is left
out; two spaces before one make it hard. -/
def spacing? (text : Text) : Option (Inline × Text) :=
  let blanks := text.takeWhile Text.isIndent
  match text.drop blanks.length with
  | [] => some (.text [], [])
  | '\n' :: rest =>
    let hard := 2 ≤ blanks.length ∧ blanks.all (· == ' ')
    some (if hard then .hardBreak else .softBreak, Text.trimIndent rest)
  | rest => if blanks = [] then none else some (.text blanks, rest)

/-- The piece at the start of a text that is told by its first characters, and the text after it. -/
def inline? (previous : Option Char) (text : Text) : Option (Inline × Text) :=
  match text with
  | '\\' :: '\n' :: rest => some (.hardBreak, Text.trimIndent rest)
  | '\\' :: c :: rest => if Text.isAsciiPunctuation c then some (.escaped [c], rest) else none
  | '&' :: rest => (reference? rest).map fun (characters, rest) => (.escaped characters, rest)
  | '\x60' :: _ => some (codeSpan text)
  | '<' :: rest =>
    ((enclosedAddress? rest).or (enclosedMailbox? rest)).or <|
      (afterTag? rest).map fun after => (.tag (text.take (text.length - after.length)), after)
  | c :: _ => if isSpacing c then spacing? text else webAddress? previous text
  | [] => none

/-- The run of marks at the start of a text, and the text after it. -/
def run? (previous : Option Char) (text : Text) : Option (Run × Text) :=
  match text with
  | mark :: _ =>
    if isEmphasisMark mark then
      let count := (text.takeWhile (· == mark)).length
      let rest := text.drop count
      some (Run.between previous mark count rest.head?, rest)
    else none
  | [] => none

/-! ## Brackets -/

/-- The nearest opening bracket: the parts after it in order, whether it is of an image and still of
use, the text after it, and the parts before it. Parts are given from the last one back. -/
def bracket? : List Piece → Option (List Piece × Bool × Bool × Text × List Piece)
  | [] => none
  | .bracket image active after :: earlier => some ([], image, active, after, earlier)
  | piece :: earlier =>
    (bracket? earlier).map fun (inner, image, active, after, earlier) =>
      (inner ++ [piece], image, active, after, earlier)

/-- The target of the text between brackets, and the text after it. It is given in parentheses, or
by a label in brackets, or the text itself is the label. -/
def linkTarget? (references : References) (label : Text) (rest : Text) : Option (Target × Text) :=
  let own := references.target? label
  match rest with
  | '(' :: after => (target? after).or (own.map (·, rest))
  | '[' :: ']' :: after => own.map (·, after)
  | '[' :: after =>
    (label? after).bind fun (label, after) => (references.target? label).map (·, after)
  | rest => own.map (·, rest)

/-- Parts in which no opening bracket of a link is of use any more: there are no links in links. -/
def deactivate (pieces : List Piece) : List Piece :=
  pieces.map fun
    | .bracket false _ after => .bracket false false after
    | piece => piece

/-- The parts after a closing bracket, and the text after them. -/
def closeBracket (references : References) (rest : Text) (pieces : List Piece) :
    List Piece × Text :=
  match bracket? pieces with
  | none => (.inline (.text [']']) :: pieces, rest)
  | some (inner, image, active, after, earlier) =>
    let unused : List Piece × Text :=
      let opening := Piece.inline (Piece.bracket image active after).toInline
      (.inline (.text [']']) :: inner.reverse ++ opening :: earlier, rest)
    let label := after.take (after.length - rest.length - 1)
    let note := normalizedLabel (label.drop 1)
    if ¬ active then unused
    else if label.head? = some '^' ∧ references.notes.contains note then
      (.inline (.call note) :: earlier, rest)
    else
      match linkTarget? references label rest with
      | none => unused
      | some (target, rest) =>
        let content := Piece.content inner
        if image then (.inline (.image target content) :: earlier, rest)
        else (.inline (.link target content) :: deactivate earlier, rest)

/-! ## Texts -/

/-- The parts of a text, from the last one back, by a count of steps that is the length of the
text at least. `previous` is the character before the text, and `pieces` are the parts so far. -/
def piecesWithin (references : References) :
    Nat → Option Char → Text → List Piece → List Piece
  | 0, _, _, pieces => pieces
  | steps + 1, previous, text, pieces =>
    let next (rest : Text) (pieces : List Piece) : List Piece :=
      let last := (text.take (text.length - rest.length)).getLast?
      piecesWithin references steps last rest pieces
    if let some (inline, rest) := inline? previous text then next rest (.inline inline :: pieces)
    else if let some (run, rest) := run? previous text then next rest (.run run :: pieces)
    else
      match text with
      | [] => pieces
      | '[' :: rest => next rest (.bracket false true rest :: pieces)
      | ']' :: rest =>
        let (pieces, rest) := closeBracket references rest pieces
        next rest pieces
      | '!' :: '[' :: rest =>
        if rest.head? = some '^' then
          next ('[' :: rest) (.inline (.text ['!']) :: pieces)
        else next rest (.bracket true true rest :: pieces)
      | c :: rest => piecesWithin references steps (some c) rest (.inline (.text [c]) :: pieces)

/-- The content of a text that follows a character. -/
def contentAfter (references : References) (previous : Option Char) (text : Text) : List Inline :=
  Inline.allWithMailboxes
    (Piece.content (piecesWithin references text.length previous text []).reverse)

/-- The content of a text. -/
def inlinesOf (references : References) (text : Text) : List Inline :=
  contentAfter references none text

/-- The box of a task at the start of a text, whether it is ticked, and the text after it. -/
def checkbox? (text : Text) : Option (Bool × Text) :=
  match text with
  | '[' :: c :: ']' :: rest =>
    let done := c = 'x' ∨ c = 'X'
    if (done ∨ isSpacing c) ∧ rest.head?.any isSpacing ∧ rest.any (!Text.isIndent ·) then
      some (done, rest)
    else none
  | _ => none

/-- The content of the first paragraph of an item, which may be a task. -/
def taskOf (references : References) (text : Text) : List Inline :=
  match checkbox? text with
  | some (done, rest) => .checkbox done :: contentAfter references (some ']') rest
  | none => inlinesOf references text

end DocumentLayout.Markdown
