import DocumentLayout.Block.Marker
import DocumentLayout.Block.Tokenizer
import DocumentLayout.Statement.Grammar

/-!
# Tokenizers of leaf blocks

The blocks that hold no blocks. Each is read off the lines of the text that is left, and claims
whole lines.
-/

namespace DocumentLayout

open Marker

namespace Line

/-- The first lines up to and with the first one that satisfies `p`; nothing when none does. -/
def through? (p : Line → Bool) : List Line → Option (List Line)
  | [] => none
  | line :: lines => if p line then some [line] else (through? p lines).map (line :: ·)

/-- The lines that go on with a block of prose: up to the first that is blank or interrupts a
paragraph. -/
def prose (lines : List Line) : List Line :=
  lines.takeWhile fun line => !line.isBlank && !interruptsParagraph line.text

end Line

namespace Block

/-! ## Blank lines -/

/-- All blank lines at the start of a text. They make no block. -/
def blankLines (lines : List Line) : Option Claim :=
  match lines.takeWhile Line.isBlank with
  | [] => none
  | blank => some (.skip (Line.totalSize blank))

/-! ## Code -/

/-- The lines of indented code: blank lines belong to it only when more code follows them. -/
def codeLines : List Line → List Line
  | [] => []
  | line :: lines =>
    if line.isBlank then
      match codeLines lines with
      | [] => []
      | code => line :: code
    else if Text.tabWidth ≤ Text.indentation line.text then line :: codeLines lines
    else []

/-- Code that is indented by four columns or more. -/
def indentedCode (lines : List Line) : Option Claim :=
  match codeLines lines with
  | [] => none
  | code => some (.leaf (Line.totalSize code) (.code false none))

/-- Code between fences. A fence that is never closed runs to the end of the text. -/
def fencedCode : List Line → Option Claim
  | [] => none
  | line :: lines =>
    (fence? line.text).map fun fence =>
      let inside := (Line.through? (fence.isClosedBy ·.text) lines).getD lines
      .leaf (line.size + Line.totalSize inside)
        (.code true (if fence.info = [] then none else some fence.info))

/-! ## Headings and breaks -/

/-- A heading that opens with `#`. -/
def atxHeading : List Line → Option Claim
  | [] => none
  | line :: _ => (headingDepth? line.text).map fun depth => .leaf line.size (.heading depth)

/-- A line of `*`, `-` or `_`. -/
def thematicBreak : List Line → Option Claim
  | [] => none
  | line :: _ => if isThematicBreak line.text then some (.leaf line.size .thematicBreak) else none

/-- A heading that is underlined with `=` or `-`. -/
def setextHeading : List Line → Option Claim
  | title :: underline :: _ =>
    if title.isBlank || (Text.blockStart? title.text).isNone then none
    else
      (underlineDepth? underline.text).map fun depth =>
        .leaf (title.size + underline.size) (.heading depth)
  | _ => none

/-! ## HTML -/

/-- Whether a line opens a comment. -/
def opensComment (line : Line) : Bool :=
  List.isPrefixOf "<!--".toList (Text.trimStart line.text)

/-- Whether a line closes a comment. -/
def closesComment (line : Line) : Bool := Text.includes "-->".toList line.text

/-- Raw HTML. A comment runs to the line that closes it, blank lines included, and to the end of
the text when none does; anything else runs to the next blank line. -/
def html : List Line → Option Claim
  | [] => none
  | line :: lines =>
    if isHtmlStart line.text then
      let rest :=
        if opensComment line then
          if closesComment line then [] else (Line.through? closesComment lines).getD lines
        else lines.takeWhile (!·.isBlank)
      some (.leaf (line.size + Line.totalSize rest) .html)
    else none

/-! ## Tables and paragraphs -/

/-- A header, a delimiter row and the lines of prose below them. -/
def table : List Line → Option Claim
  | header :: delimiter :: lines =>
    if (Text.blockStart? header.text).isSome && header.text.contains '|' &&
        isDelimiterRow delimiter.text then
      some (.leaf (header.size + delimiter.size + Line.totalSize (Line.prose lines)) .table)
    else none
  | _ => none

/-- Whatever is left: the first line and the lines of prose below it. A blank line alone makes no
block. -/
def paragraph : List Line → Option Claim
  | [] => none
  | line :: lines =>
    if line.isBlank then some (.skip line.size)
    else some (.leaf (line.size + Line.totalSize (Line.prose lines)) .paragraph)

/-! ## Statements -/

/-- The claim of a statement block. -/
def statement (text : Text) : Option Claim :=
  (StatementBlock.read? text).map fun block =>
    .leaf (Text.byteLength block.text) (.statement block)

/-- Whether a statement block may start at the start of a text, and if not, where the next line
starts. Only the first line is looked at. -/
def locateStatement (text : Text) : Locate :=
  if Statement.opensLine text then .at 0
  else
    match Text.cutLine text with
    | (line, some (_ :: _)) => .at (Text.byteLength line + 1)
    | _ => .never

end Block

end DocumentLayout
