import DocumentLayout.Text.Line

/-!
# The fence of front matter

A document may open with a block between two delimiter lines. The opening line may name the
language of the block, the closing line is the delimiter alone, and what follows the line break
after it is the body.
-/

namespace DocumentLayout.FrontMatter

/-- The delimiter of documents that do not choose one. -/
def defaultDelimiter : Text := "---".toList

/-- The mark that a text may start with to show how it is encoded. It belongs to no part of a
document. -/
def byteOrderMark : Char := '\ufeff'

/-- A text without the byte order mark it may start with, and that mark. -/
def cutMark : Text → Text × Text
  | c :: text => if c = byteOrderMark then ([c], text) else ([], c :: text)
  | [] => ([], [])

/-- A document with a fenced block: the language it names, which may be empty, the lines between the
two delimiter lines, the whole block up to the end of its closing line, and the body. -/
structure Fenced where
  language : Text
  source : Text
  matter : Text
  body : Text
  deriving DecidableEq, Repr, Inhabited

/-- How a text stands to a delimiter: it opens no block, it opens one that no line closes, or it has
a block. -/
inductive Opening where
  | absent
  | unclosed
  | fenced (parts : Fenced)
  deriving DecidableEq, Repr, Inhabited

/-! ## The closing line -/

/-- A line without the carriage return it may end in. -/
def dropReturn (line : Text) : Text := (Text.dropLast? '\r' line).getD line

/-- Whether a line closes a block: it is the delimiter with at most white space after it. -/
def closes (delimiter line : Text) : Bool :=
  match Text.dropPrefix? delimiter (dropReturn line) with
  | some rest => Text.isBlank rest
  | none => false

/-- The lines before the first line that closes a block, that line without its line break, and all
the rest of the text, which starts with the line break. -/
def cutAtClose? (delimiter : Text) : List Line → Option (Text × Text × Text)
  | [] => none
  | line :: lines =>
    if closes delimiter line.text then
      let closing := dropReturn line.text
      some ([], closing, line.text.drop closing.length ++
        (if line.broken then ['\n'] else []) ++ Line.toText lines)
    else
      (cutAtClose? delimiter lines).map fun (source, closing, rest) =>
        (line.text ++ (if line.broken then ['\n'] else []) ++ source, closing, rest)

/-! ## The opening line -/

/-- The characters of a language tag. -/
def isTagChar (c : Char) : Bool := c.isAlphanum || c == '-' || c == '_'

/-- The block that a text without a byte order mark opens. The opening line is the delimiter, not
followed by its own last character again, and then a language tag or nothing. -/
def opening (delimiter text : Text) : Opening :=
  match Text.dropPrefix? delimiter text, delimiter.getLast? with
  | some afterDelimiter, some last =>
    let (rest, content) := Text.cutLine afterDelimiter
    let language := Text.trim rest
    if afterDelimiter.head? = some last ∨ ¬ language.all isTagChar then .absent
    else
      match cutAtClose? delimiter (Line.ofText (content.getD [])) with
      | none => .unclosed
      | some (source, closing, after) =>
        .fenced {
          language, source
          matter := delimiter ++ rest ++ '\n' :: source ++ closing
          body := Text.dropBreak after }
  | _, _ => .absent

end DocumentLayout.FrontMatter
