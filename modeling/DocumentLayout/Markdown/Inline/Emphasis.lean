import DocumentLayout.Markdown.Inline
import DocumentLayout.Text.Punctuation

/-!
# Emphasis

Runs of stars, underscores or tildes mark the text between two of them. Which runs can open and
close such a stretch depends on the characters around them, and a closing run belongs to the
nearest opening one that fits.
-/

namespace DocumentLayout.Markdown

/-- The marks of emphasis. -/
def isEmphasisMark (c : Char) : Bool := c == '*' || c == '_' || c == '~'

/-- A run of one mark, and whether it can open and close a stretch of text. -/
structure Run where
  mark : Char
  count : Nat
  opens : Bool
  closes : Bool
  deriving DecidableEq, Repr, Inhabited

namespace Run

/-- The run at the start of a text between two characters. A mark leans on the words next to it.
Underscores inside a word mean nothing. -/
def between (previous : Option Char) (mark : Char) (count : Nat) (next : Option Char) : Run :=
  let isSpace (c : Option Char) : Bool := c.all Text.isSpace
  let isWord (c : Option Char) : Bool := c.any fun c => !Text.isSpace c && !Text.isPunctuation c
  let leans (inner outer : Option Char) : Bool :=
    isWord inner || (!isSpace inner && !isWord outer) || (mark != '~' && inner.any isEmphasisMark)
  let opens := leans next previous
  let closes := leans previous next
  if mark = '_' then
    ⟨mark, count, opens && (!isWord previous || !closes), closes && (!isWord next || !opens)⟩
  else ⟨mark, count, opens, closes⟩

/-- The run as text. -/
def text (run : Run) : Text := List.replicate run.count run.mark

/-- Whether a closing run belongs to an opening one. Where one of the two could do both, their sizes
must not add up to a multiple of three, and tildes have to be of equal number. -/
def matches? (opening closing : Run) : Bool :=
  let uneven := (opening.closes || closing.opens) && closing.count % 3 != 0 &&
    (opening.count + closing.count) % 3 == 0
  opening.opens && opening.mark == closing.mark && !uneven &&
    (closing.mark != '~' || (closing.count == opening.count && closing.count ≤ 2))

/-- The number of marks that two runs use up. -/
def used (opening closing : Run) : Nat := if 1 < opening.count ∧ 1 < closing.count then 2 else 1

/-- What a number of marks means. -/
def style (run : Run) (used : Nat) : Style :=
  if run.mark = '~' then .deleted else if used = 2 then .strong else .emphasis

end Run

/-- A part of a text while it is read: a finished piece, a run of marks, or an opening bracket, of
an image or of a link, which may be of no use any more. `after` is the text after the bracket. -/
inductive Piece where
  | inline (inline : Inline)
  | run (run : Run)
  | bracket (image : Bool) (active : Bool) (after : Text)
  deriving Repr, Inhabited

namespace Piece

/-- A part that came to nothing is text. -/
def toInline : Piece → Inline
  | .inline found => found
  | .run marks => .text marks.text
  | bracket image _ _ => .text (if image then ['!', '['] else ['['])

/-- The nearest run before a closing one that it belongs to: the parts after that run in order, the
run, and the parts before it. Parts are given from the last one back. -/
def opener? (closing : Run) : List Piece → Option (List Piece × Run × List Piece)
  | [] => none
  | piece :: earlier =>
    let further := (opener? closing earlier).map fun (inner, opening, earlier) =>
      (inner ++ [piece], opening, earlier)
    match piece with
    | .run opening => if opening.matches? closing then some ([], opening, earlier) else further
    | _ => further

/-- Parts with one more run, which closes what it can, by a count of steps that is the size of the
run at least. -/
def closeRun : Nat → Run → List Piece → List Piece
  | 0, closing, earlier => .run closing :: earlier
  | steps + 1, closing, earlier =>
    match if closing.closes then opener? closing earlier else none with
    | none => .run closing :: earlier
    | some (inner, opening, earlier) =>
      let used := opening.used closing
      let styled := Inline.styled (closing.style used) (Inline.merge (inner.map toInline))
      let left := { opening with count := opening.count - used }
      let earlier := .inline styled :: if left.count = 0 then earlier else .run left :: earlier
      if closing.count = used then earlier
      else closeRun steps { closing with count := closing.count - used } earlier

/-- The content that parts in order make. -/
def content (pieces : List Piece) : List Inline :=
  let resolved := pieces.foldl
    (fun earlier piece => match piece with
      | .run closing => closeRun closing.count closing earlier
      | piece => piece :: earlier) []
  Inline.merge (resolved.reverse.map toInline)

end Piece

end DocumentLayout.Markdown
