import DocumentLayout.Block.Marker
import DocumentLayout.Block.Tokenizer

/-!
# Tokenizers of containers

Block quotes and lists hold blocks of their own. The markers are taken off their lines, and what
is left is parsed as a text one level deeper. A line without a marker may still go on with a
paragraph inside the container; it is taken as it is.
-/

namespace DocumentLayout.Block

open Marker

/-- The text of the content lines of a container. -/
def content (lines : List Text) : Text := ['\n'].intercalate lines

/-! ## Block quotes -/

/-- The content of a quoted line: what follows `>` and one column of space. -/
def quoteContent? (line : Line) : Option Text :=
  (quoted? line.text).map fun rest => Text.stripColumns rest 1

/-- The lines that a block quote claims below its first line, each with its content. Prose without
`>` goes on with a paragraph of the quote. -/
def quoteRest : List Line → List (Line × Text)
  | [] => []
  | line :: lines =>
    match quoteContent? line with
    | some text => (line, text) :: quoteRest lines
    | none =>
      if !line.isBlank && !interruptsParagraph line.text then (line, line.text) :: quoteRest lines
      else []

/-- The lines that a block quote claims, each with its content; none when it does not open here. -/
def quoteLines : List Line → List (Line × Text)
  | [] => []
  | line :: lines =>
    match quoteContent? line with
    | some text => (line, text) :: quoteRest lines
    | none => []

/-- A block quote. -/
def blockQuote (cursor : Cursor) (text : Text) : Except Error (Option Claim) :=
  match quoteLines (Line.ofText text) with
  | [] => .ok none
  | claimed => do
    let children ← cursor.tokenize (content (claimed.map (·.2)))
    return some (.container (Line.totalSize (claimed.map (·.1))) .blockQuote children)

/-! ## Lists -/

/-- An item of a list: the blank lines in front of it, its lines, and the lines of its content. -/
structure Item where
  before : List Line
  lines : List Line
  content : List Text
  deriving Repr, Inhabited

/-- What a line does to the list above it. -/
inductive ListStep where
  /-- It is content of the last item. -/
  | continues (content : Text)
  /-- It opens the next item. -/
  | opens (marker : ListMarker)
  /-- It goes on with a paragraph of the last item although it is not indented. -/
  | lazy
  /-- It does not belong to the list. -/
  | ends
  deriving Repr, Inhabited

/-- What a line that is not blank does to a list of kind `list` whose last item is `last`, where
`spaced` tells whether blank lines stand above it. -/
def listStep (list last : ListMarker) (spaced : Bool) (line : Line) : ListStep :=
  if last.contentIndent ≤ Text.indentation line.text then
    .continues (Text.stripColumns line.text last.contentIndent)
  else
    match (listItem? line.text).filter (·.continues list) with
    | some next => if isThematicBreak line.text then .ends else .opens next
    | none => if !spaced && !interruptsParagraph line.text then .lazy else .ends

/-- Whether a list goes on after a blank line: the next line is indented as the content of the last
item, or opens an item of the list. A second blank line ends it. -/
def listGoesOn (list last : ListMarker) : List Line → Bool
  | [] => false
  | next :: _ =>
    !next.isBlank &&
      (last.contentIndent ≤ Text.indentation next.text ||
        (listItem? next.text).any (·.continues list))

/-- The items of a list of kind `list` that are still to come, given the last item so far, its
marker and the blank lines read after it. -/
def listItems (list last : ListMarker) (item : Item) (blank : List Line) :
    List Line → List Item
  | [] => [item]
  | line :: lines =>
    if line.isBlank then
      if listGoesOn list last lines then listItems list last item (blank ++ [line]) lines
      else [item]
    else
      match listStep list last (blank != []) line with
      | .continues text =>
        let item := { item with
          lines := item.lines ++ blank ++ [line]
          content := item.content ++ blank.map (fun _ => []) ++ [text] }
        listItems list last item [] lines
      | .opens next => item :: listItems list next ⟨blank, [line], [next.content]⟩ [] lines
      | .lazy =>
        let item := { item with
          lines := item.lines ++ [line]
          content := item.content ++ [line.text] }
        listItems list last item [] lines
      | .ends => [item]

/-- The marker of the list that opens here and its items. -/
def listLines? : List Line → Option (ListMarker × List Item)
  | [] => none
  | line :: lines =>
    (listItem? line.text).map fun marker =>
      (marker, listItems marker marker ⟨[], [line], [marker.content]⟩ [] lines)

/-- The nodes of the items of a list that starts at `start`, in order, and the offset where the
last item ends. -/
def itemNodes (cursor : Cursor) (start : Nat) : List Item → Except Error (List Node × Nat)
  | [] => .ok ([], start)
  | item :: items => do
    let first := start + Line.totalSize item.before
    let stop := first + Line.totalSize item.lines
    let children ← cursor.tokenize (content item.content)
    let (nodes, last) ← itemNodes cursor stop items
    return (⟨.listItem, ⟨first, stop⟩, children⟩ :: nodes, last)

/-- A list. The spans of its items are those of their lines, also where the last line is not part
of the text itself but of the line breaks that the parser adds. -/
def list (cursor : Cursor) (text : Text) : Except Error (Option Claim) :=
  match listLines? (Line.ofText text) with
  | none => .ok none
  | some (marker, items) => do
    let (nodes, stop) ← itemNodes cursor cursor.offset items
    return some (.container (stop - cursor.offset) (.list marker.ordered) nodes)

end DocumentLayout.Block
