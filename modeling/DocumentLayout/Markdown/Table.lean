import DocumentLayout.Markdown.Block
import DocumentLayout.Text.Blank

/-!
# Tables

A table is a row of headers, a row of dashes that also tells where the cells of each column stand,
and further rows. Bars divide a row into cells.
-/

namespace DocumentLayout.Markdown

/-- A line without the spaces and tabs around it. -/
def trimLine (line : Text) : Text :=
  ((Text.trimIndent line).reverse.dropWhile Text.isIndent).reverse

/-- The pieces of a row between its bars. A bar after a backslash divides nothing and stands for
itself. -/
def splitRow : Text → List Text
  | [] => [[]]
  | '|' :: rest => [] :: splitRow rest
  | '\\' :: '|' :: rest => prepend ['|'] (splitRow rest)
  | '\\' :: '\\' :: rest => prepend ['\\', '\\'] (splitRow rest)
  | c :: rest => prepend [c] (splitRow rest)
where
  /-- Characters in front of the first piece. -/
  prepend (front : Text) : List Text → List Text
    | [] => [front]
    | piece :: pieces => (front ++ piece) :: pieces

/-- The cells of a row. A bar at the start or the end of the row divides nothing. -/
def cellsOf (line : Text) : List Text :=
  let pieces := (splitRow (trimLine line)).map trimLine
  let pieces := match pieces with
    | [] :: rest => rest
    | pieces => pieces
  if pieces.getLast? = some [] then pieces.dropLast else pieces

/-- The alignment that a cell of the row of dashes tells. -/
def alignment? (cell : Text) : Option Alignment :=
  let (left, dashes) := match cell with
    | ':' :: rest => (true, rest)
    | rest => (false, rest)
  let (right, dashes) := match Text.dropLast? ':' dashes with
    | some rest => (true, rest)
    | none => (false, dashes)
  if dashes = [] ∨ dashes.any (· != '-') then none
  else match left, right with
    | false, false => some .unset
    | true, false => some .left
    | true, true => some .center
    | false, true => some .right

/-- The columns that a row of dashes tells. A bar or a colon tells it from other rows of dashes. -/
def columns? (line : Text) : Option (List Alignment) :=
  if line.any (fun c => c == '|' || c == ':') then (cellsOf line).mapM alignment? else none

/-- The columns and the headers of a table, from its first two lines. -/
def tableHead? (header dashes : Text) : Option (List Alignment × List Text) :=
  (columns? dashes).bind fun columns =>
    let headers := cellsOf header
    if headers = [] ∨ headers.length ≠ columns.length then none else some (columns, headers)

/-- The cells of a row of a table with a number of columns: missing ones are empty, and further ones
are left out. -/
def rowOf (columns : Nat) (line : Text) : List Text :=
  let cells := cellsOf line
  cells.take columns ++ List.replicate (columns - cells.length) []

end DocumentLayout.Markdown
