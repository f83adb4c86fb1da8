import DocumentLayout.Text.Blank

/-!
# Lines and columns

A text is read as lines, each with the line feed that ends it if there is one, and the
indentation of a line is measured in columns with tab stops every four columns.
-/

namespace DocumentLayout

/-- A line of a text: its characters without the line break, and whether a line break ends it. -/
structure Line where
  text : Text
  broken : Bool
  deriving DecidableEq, Repr, Inhabited

namespace Line

/-- The bytes of a line, its line break included. -/
def size (line : Line) : Nat := line.text.byteLength + if line.broken then 1 else 0

/-- Whether a line holds nothing but white space. -/
def isBlank (line : Line) : Bool := Text.isBlank line.text

/-- The bytes of consecutive lines. -/
def totalSize : List Line → Nat
  | [] => 0
  | line :: lines => line.size + totalSize lines

/-- The lines of a text in order. The last one has no line break when the text does not end in
one; the empty text has no line. -/
def ofText : Text → List Line
  | [] => []
  | c :: rest =>
    if c = '\n' then ⟨[], true⟩ :: ofText rest
    else
      match ofText rest with
      | [] => [⟨[c], false⟩]
      | line :: lines => ⟨c :: line.text, line.broken⟩ :: lines

/-- The text that consecutive lines make up. -/
def toText : List Line → Text
  | [] => []
  | line :: lines => line.text ++ (if line.broken then ['\n'] else []) ++ toText lines

/-- Reading lines loses nothing. -/
theorem toText_ofText (text : Text) : toText (ofText text) = text := by
  induction text with
  | nil => rfl
  | cons c rest ih =>
    unfold ofText
    split
    · simp_all [toText]
    · split
      · simp_all [toText]
      · simp_all [toText]

/-- The lines of a text have the bytes of the text. -/
theorem totalSize_ofText (text : Text) : totalSize (ofText text) = text.byteLength := by
  have key : ∀ lines, (toText lines).byteLength = totalSize lines := by
    intro lines
    induction lines with
    | nil => rfl
    | cons line lines ih =>
      have feed : Char.utf8Size '\n' = 1 := rfl
      cases h : line.broken <;> simp [toText, totalSize, size, h, ih, feed, Nat.add_assoc]
  rw [← key, toText_ofText]

end Line

namespace Text

/-! ## Columns -/

/-- Tab stops stand every four columns, and four columns of indentation make code. -/
def tabWidth : Nat := 4

/-- The column after a tab at column `column`. -/
def nextStop (column : Nat) : Nat := column + (tabWidth - column % tabWidth)

/-- The column reached after the leading spaces and tabs of a text that starts at `column`. -/
def indentFrom (column : Nat) : Text → Nat
  | ' ' :: rest => indentFrom (column + 1) rest
  | '\t' :: rest => indentFrom (nextStop column) rest
  | _ => column

/-- The width of the leading spaces and tabs of a line in columns. -/
def indentation (line : Text) : Nat := indentFrom 0 line

/-- The text without its leading spaces and tabs up to column `limit`, when it starts at
`column`. A tab that crosses the limit is removed whole. -/
def stripFrom (column limit : Nat) : Text → Text
  | ' ' :: rest => if column < limit then stripFrom (column + 1) limit rest else ' ' :: rest
  | '\t' :: rest => if column < limit then stripFrom (nextStop column) limit rest else '\t' :: rest
  | text => text

/-- The line without up to `columns` columns of leading spaces and tabs. -/
def stripColumns (line : Text) (columns : Nat) : Text := stripFrom 0 columns line

/-- The line after its indentation, when it is not indented far enough to be code. -/
def blockStart? (line : Text) : Option Text :=
  if tabWidth ≤ indentation line then none else some (trimIndent line)

end Text

end DocumentLayout
