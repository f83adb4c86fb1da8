import DocumentLayout.Text.Line

/-!
# The rest of a line

A line of prose is taken apart from the left: the marks of the containers around it, its
indentation, its own mark. What is left is kept with the column at which it starts, because a tab
reaches to the next tab stop of the whole line.
-/

namespace DocumentLayout.Markdown

/-- What is left of a line, and the column at which it starts. -/
structure Rest where
  column : Nat
  text : Text
  deriving DecidableEq, Repr, Inhabited

namespace Rest

/-- A whole line. -/
def ofLine (line : Text) : Rest := ⟨0, line⟩

/-- Whether nothing but spaces and tabs is left. -/
def isBlank (rest : Rest) : Bool := rest.text.all Text.isIndent

/-- The columns of the leading spaces and tabs. -/
def indent (rest : Rest) : Nat := Text.indentFrom rest.column rest.text - rest.column

/-- The rest after its leading spaces and tabs. -/
def trim (rest : Rest) : Rest :=
  ⟨Text.indentFrom rest.column rest.text, Text.trimIndent rest.text⟩

/-- The rest of a text that starts at `column`, after at most `count` columns of leading spaces and
tabs. A tab that reaches further leaves spaces. -/
def dropFrom (column : Nat) : Nat → Text → Rest
  | count + 1, ' ' :: text => dropFrom (column + 1) count text
  | count + 1, '\t' :: text =>
    let width := Text.nextStop column - column
    if width ≤ count + 1 then dropFrom (column + width) (count + 1 - width) text
    else ⟨column + count + 1, List.replicate (width - (count + 1)) ' ' ++ text⟩
  | _, text => ⟨column, text⟩

/-- The rest after at most `count` columns of leading spaces and tabs. -/
def dropColumns (count : Nat) (rest : Rest) : Rest := dropFrom rest.column count rest.text

/-- The rest after `count` characters, none of which is a tab. -/
def dropChars (count : Nat) (rest : Rest) : Rest := ⟨rest.column + count, rest.text.drop count⟩

/-- The rest after its indentation, when it is not indented far enough to be code. -/
def start? (rest : Rest) : Option Rest :=
  if rest.indent < Text.tabWidth then some rest.trim else none

end Rest

end DocumentLayout.Markdown
