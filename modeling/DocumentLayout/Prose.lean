import DocumentLayout.Markdown.Html
import DocumentLayout.Preprocessor

/-!
# Prose

The prose of a document is what is left of it without its statements. It can be rendered to HTML.
-/

namespace DocumentLayout

/-- A text without some of its stretches, given in order by their spans, when the text itself starts
at `offset`. -/
def withoutSpans (offset : Nat) : List Span → Text → Text
  | [], text => text
  | span :: spans, text =>
    let (kept, rest) := Text.splitBytes (span.start - offset) text
    kept ++ withoutSpans span.stop spans (Text.splitBytes (span.stop - span.start) rest).2

/-- A document with its line breaks unified and without the statement blocks at its top level. -/
def stripStatements (extensions : List Parser.Extension) (text : Text) : Except Error Text := do
  let text := Text.unifyBreaks text
  let tree ← parseDocument extensions text
  let statements := tree.children.filter fun node => node.statement?.isSome
  return withoutSpans 0 (statements.map Node.span) text

/-- The compiler that renders the prose of a document to HTML. -/
def Compiler.html (extensions : List Parser.Extension) : Compiler := fun text =>
  (stripStatements extensions text).map Markdown.html

end DocumentLayout
