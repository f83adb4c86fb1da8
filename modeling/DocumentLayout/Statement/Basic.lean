import DocumentLayout.Text.Blank

/-!
# Module statements

A document may carry blocks of `import` and `export` statements between its prose. A block knows
its text and its statements; what it is follows from them.
-/

namespace DocumentLayout

/-- What a statement does. -/
inductive StatementKind where
  | «import»
  | «export»
  deriving DecidableEq, Repr, Inhabited

namespace StatementKind

/-- The keyword that a statement of this kind starts with. -/
def keyword : StatementKind → Text
  | .import => "import".toList
  | .export => "export".toList

end StatementKind

/-- One statement: its kind, whether it gives the module its default export, and its text from
the keyword on, without white space at its end. -/
structure Statement where
  kind : StatementKind
  isDefaultExport : Bool
  text : Text
  deriving DecidableEq, Repr, Inhabited

/-- A block of statements with no empty line between them. -/
structure StatementBlock where
  text : Text
  statements : List Statement
  deriving DecidableEq, Repr, Inhabited

namespace StatementBlock

/-- A block exports as soon as one of its statements does. -/
def kind (block : StatementBlock) : StatementKind :=
  if block.statements.any (·.kind = .export) then .export else .import

/-- Whether some statement of the block is a default export. -/
def isDefaultExport (block : StatementBlock) : Bool :=
  block.statements.any (·.isDefaultExport)

end StatementBlock

end DocumentLayout
