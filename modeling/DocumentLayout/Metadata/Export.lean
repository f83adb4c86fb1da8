import DocumentLayout.Layouts
import DocumentLayout.Metadata.Json

/-!
# The module of the metadata

Where only the metadata of a document is wanted, a small module stands in for it. The module exports
the metadata as a constant and passes on the exports of the document itself.
-/

namespace DocumentLayout

/-- What is added to the path of a document to ask for the document itself. -/
def componentQuery : Text := "?type=component".toList

/-- The path under which a document itself is asked for, which starts with a slash. -/
def componentRequest (path : Text) : Text :=
  let path := slash path
  (if path.head? = some '/' then path else '/' :: path) ++ componentQuery

/-- The text of the module that exports the metadata of the document at a path. -/
def Metadata.exportModule (path : Text) (metadata : Metadata) : Except Error Text := do
  let json ← metadata.toJson
  let request := '"' :: componentRequest path ++ ['"']
  return "import MDXContent from ".toList ++ request ++
    ";\nexport default MDXContent;\nexport * from ".toList ++ request ++
    "\n\nexport const _frontmatter = ".toList ++ json.compact ++ [';']

end DocumentLayout
