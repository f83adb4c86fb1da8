import DocumentLayout.FrontMatter.Fence
import DocumentLayout.Layouts

/-!
# Layout injection

A document that exports no default of its own gets a layout: an import of the layout and a default
export of it are put between its front matter and its body, and nothing else is changed.
-/

namespace DocumentLayout

/-- The name that the injected import binds. -/
def layoutBinding : Text := "DefaultLayout".toList

/-- The characters of a text between double quotes, where a backslash and a quote need a backslash
in front of them. -/
def escapeQuotes (text : Text) : Text :=
  text.flatMap fun c => if c = '\\' ∨ c = '"' then ['\\', c] else [c]

/-- The import of a layout and the default export of it, each with an empty line after it. -/
def layoutStatements (layout : Text) : Text :=
  "import ".toList ++ layoutBinding ++ " from \"".toList ++ escapeQuotes (slash layout) ++
    "\"\n\nexport default ".toList ++ layoutBinding ++ "\n\n".toList

/-- The block of front matter at the start of a text without a byte order mark, with two line feeds
after it, and the body after the line break that ends the block. Without a block, or when the text
does not start with it, all is body. -/
def splitMatter (matter : Option Text) (text : Text) : Text × Text :=
  match matter with
  | none => ([], text)
  | some matter =>
    match Text.dropPrefix? matter text with
    | none => ([], text)
    | some rest => (matter ++ ['\n', '\n'], Text.dropBreak rest)

/-- A document with a layout injected; nothing when it exports a default already or when there is
no layout but a blank one. -/
def injectLayout? (document : Text) (matter : Option Text) (exportsDefault : Bool)
    (layout : Option Text) : Option Text :=
  match exportsDefault, layout.filter (!Text.isBlank ·) with
  | false, some layout =>
    let (mark, content) := FrontMatter.cutMark document
    let (front, body) := splitMatter matter content
    some (mark ++ front ++ layoutStatements layout ++ body)
  | _, _ => none

end DocumentLayout
