import DocumentLayout.Block.Parser
import DocumentLayout.Config
import DocumentLayout.FrontMatter.Basic
import DocumentLayout.Injection
import DocumentLayout.Text.Quoted

/-!
# Preprocessing

A document goes through four steps: its front matter is read, its body is searched for a default
export, a layout is injected where there is none, and the result is compiled.
-/

namespace DocumentLayout

/-- What a document is turned into in the end, given its preprocessed text. -/
abbrev Compiler := Text → Except Error Text

/-- The compiler that leaves the text as it is. -/
def Compiler.passthrough : Compiler := .ok

/-- How documents are preprocessed: the layout of each group, the compiler, the extensions of the
block parser and the delimiter of front matter. -/
structure Preprocessor where
  layoutOf : Text → Option Text
  compile : Compiler
  extensions : List Parser.Extension
  delimiter : Text

/-- A document that was compiled. -/
structure CompiledDocument where
  metadata : Metadata
  /-- The text that was handed to the compiler. -/
  input : Text
  compiled : Text
  layoutInjected : Bool
  deriving Repr, Inhabited

namespace Preprocessor

/-- A preprocessor without extensions and with the usual delimiter. -/
def new (layoutOf : Text → Option Text) (compile : Compiler) : Preprocessor :=
  ⟨layoutOf, compile, [], FrontMatter.defaultDelimiter⟩

/-- A preprocessor with the choices of a configuration. -/
def ofConfig (config : Config) (compile : Compiler) : Preprocessor :=
  { new config.layouts.resolve? compile with delimiter := config.delimiter }

/-- The metadata of a document. Its body is not even looked at. -/
def metadata (preprocessor : Preprocessor) (text : Text) : Except Error Metadata :=
  (FrontMatter.extract preprocessor.delimiter text).map (·.metadata)

/-- A document compiled with the layout of its group, or of the default group. -/
def process (preprocessor : Preprocessor) (group : Option Text) (text : Text) :
    Except Error CompiledDocument := do
  let front ← FrontMatter.extract preprocessor.delimiter text
  let exportsDefault ← hasDefaultExport preprocessor.extensions front.body
  let layout := preprocessor.layoutOf (group.getD Layouts.defaultGroup)
  let injected := injectLayout? text front.matter exportsDefault layout
  let input := injected.getD text
  let compiled ← preprocessor.compile input
  return ⟨front.metadata, input, compiled, injected.isSome⟩

/-- A description of a preprocessor: how many extensions it has, and its delimiter. -/
def describe (preprocessor : Preprocessor) : Text :=
  "Preprocessor \x7b extensions: ParserExtensions \x7b len: ".toList ++
    Text.ofNat preprocessor.extensions.length ++
    " \x7d, front_matter: FrontMatterOptions \x7b delimiter: ".toList ++
    Text.quoted preprocessor.delimiter ++ " \x7d, .. \x7d".toList

end Preprocessor

end DocumentLayout
