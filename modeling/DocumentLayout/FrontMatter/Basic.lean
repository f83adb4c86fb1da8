import DocumentLayout.Error
import DocumentLayout.FrontMatter.Fence
import DocumentLayout.FrontMatter.Language

/-!
# Front matter

A document is split into the metadata of its front matter and its body. A document without front
matter has empty metadata and is all body.
-/

namespace DocumentLayout

/-- A document split into its front matter and its body. -/
structure FrontMatter where
  metadata : Metadata
  /-- The block as written, from the opening delimiter to the end of the closing line. -/
  matter : Option Text
  /-- The language that the opening line names, if it names one. -/
  language : Option Text
  body : Text
  deriving Repr, Inhabited

namespace FrontMatter

/-- A document that is all body. -/
def absent (body : Text) : FrontMatter := ⟨[], none, none, body⟩

/-- The metadata that the lines of a block stand for. Blank lines and null stand for none, whatever
the language, and any other value but a mapping is refused. -/
def readMetadata (language source : Text) : Except FrontMatterFault Metadata :=
  let tag := Text.lowerAscii language
  if Text.isBlank source then .ok []
  else
    match MetadataLanguage.ofTag? tag with
    | none => .error (.unknownLanguage tag)
    | some language =>
      match language.read? source with
      | none => .error (.unreadable language.name)
      | some .null => .ok []
      | some (.mapping entries) => .ok entries
      | some value => .error (.notMapping value.kind)

/-- The front matter and the body of a text. -/
def extract (delimiter text : Text) : Except Error FrontMatter :=
  let text := (cutMark text).2
  match opening delimiter text with
  | .absent => .ok (absent text)
  | .unclosed => .error (.malformedMetadata (.neverClosed delimiter))
  | .fenced parts =>
    match readMetadata parts.language parts.source with
    | .error fault => .error (.malformedMetadata fault)
    | .ok metadata =>
      .ok {
        metadata
        matter := some parts.matter
        language := if parts.language = [] then none else some parts.language
        body := parts.body }

end FrontMatter

end DocumentLayout
