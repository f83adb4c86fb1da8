import DocumentLayout.Json.Reader
import DocumentLayout.Toml.Reader
import DocumentLayout.Yaml.Document

/-!
# Languages of front matter

The languages that a block of front matter may be written in, and the tags that name them.
-/

namespace DocumentLayout

/-- A language of front matter. -/
inductive MetadataLanguage where
  | yaml
  | json
  | toml
  deriving DecidableEq, Repr, Inhabited

namespace MetadataLanguage

/-- The name of a language. -/
def name : MetadataLanguage → Text
  | .yaml => "yaml".toList
  | .json => "json".toList
  | .toml => "toml".toList

/-- The language that a tag in lower case names; the empty tag stands for YAML. -/
def ofTag? (tag : Text) : Option MetadataLanguage :=
  if tag = [] ∨ tag = name .yaml ∨ tag = "yml".toList then some .yaml
  else if tag = name .json then some .json
  else if tag = name .toml then some .toml
  else none

/-- The value that a text in a language stands for; nothing when it is not well formed. -/
def read? : MetadataLanguage → Text → Option Value
  | .yaml => Yaml.read?
  | .json => Json.read?
  | .toml => Toml.read?

end MetadataLanguage

end DocumentLayout
