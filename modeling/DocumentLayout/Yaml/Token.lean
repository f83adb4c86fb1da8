import DocumentLayout.Text.Basic

/-!
# YAML tokens

The tokens of a YAML stream. Block structure is made explicit: a block opens when content is
indented further than the blocks around it and closes when it is indented less, and a key is
marked in front of it although only the colon after it tells that it is one.
-/

namespace DocumentLayout.Yaml

/-- A token of a YAML stream. -/
inductive Token where
  | versionDirective (major minor : Nat)
  | tagDirective (handle lead : Text)
  | documentStart
  | documentEnd
  | blockSequenceStart
  | blockMappingStart
  /-- The end of a block sequence or of a block mapping. -/
  | blockEnd
  | flowSequenceStart
  | flowSequenceEnd
  | flowMappingStart
  | flowMappingEnd
  | blockEntry
  | flowEntry
  | key
  | value
  | alias (name : Text)
  | anchor (name : Text)
  /-- A tag as a handle and what follows it. A tag that is given in full has an empty handle. -/
  | tag (handle suffix : Text)
  /-- A scalar, and whether it is written without quotes in the flow of a line. -/
  | scalar (text : Text) (plain : Bool)
  deriving DecidableEq, Repr, Inhabited

end DocumentLayout.Yaml
