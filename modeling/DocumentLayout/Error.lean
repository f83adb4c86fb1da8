import DocumentLayout.Metadata.Value

/-!
# Errors

Every way in which the work on a document can fail, as a cause with the data it depends on. The
wording of a message, its code and the advice that goes with it are functions of the cause.
-/

namespace DocumentLayout

/-- Containers nested deeper than this many levels are refused. -/
def nestingLimit : Nat := 64

/-- Why a text could not be parsed into blocks. -/
inductive ParseFault where
  /-- Containers are nested beyond the limit. -/
  | tooDeep
  /-- No tokenizer takes the text at a position. -/
  | unclaimed
  /-- A tokenizer claimed no byte, more bytes than there are, or a part of a character. -/
  | badLength (tokenizer : Text) (length : Nat)
  /-- A fault at an offset of the content of a container. -/
  | nested (offset : Nat) (fault : ParseFault)
  /-- A fault that a caller put into words. -/
  | stated (reason : Text)
  deriving DecidableEq, Repr, Inhabited

/-- Why front matter is malformed. -/
inductive FrontMatterFault where
  /-- The block opens but no line closes it. -/
  | neverClosed (delimiter : Text)
  /-- The language tag names a language that is not read. -/
  | unknownLanguage (language : Text)
  /-- The block holds some other value where a mapping belongs. -/
  | notMapping (found : ValueKind)
  /-- The block is not well formed in its language. -/
  | unreadable (language : Text)
  /-- The metadata has no written form. -/
  | unwritable
  /-- A fault that a caller put into words. -/
  | stated (reason : Text)
  deriving DecidableEq, Repr, Inhabited

/-- Why a configuration is refused. -/
inductive ConfigFault where
  /-- The text is not a configuration at all. -/
  | unreadable
  /-- The delimiter of the front matter is blank. -/
  | blankDelimiter
  /-- A fault that a caller put into words. -/
  | stated (reason : Text)
  deriving DecidableEq, Repr, Inhabited

/-- Why metadata has no JSON form. -/
inductive JsonFault where
  /-- A key is null, a sequence, a mapping or a tagged value. -/
  | keyNotText
  /-- A key is infinite or not a number. -/
  | keyNotFinite
  /-- A fault that a caller put into words. -/
  | stated (reason : Text)
  deriving DecidableEq, Repr, Inhabited

/-- Why the work on a document failed. -/
inductive Error where
  | io (reason : Text)
  | malformedMetadata (fault : FrontMatterFault)
  | parse (offset : Nat) (fault : ParseFault)
  | configParse (fault : ConfigFault)
  | metadataJson (fault : JsonFault)
  | compile (reason : Text)
  deriving DecidableEq, Repr, Inhabited

/-! ## Wording -/

/-- A fault of a parse in words. A fault inside a container names its offset there. -/
def ParseFault.reason : ParseFault → Text
  | .tooDeep =>
    "containers are nested more than ".toList ++ Text.ofNat nestingLimit ++ " levels deep".toList
  | .unclaimed => "no block tokenizer accepted the input".toList
  | .badLength tokenizer length =>
    "tokenizer `".toList ++ tokenizer ++ "` claimed an invalid length of ".toList ++
      Text.ofNat length ++ " bytes".toList
  | .nested offset fault =>
    fault.reason ++ " (at byte ".toList ++ Text.ofNat offset ++ " of the nested content)".toList
  | .stated reason => reason

/-- A fault of front matter in words. -/
def FrontMatterFault.reason : FrontMatterFault → Text
  | .neverClosed delimiter =>
    "the opening `".toList ++ delimiter ++ "` is never closed".toList
  | .unknownLanguage language =>
    "unsupported front matter language `".toList ++ language ++ "`".toList
  | .notMapping found => "expected a mapping but found ".toList ++ found.describe
  | .unreadable language => "the block is not well formed as ".toList ++ language
  | .unwritable => "the metadata cannot be written as front matter".toList
  | .stated reason => reason

/-- A fault of a configuration in words. -/
def ConfigFault.reason : ConfigFault → Text
  | .unreadable => "the text is not a configuration".toList
  | .blankDelimiter => "`front_matter.delimiter` must not be empty".toList
  | .stated reason => reason

/-- A fault of a conversion to JSON in words. -/
def JsonFault.reason : JsonFault → Text
  | .keyNotText => "key must be a string".toList
  | .keyNotFinite => "float key must be finite (got NaN or +/-inf)".toList
  | .stated reason => reason

namespace Error

/-- The whole message of an error. -/
def message : Error → Text
  | .io reason => reason
  | .malformedMetadata fault => "malformed front matter: ".toList ++ fault.reason
  | .parse offset fault =>
    "failed to parse document at byte ".toList ++ Text.ofNat offset ++ ": ".toList ++ fault.reason
  | .configParse fault => "failed to parse config file: ".toList ++ fault.reason
  | .metadataJson fault => "front matter cannot be represented as JSON: ".toList ++ fault.reason
  | .compile reason => "document compilation failed: ".toList ++ reason

/-- The code under which an error is reported. -/
def code : Error → Text
  | .io _ => "mdxp::io_error".toList
  | .malformedMetadata _ => "mdxp::malformed_metadata".toList
  | .parse .. => "mdxp::parse".toList
  | .configParse _ => "mdxp::config_parse".toList
  | .metadataJson _ => "mdxp::metadata_json".toList
  | .compile _ => "mdxp::compile".toList

/-- The advice that goes with an error, where there is some. -/
def help? : Error → Option Text
  | .malformedMetadata _ =>
    some ("front matter must be a mapping enclosed by `---` lines at the very start of the " ++
      "document").toList
  | .configParse _ =>
    some ("check that mdxp.toml is valid TOML with [layouts] and/or [front_matter] " ++
      "sections").toList
  | .metadataJson _ =>
    some "front matter keys must be strings to be exported as `_frontmatter`".toList
  | _ => none

/-- An error from the content of a container, as the container at `offset` reports it: a fault of
the parse is placed at the container and keeps its own offset in the reason, and any other error
stays as it is. -/
def within (offset : Nat) : Error → Error
  | .parse inner fault => .parse offset (.nested inner fault)
  | other => other

end Error

end DocumentLayout
