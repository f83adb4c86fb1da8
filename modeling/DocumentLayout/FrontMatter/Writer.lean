import DocumentLayout.FrontMatter.Basic
import DocumentLayout.Yaml.Writer

/-!
# Writing front matter

Metadata becomes a fenced block of YAML that can be put in front of a body as it is.
-/

namespace DocumentLayout

/-- Metadata as a block between two delimiter lines, which ends in a line feed. -/
def Metadata.write (delimiter : Text) (metadata : Metadata) : Except Error Text :=
  match metadata with
  | [] => .ok (delimiter ++ '\n' :: delimiter ++ ['\n'])
  | _ =>
    match Yaml.write? metadata with
    | none => .error (.malformedMetadata .unwritable)
    | some yaml => .ok (delimiter ++ '\n' :: yaml ++ delimiter ++ ['\n'])

end DocumentLayout
