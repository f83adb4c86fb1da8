import DocumentLayout.Error
import DocumentLayout.FrontMatter.Fence
import DocumentLayout.Layouts
import DocumentLayout.Toml.Reader

/-!
# Configuration

A configuration gives the layouts of groups and the delimiter of front matter. It is written in
TOML and found under one of a few names below the root of a project.
-/

namespace DocumentLayout

/-- The layouts and the delimiter that a project has chosen. -/
structure Config where
  layouts : Layouts
  delimiter : Text
  deriving DecidableEq, Repr, Inhabited

namespace Config

/-- The configuration of a project that chooses nothing. -/
def standard : Config := ⟨.empty, FrontMatter.defaultDelimiter⟩

/-! ## Reading -/

/-- Members that are all strings. -/
def strings? : Named Toml → Option (List (Text × Text))
  | [] => some []
  | (name, .string text) :: members => (strings? members).map ((name, text) :: ·)
  | _ :: _ => none

/-- The layouts that a member of a configuration gives. A date stands for a table with one
member. -/
def layouts? : Option Toml → Option Layouts
  | none => some .empty
  | some (.table _ members) => (strings? members).map .ofList
  | some (.datetime text) => some (.ofList [(Toml.datetimeKey, text)])
  | some _ => none

/-- The delimiter that a member of a configuration gives: the member `delimiter` of a table or the
first item of an array, and the usual one where there is none. -/
def delimiter? : Option Toml → Option Text
  | some (.table _ members) =>
    if !Toml.membersBounded members then none
    else
      match members.lookup "delimiter".toList with
      | none => some FrontMatter.defaultDelimiter
      | some (.string text) => some text
      | some _ => none
  | some (.array (.string text :: _)) => some text
  | some (.array []) | some (.datetime _) | none => some FrontMatter.defaultDelimiter
  | some _ => none

/-- The configuration with these members, of which all but two are ignored. -/
def ofMembers? (members : Named Toml) : Option Config := do
  let layoutsName := "layouts".toList
  let frontMatterName := "front_matter".toList
  let ignored := members.filter fun (name, _) => name != layoutsName && name != frontMatterName
  let layouts ← layouts? (members.lookup layoutsName)
  let delimiter ← delimiter? (members.lookup frontMatterName)
  if Toml.membersBounded ignored then some ⟨layouts, delimiter⟩ else none

/-- The configuration that a text stands for. A blank delimiter is refused. -/
def read (text : Text) : Except Error Config :=
  match (Toml.document? text).bind ofMembers? with
  | none => .error (.configParse .unreadable)
  | some config =>
    if Text.isBlank config.delimiter then .error (.configParse .blankDelimiter)
    else .ok config

/-! ## Where it is found -/

/-- The paths below the root of a project at which its configuration may be, the first choice
first. -/
def candidates : List Text :=
  ["mdxp.toml".toList, ".mdxp.toml".toList, ".config/mdxp.toml".toList]

end Config

end DocumentLayout
