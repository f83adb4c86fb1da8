import DocumentLayout.Text.Basic

/-!
# Layouts

Documents come in groups, and each group may have a layout, given by the path of its module. A
group without one of its own takes the layout of the group `default`.
-/

namespace DocumentLayout

/-- The layouts of groups, at most one for each. -/
structure Layouts where
  entries : List (Text × Text)
  deriving DecidableEq, Repr, Inhabited

namespace Layouts

/-- The group whose layout others fall back to. -/
def defaultGroup : Text := "default".toList

/-- No layouts. -/
def empty : Layouts := ⟨[]⟩

/-- The layout of a group itself. -/
def find? (layouts : Layouts) (group : Text) : Option Text := layouts.entries.lookup group

/-- The layouts without that of a group. -/
def erase (layouts : Layouts) (group : Text) : Layouts :=
  ⟨layouts.entries.filter fun (other, _) => other != group⟩

/-- The layouts with one for a group, in place of an earlier one. -/
def insert (layouts : Layouts) (group layout : Text) : Layouts :=
  ⟨(layouts.erase group).entries ++ [(group, layout)]⟩

/-- The number of groups that have a layout of their own. -/
def size (layouts : Layouts) : Nat := layouts.entries.length

/-- The layout of a group, or else that of the default group. -/
def resolve? (layouts : Layouts) (group : Text) : Option Text :=
  (layouts.find? group).or (layouts.find? defaultGroup)

/-- The layouts of a list of groups, where a later entry takes the place of an earlier one. -/
def ofList (entries : List (Text × Text)) : Layouts :=
  entries.foldl (fun layouts (group, layout) => layouts.insert group layout) empty

end Layouts

/-! ## Paths -/

/-- Paths that start like this have to keep their backslashes. -/
def verbatimPathPrefix : Text := "\\\\?\\".toList

/-- A path with forward slashes for backslashes, unless it has to keep them. -/
def slash (path : Text) : Text :=
  if List.isPrefixOf verbatimPathPrefix path then path
  else path.map fun c => if c = '\\' then '/' else c

end DocumentLayout
