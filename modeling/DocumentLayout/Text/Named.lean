import DocumentLayout.Text.Basic

/-!
# Lists in the order of names

What has a name that nothing else in the list has, in the order of names. Names are ordered by
code points, which is also the order of the bytes of their UTF-8 forms.
-/

namespace DocumentLayout

/-- Things with names, in the order of their names. -/
abbrev Named (α : Type) := List (Text × α)

namespace Named

variable {α : Type}

/-- The list with one thing more, at the place of its name, or instead of the one of its name. -/
def insert (name : Text) (value : α) : Named α → Named α
  | [] => [(name, value)]
  | (other, old) :: rest =>
    if name = other then (name, value) :: rest
    else if name < other then (name, value) :: (other, old) :: rest
    else (other, old) :: insert name value rest

/-- The things of a list in the order of their names. A later one takes the place of an earlier one
of the same name. -/
def ofList (things : List (Text × α)) : Named α :=
  things.foldl (fun all (name, value) => insert name value all) []

end Named

end DocumentLayout
