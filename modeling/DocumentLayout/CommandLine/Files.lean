import DocumentLayout.Config

/-!
# Files

The files that a command may read. All that counts is which paths lead to a file and what bytes it
holds; a tree of directories gives such a view.
-/

namespace DocumentLayout

/-- The bytes of the file at each path that leads to one. -/
abbrev Files := Text → Option ByteArray

/-- The text that bytes in UTF-8 stand for. -/
def Text.ofBytes? (bytes : ByteArray) : Option Text := (String.fromUTF8? bytes).map String.toList

/-! ## Directories -/

/-- A file or a directory with named entries. -/
inductive FileTree where
  | file (bytes : ByteArray)
  | directory (entries : List (Text × FileTree))

namespace FileTree

/-- No file at all. -/
def empty : FileTree := .directory []

/-- What a path leads to from a directory, given as the chain of directories around it, the
innermost first. Nothing leads through a file or out of the outermost directory. -/
def follow? : List FileTree → List Text → Option FileTree
  | here :: _, [] => some here
  | .directory entries :: around, name :: path =>
    if name = [] ∨ name = ['.'] then follow? (.directory entries :: around) path
    else if name = ['.', '.'] then follow? around path
    else
      match entries.lookup name with
      | none => none
      | some entry => follow? (entry :: .directory entries :: around) path
  | .file _ :: _, _ :: _ => none
  | [], _ => none

/-- The files at the paths of a tree. A path that starts at the root of the system leads nowhere. -/
def files (tree : FileTree) : Files := fun path =>
  match path with
  | [] | '/' :: _ => none
  | path =>
    match follow? [tree] (List.splitOn '/' path) with
    | some (.file bytes) => some bytes
    | _ => none

/-- The entries with one more at a path, and with the directories on its way. -/
def insertAt (entry : FileTree) : List Text → List (Text × FileTree) → List (Text × FileTree)
  | [], entries => entries
  | [name], entries =>
    match entry, entries.lookup name with
    | .directory [], some (.directory found) =>
      (name, .directory found) :: entries.filter (·.1 != name)
    | entry, _ => (name, entry) :: entries.filter (·.1 != name)
  | name :: path, entries =>
    let inner := match entries.lookup name with
      | some (.directory inner) => inner
      | _ => []
    (name, .directory (insertAt entry path inner)) :: entries.filter (·.1 != name)

/-- The tree of the given paths with what is at them. -/
def ofList (paths : List (Text × FileTree)) : FileTree :=
  .directory (paths.foldl (fun entries (path, entry) =>
    insertAt entry (List.splitOn '/' path) entries) [])

end FileTree

/-! ## Configurations in files -/

namespace Config

/-- The path of a candidate below a root. -/
def pathBelow (root candidate : Text) : Text :=
  if root = [] ∨ root.getLast? = some '/' then root ++ candidate else root ++ '/' :: candidate

/-- The first candidate below a root that is a file. -/
def locate? (files : Files) (root : Text) : Option Text :=
  candidates.find? fun candidate => (files (pathBelow root candidate)).isSome

/-- The configuration of the project at a root, if there is one. -/
def load (files : Files) (root : Text) : Except Error (Option Config) :=
  match candidates.findSome? fun candidate => files (pathBelow root candidate) with
  | none => .ok none
  | some bytes =>
    match Text.ofBytes? bytes with
    | none => .error (.io "stream did not contain valid UTF-8".toList)
    | some text => (read text).map some

end Config

end DocumentLayout
