import DocumentLayout.Metadata.Value
import DocumentLayout.Text.Named

/-!
# TOML values and tables

A TOML document is a table. How a table came about decides what may still be added to it: a header
may reopen only a table that headers of its parts have implied, and a dotted key may add only to
tables that dotted keys have made.
-/

namespace DocumentLayout

/-- How a table came about. -/
inductive TableOrigin where
  /-- By a header of its own; also the table of the whole document. -/
  | header
  /-- By the header of a table inside it. -/
  | implied
  /-- By a dotted key. -/
  | dotted
  /-- Between braces. -/
  | inline
  deriving DecidableEq, Repr, Inhabited

/-- A TOML value. -/
inductive Toml where
  | bool (b : Bool)
  | int (n : Int)
  | float (x : Binary64)
  /-- A number too large to be a value. -/
  | overflow
  | string (text : Text)
  /-- A date, a time or both, as it is written anew. -/
  | datetime (text : Text)
  | array (items : List Toml)
  /-- The tables that headers with double brackets add one by one, the last one first. -/
  | tables (items : List (List (Text × Toml)))
  | table (origin : TableOrigin) (members : List (Text × Toml))
  deriving Repr, Inhabited

namespace Toml

/-! ## Building tables -/

/-- A change of the members of a table, given how it came about; nothing where it is refused. -/
abbrev Change := TableOrigin → Named Toml → Option (TableOrigin × Named Toml)

/-- A change of the table at the end of a path, on whose way a table is made with the origin `way`
where there is none. The path leads into every table but inline ones, and into the last of the
tables added one by one; a dotted key does not lead into a table with a header. -/
def change? (way : TableOrigin) (change : Change) : List Text → Change
  | [], origin, members => change origin members
  | name :: path, origin, members =>
    let changed : Option Toml := match members.lookup name with
      | none => (change? way change path way []).map fun (origin, members) => table origin members
      | some (.table inner found) =>
        if inner = TableOrigin.inline ∨ (way = .dotted ∧ inner = .header) then none
        else (change? way change path inner found).map fun (origin, members) => table origin members
      | some (.tables (last :: others)) =>
        (change? way change path .header last).map fun (_, members) => tables (members :: others)
      | some _ => none
    changed.map fun value => (origin, Named.insert name value members)

/-- A value under a name that is not taken. -/
def insert? (name : Text) (value : Toml) : Change := fun origin members =>
  if (members.lookup name).isSome then none else some (origin, Named.insert name value members)

/-- A value under a dotted key. Only a table that dotted keys have made takes it at the end of a
path. -/
def insertAt? (path : List Text) (name : Text) (value : Toml) : Change :=
  change? .dotted (fun origin members =>
    if path ≠ [] ∧ origin ≠ .dotted then none else insert? name value origin members) path

/-- The table that a header opens, which must be new or implied. -/
def open? (name : Text) : Change := fun origin members =>
  match members.lookup name with
  | none => some (origin, Named.insert name (table .header []) members)
  | some (.table .implied found) =>
    some (origin, Named.insert name (table .header found) members)
  | some _ => none

/-- The table that a header with double brackets adds to those of its name. -/
def openNext? (name : Text) : Change := fun origin members =>
  match members.lookup name with
  | none => some (origin, Named.insert name (tables [[]]) members)
  | some (.tables items) => some (origin, Named.insert name (tables ([] :: items)) members)
  | some _ => none

/-! ## As metadata -/

/-- The key under which a date or time is held as text. -/
def datetimeKey : Text := "$__toml_private_datetime".toList

mutual

/-- A value as metadata; nothing when a number in it is too large. -/
def toValue? : Toml → Option Value
  | .bool b => some (.bool b)
  | .int n => if -(twoPow 63) ≤ n ∧ n < twoPow 64 then some (.int n) else none
  | .float x => some (.float x)
  | .overflow => none
  | .string text => some (.string text)
  | .datetime text => some (.mapping [(.string datetimeKey, .string text)])
  | .array items => (itemsToValues? items).map .sequence
  | .tables items => (tablesToValues? items).map fun items => .sequence items.reverse
  | .table _ members => (membersToEntries? members).map .mapping

/-- Items as metadata. -/
def itemsToValues? : List Toml → Option (List Value)
  | [] => some []
  | item :: items => do
    let first ← toValue? item
    let rest ← itemsToValues? items
    return first :: rest

/-- Tables as metadata, in the same order. -/
def tablesToValues? : List (Named Toml) → Option (List Value)
  | [] => some []
  | members :: items => do
    let first ← membersToEntries? members
    let rest ← tablesToValues? items
    return .mapping first :: rest

/-- Members as the entries of a mapping. -/
def membersToEntries? : Named Toml → Option (List (Value × Value))
  | [] => some []
  | (name, member) :: members => do
    let value ← toValue? member
    let rest ← membersToEntries? members
    return (.string name, value) :: rest

end

mutual

/-- Whether no number in a value is too large. -/
def isBounded : Toml → Bool
  | .overflow => false
  | .array items => areBounded items
  | .tables items => tablesBounded items
  | .table _ members => membersBounded members
  | _ => true

/-- Whether no number in the items is too large. -/
def areBounded : List Toml → Bool
  | [] => true
  | item :: items => isBounded item && areBounded items

/-- Whether no number in the tables is too large. -/
def tablesBounded : List (Named Toml) → Bool
  | [] => true
  | members :: items => membersBounded members && tablesBounded items

/-- Whether no number in the members is too large. -/
def membersBounded : Named Toml → Bool
  | [] => true
  | (_, member) :: members => isBounded member && membersBounded members

end

end Toml

end DocumentLayout
