import DocumentLayout.Yaml.Event
import DocumentLayout.Yaml.Plain
import DocumentLayout.Yaml.Token.Lexer

/-!
# YAML documents

The value of a YAML document. An alias stands for the node with its anchor. A document that nests
too deeply or repeats itself too often through aliases is refused, and so is a mapping with two
equal keys.
-/

namespace DocumentLayout.Yaml

/-! ## Anchors -/

/-- An event whose alias is resolved to the slot of its anchor. -/
inductive Linked where
  | alias (slot : Nat)
  | scalar (tag : Option Text) (text : Text) (plain : Bool)
  | sequenceStart (tag : Option Text)
  | sequenceEnd
  | mappingStart (tag : Option Text)
  | mappingEnd
  deriving DecidableEq, Repr, Inhabited

/-- The slots that the names of anchors stand for at a point of the document. -/
abbrev Slots := List (Text × Nat)

/-- The slot of a new anchor is the number of names known so far, also when the name is one of
them. -/
def Slots.define (slots : Slots) (name : Text) : Slots × Nat :=
  let slot := slots.length
  ((slots.filter fun (other, _) => other != name) ++ [(name, slot)], slot)

/-- The events with their aliases resolved, each with the slot that its anchor defines; nothing
when an alias has no anchor before it. -/
def link? (slots : Slots) : List Event → Option (List (Linked × Option Nat))
  | [] => some []
  | event :: rest =>
    let anchored (properties : Properties) (linked : Linked) :
        Option (List (Linked × Option Nat)) :=
      match properties.anchor with
      | none => (link? slots rest).map ((linked, none) :: ·)
      | some name =>
        let (slots, slot) := slots.define name
        (link? slots rest).map ((linked, some slot) :: ·)
    match event with
    | .alias name =>
      match slots.lookup name with
      | none => none
      | some slot => (link? slots rest).map ((.alias slot, none) :: ·)
    | .scalar properties text plain => anchored properties (.scalar properties.tag text plain)
    | .sequenceStart properties => anchored properties (.sequenceStart properties.tag)
    | .mappingStart properties => anchored properties (.mappingStart properties.tag)
    | .sequenceEnd => (link? slots rest).map ((.sequenceEnd, none) :: ·)
    | .mappingEnd => (link? slots rest).map ((.mappingEnd, none) :: ·)

/-- The nodes that slots stand for, each as the events from its start on. A slot that is defined
twice stands for the later node everywhere. -/
abbrev Targets := List (Nat × List Linked)

/-- The nodes of all slots, the last one first. -/
def targets : List (Linked × Option Nat) → Targets
  | [] => []
  | (linked, slot) :: rest =>
    let here := linked :: rest.map (·.1)
    targets rest ++ (match slot with
      | some slot => [(slot, here)]
      | none => [])

/-! ## Values -/

/-- The name of a tag of the document's own: what follows the `!` that it starts with. The tags of
YAML itself do not start with one. -/
def ownTag? (tag : Option Text) : Option Text :=
  let bare (text : Text) : Text := match text with
    | '!' :: c :: rest => c :: rest
    | text => text
  match tag with
  | some ('!' :: rest) => some (bare (if rest = [] then ['!'] else rest))
  | _ => none

/-- The value of a scalar without a tag of its own. The tags of YAML ask for a certain spelling;
any other tag makes it a string. -/
def scalarValue? (tag : Option Text) (text : Text) (plain : Bool) : Option Value :=
  match tag with
  | none => if plain then plainValue? text else some (.string text)
  | some tag =>
    if tag = "tag:yaml.org,2002:bool".toList then (bool? text).map .bool
    else if tag = "tag:yaml.org,2002:int".toList then
      ((integer? text).filter isValueRange).map .int
    else if tag = "tag:yaml.org,2002:float".toList then (float? text).map .float
    else if tag = "tag:yaml.org,2002:null".toList then if isNull text then some .null else none
    else some (.string text)

/-- A value under a tag of the document's own, if it has one. -/
def withTag (tag : Option Text) (value : Value) : Value :=
  match ownTag? tag with
  | some name => .tagged name value
  | none => value

/-- The value of a scalar. Under a tag of the document's own it is read as if it had none. -/
def taggedScalar? (tag : Option Text) (text : Text) (plain : Bool) : Option Value :=
  match ownTag? tag with
  | some name => (scalarValue? none text plain).map (.tagged name)
  | none => scalarValue? tag text plain

/-- How many containers may be nested. -/
def depthLimit : Nat := 128

/-- How many aliases may be followed for each event of a document. -/
def aliasFactor : Nat := 100

/-- What is read of a document: a result, the events after it, and how many aliases may still be
followed. -/
abbrev Reads (α : Type) := Option (α × List Linked × Nat)

mutual

/-- The value of the node at the start of the events, below which `depth` containers may be nested.
No list of events is longer than `size`. -/
def value? (targets : Targets) (size depth : Nat) (events : List Linked) (budget : Nat) :
    Reads Value :=
  match events with
  | .alias slot :: rest =>
    match budget, targets.lookup slot with
    | budget + 1, some (target :: after) =>
      (node? targets size depth target after budget).map fun (value, _, budget) =>
        (value, rest, budget)
    | _, _ => none
  | event :: rest => node? targets size depth event rest budget
  | [] => none
termination_by (depth, size + 2)

/-- The value of the node that starts with an event that is no alias. -/
def node? (targets : Targets) (size depth : Nat) (event : Linked) (rest : List Linked)
    (budget : Nat) : Reads Value :=
  match event with
  | .scalar tag text plain =>
    (taggedScalar? tag text plain).map fun value => (value, rest, budget)
  | .sequenceStart tag =>
    (items? targets size depth size rest budget).map fun (items, rest, budget) =>
      (withTag tag (.sequence items), rest, budget)
  | .mappingStart tag =>
    (entries? targets size depth size [] rest budget).map fun (entries, rest, budget) =>
      (withTag tag (.mapping entries), rest, budget)
  | _ => none
termination_by (depth, size + 1)

/-- The items of a sequence. -/
def items? (targets : Targets) (size depth fuel : Nat) (events : List Linked) (budget : Nat) :
    Reads (List Value) :=
  match depth, fuel, events with
  | _ + 1, _, .sequenceEnd :: rest => some ([], rest, budget)
  | depth + 1, fuel + 1, events =>
    match value? targets size depth events budget with
    | none => none
    | some (item, rest, budget) =>
      (items? targets size (depth + 1) fuel rest budget).map fun (items, rest, budget) =>
        (item :: items, rest, budget)
  | _, _, _ => none
termination_by (depth, fuel)

/-- The entries of a mapping after those in `known`, none of whose keys may come again. -/
def entries? (targets : Targets) (size depth fuel : Nat) (known : List (Value × Value))
    (events : List Linked) (budget : Nat) : Reads (List (Value × Value)) :=
  match depth, fuel, events with
  | _ + 1, _, .mappingEnd :: rest => some (known, rest, budget)
  | depth + 1, fuel + 1, events =>
    match value? targets size depth events budget with
    | none => none
    | some (key, rest, budget) =>
      if (Value.find? key known).isSome then none
      else
        match value? targets size depth rest budget with
        | none => none
        | some (value, rest, budget) =>
          entries? targets size (depth + 1) fuel (known ++ [(key, value)]) rest budget
  | _, _, _ => none
termination_by (depth, fuel)

end

/-- The value of a stream of events; nothing at all is null. -/
def ofEvents? (events : List Event) : Option Value :=
  match link? [] events with
  | none => none
  | some [] => some .null
  | some linked =>
    (value? (targets linked) (linked.length + 1) depthLimit (linked.map (·.1))
      (aliasFactor * linked.length)).map (·.1)

/-- The value of a YAML text that holds one document or none; nothing when it is not well
formed. -/
def read? (text : Text) : Option Value :=
  ((tokens? text).bind Event.ofTokens?).bind ofEvents?

end DocumentLayout.Yaml
