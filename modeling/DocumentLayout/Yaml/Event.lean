import DocumentLayout.Yaml.Token

/-!
# YAML events

The content of a document in the order in which it is written: scalars, aliases, and the starts and
ends of sequences and mappings. Events are read off the tokens by the grammar of YAML, in which
every key and every value may be left out.
-/

namespace DocumentLayout.Yaml

/-- What may stand in front of a node: the name that aliases refer to it by, and its tag. -/
structure Properties where
  anchor : Option Text
  tag : Option Text
  deriving DecidableEq, Repr, Inhabited

/-- A step through the content of a document. -/
inductive Event where
  | alias (name : Text)
  | scalar (properties : Properties) (text : Text) (plain : Bool)
  | sequenceStart (properties : Properties)
  | sequenceEnd
  | mappingStart (properties : Properties)
  | mappingEnd
  deriving DecidableEq, Repr, Inhabited

namespace Event

/-- A node without properties. -/
def bare : Properties := ⟨none, none⟩

/-- What is left out stands for an empty plain scalar. -/
def empty : Event := .scalar bare [] true

/-! ## Properties -/

/-- The tags that a handle stands for: what is written for it in front of the rest of a tag. -/
abbrev Handles := List (Text × Text)

/-- The handles that are known without a directive. -/
def standardHandles : Handles :=
  [("!".toList, "!".toList), ("!!".toList, "tag:yaml.org,2002:".toList)]

/-- The tag that a handle and a suffix make; nothing when the handle is not known. -/
def resolveTag? (handles : Handles) (handle suffix : Text) : Option Text :=
  if handle = [] then some suffix else (handles.lookup handle).map (· ++ suffix)

/-- The properties at the start of a node: an anchor and a tag, in either order and both optional,
and the tokens after them. -/
def properties? (handles : Handles) : List Token → Option (Properties × List Token)
  | .anchor name :: .tag handle suffix :: rest =>
    (resolveTag? handles handle suffix).map fun tag => (⟨some name, some tag⟩, rest)
  | .anchor name :: rest => some (⟨some name, none⟩, rest)
  | .tag handle suffix :: .anchor name :: rest =>
    (resolveTag? handles handle suffix).map fun tag => (⟨some name, some tag⟩, rest)
  | .tag handle suffix :: rest =>
    (resolveTag? handles handle suffix).map fun tag => (⟨none, some tag⟩, rest)
  | rest => some (bare, rest)

/-! ## Nodes -/

/-- Events that have been read, and the tokens after them. -/
abbrev Reading := Option (List Event × List Token)

/-- Whether one of the tokens comes next. -/
def nextIs (expected : List Token) : List Token → Bool
  | [] => false
  | token :: _ => expected.contains token

mutual

/-- A node. Outside brackets (`block`) it may be a block; as the content of a key or a value a
sequence of dashes needs no further indentation (`indentless`). -/
def node? (handles : Handles) (block indentless : Bool) : Nat → List Token → Reading
  | 0, _ => none
  | _ + 1, .alias name :: rest => some ([.alias name], rest)
  | fuel + 1, tokens =>
    match properties? handles tokens with
    | none => none
    | some (properties, rest) =>
      match rest with
      | .scalar text plain :: rest => some ([.scalar properties text plain], rest)
      | .flowSequenceStart :: rest =>
        (flowItems? handles true fuel rest).map fun (events, rest) =>
          (.sequenceStart properties :: events, rest)
      | .flowMappingStart :: rest =>
        (flowEntries? handles true fuel rest).map fun (events, rest) =>
          (.mappingStart properties :: events, rest)
      | .blockEntry :: _ =>
        if indentless then
          (dashItems? handles fuel rest).map fun (events, rest) =>
            (.sequenceStart properties :: events, rest)
        else if properties = bare then none
        else some ([.scalar properties [] true], rest)
      | .blockSequenceStart :: rest' =>
        if block then
          (blockItems? handles fuel rest').map fun (events, rest) =>
            (.sequenceStart properties :: events, rest)
        else if properties = bare then none
        else some ([.scalar properties [] true], rest)
      | .blockMappingStart :: rest' =>
        if block then
          (blockEntries? handles fuel rest').map fun (events, rest) =>
            (.mappingStart properties :: events, rest)
        else if properties = bare then none
        else some ([.scalar properties [] true], rest)
      | _ => if properties = bare then none else some ([.scalar properties [] true], rest)

/-- A node, or an empty one when one of the tokens `follows` comes next. -/
def optional? (handles : Handles) (block indentless : Bool) (follows : List Token) :
    Nat → List Token → Reading
  | 0, _ => none
  | fuel + 1, tokens =>
    if nextIs follows tokens then some ([.empty], tokens)
    else node? handles block indentless fuel tokens

/-- The items of a block sequence. -/
def blockItems? (handles : Handles) : Nat → List Token → Reading
  | fuel + 1, .blockEntry :: rest =>
    match optional? handles true false [.blockEntry, .blockEnd] fuel rest with
    | none => none
    | some (item, rest) =>
      (blockItems? handles fuel rest).map fun (events, rest) => (item ++ events, rest)
  | _ + 1, .blockEnd :: rest => some ([.sequenceEnd], rest)
  | _, _ => none

/-- The items of a sequence that is not indented. The first token that is no dash ends it. -/
def dashItems? (handles : Handles) : Nat → List Token → Reading
  | fuel + 1, .blockEntry :: rest =>
    match optional? handles true false [.blockEntry, .key, .value, .blockEnd] fuel rest with
    | none => none
    | some (item, rest) =>
      (dashItems? handles fuel rest).map fun (events, rest) => (item ++ events, rest)
  | _ + 1, rest => some ([.sequenceEnd], rest)
  | _, _ => none

/-- The entries of a block mapping. -/
def blockEntries? (handles : Handles) : Nat → List Token → Reading
  | fuel + 1, .key :: rest =>
    match optional? handles true true [.key, .value, .blockEnd] fuel rest with
    | none => none
    | some (key, rest) =>
      match blockValue? handles fuel rest with
      | none => none
      | some (value, rest) =>
        (blockEntries? handles fuel rest).map fun (events, rest) => (key ++ value ++ events, rest)
  | _ + 1, .blockEnd :: rest => some ([.mappingEnd], rest)
  | _, _ => none

/-- The value of an entry of a block mapping. -/
def blockValue? (handles : Handles) : Nat → List Token → Reading
  | fuel + 1, .value :: rest =>
    optional? handles true true [.key, .value, .blockEnd] fuel rest
  | _ + 1, rest => some ([.empty], rest)
  | _, _ => none

/-- The items of a sequence in brackets. An item that starts with a key is a mapping with that one
entry. -/
def flowItems? (handles : Handles) (first : Bool) : Nat → List Token → Reading
  | 0, _ => none
  | _ + 1, .flowSequenceEnd :: rest => some ([.sequenceEnd], rest)
  | fuel + 1, tokens =>
    match (if first then some tokens else match tokens with
      | .flowEntry :: rest => some rest
      | _ => none) with
    | none => none
    | some (.flowSequenceEnd :: rest) => some ([.sequenceEnd], rest)
    | some (.key :: rest) =>
      match flowPair? handles fuel rest with
      | none => none
      | some (pair, rest) =>
        (flowItems? handles false fuel rest).map fun (events, rest) => (pair ++ events, rest)
    | some tokens =>
      match node? handles false false fuel tokens with
      | none => none
      | some (item, rest) =>
        (flowItems? handles false fuel rest).map fun (events, rest) => (item ++ events, rest)

/-- The single entry of a mapping inside brackets, after the mark of its key. The token after an
empty key is passed over together with it. -/
def flowPair? (handles : Handles) : Nat → List Token → Reading
  | 0, _ => none
  | fuel + 1, tokens =>
    let key :=
      if nextIs [.value, .flowEntry, .flowSequenceEnd] tokens then some ([.empty], tokens.drop 1)
      else node? handles false false fuel tokens
    match key with
    | none => none
    | some (key, .value :: rest) =>
      (optional? handles false false [.flowEntry, .flowSequenceEnd] fuel rest).map
        fun (value, rest) => (.mappingStart bare :: key ++ value ++ [.mappingEnd], rest)
    | some (key, rest) => some (.mappingStart bare :: key ++ [.empty, .mappingEnd], rest)

/-- The entries of a mapping in braces. A node that is not marked as a key is one all the same,
without a value. -/
def flowEntries? (handles : Handles) (first : Bool) : Nat → List Token → Reading
  | 0, _ => none
  | _ + 1, .flowMappingEnd :: rest => some ([.mappingEnd], rest)
  | fuel + 1, tokens =>
    match (if first then some tokens else match tokens with
      | .flowEntry :: rest => some rest
      | _ => none) with
    | none => none
    | some (.flowMappingEnd :: rest) => some ([.mappingEnd], rest)
    | some (.key :: rest) =>
      match optional? handles false false [.value, .flowEntry, .flowMappingEnd] fuel rest with
      | none => none
      | some (key, rest) =>
        match flowValue? handles fuel rest with
        | none => none
        | some (value, rest) =>
          (flowEntries? handles false fuel rest).map fun (events, rest) =>
            (key ++ value ++ events, rest)
    | some tokens =>
      match node? handles false false fuel tokens with
      | none => none
      | some (key, rest) =>
        (flowEntries? handles false fuel rest).map fun (events, rest) =>
          (key ++ .empty :: events, rest)

/-- The value of an entry of a mapping in braces. -/
def flowValue? (handles : Handles) : Nat → List Token → Reading
  | fuel + 1, .value :: rest =>
    optional? handles false false [.flowEntry, .flowMappingEnd] fuel rest
  | _ + 1, rest => some ([.empty], rest)
  | _, _ => none

end

/-! ## Documents -/

/-- The directives in front of a document: the handles they define, and the tokens after them. At
most one gives the version, which is 1.1 or 1.2, and no handle is defined twice. -/
def directives? (version : Bool) (handles : Handles) : List Token → Option (Handles × List Token)
  | .versionDirective major minor :: rest =>
    if version ∨ major ≠ 1 ∨ (minor ≠ 1 ∧ minor ≠ 2) then none else directives? true handles rest
  | .tagDirective handle lead :: rest =>
    if (handles.lookup handle).isSome then none
    else directives? version (handles ++ [(handle, lead)]) rest
  | rest => some (handles ++ standardHandles, rest)

/-- The content of a document after its start, which may be empty. -/
def content? (handles : Handles) (tokens : List Token) : Reading :=
  match tokens with
  | [] | .documentEnd :: _ | .documentStart :: _ | .versionDirective .. :: _
  | .tagDirective .. :: _ => some ([.empty], tokens)
  | _ => node? handles true false (8 * tokens.length + 8) tokens

/-- The events of a stream that holds one document or none. Nothing may follow the document but
its end, and the end of a document is marked before directives only. -/
def ofTokens? (tokens : List Token) : Option (List Event) :=
  let document : Reading :=
    match tokens with
    | [] => some ([], [])
    | .versionDirective .. :: _ | .tagDirective .. :: _ | .documentStart :: _ =>
      match directives? false [] tokens with
      | some (handles, .documentStart :: rest) => content? handles rest
      | _ => none
    | _ => node? standardHandles true false (8 * tokens.length + 8) tokens
  match document with
  | some (events, rest) =>
    if rest.all (· == .documentEnd) then some events else none
  | none => none

end Event

end DocumentLayout.Yaml
