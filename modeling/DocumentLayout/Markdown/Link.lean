import DocumentLayout.Markdown.CharacterReference
import DocumentLayout.Text.Blank
import DocumentLayout.Text.Case

/-!
# Targets of links

What a link leads to: a destination and perhaps a title, given with the link or in a definition with
a label that the link names.
-/

namespace DocumentLayout.Markdown

/-- The target of a link. -/
structure Target where
  destination : Text
  title : Option Text
  deriving DecidableEq, Repr, Inhabited

/-! ## White space -/

/-- White space within a paragraph. -/
def isSpacing (c : Char) : Bool := c == ' ' || c == '\t' || c == '\n'

/-- The text after white space. -/
def skipSpacing (text : Text) : Text := text.dropWhile isSpacing

/-- The text after white space with at most one line break. -/
def skipWithinLine (text : Text) : Text :=
  match Text.trimIndent text with
  | '\n' :: rest => Text.trimIndent rest
  | rest => rest

/-! ## Labels -/

/-- The characters of a label up to its closing bracket, and the text after the bracket. Brackets
inside need a backslash. -/
def labelChars? : Text → Option (Text × Text)
  | [] => none
  | ']' :: rest => some ([], rest)
  | '[' :: _ => none
  | '\\' :: c :: rest =>
    if c = '[' ∨ c = ']' ∨ c = '\\' then
      (labelChars? rest).map fun (label, rest) => ('\\' :: c :: label, rest)
    else (labelChars? (c :: rest)).map fun (label, rest) => ('\\' :: label, rest)
  | c :: rest => (labelChars? rest).map fun (label, rest) => (c :: label, rest)

/-- The longest label. -/
def labelLimit : Nat := 999

/-- The label after its opening bracket, and the text after it. It is not blank. -/
def label? (text : Text) : Option (Text × Text) :=
  (labelChars? text).filter fun (label, _) =>
    label.any (!isSpacing ·) && label.length ≤ labelLimit

/-- White space in a text made single spaces. -/
def collapse : Text → Text
  | [] => []
  | c :: rest =>
    if isSpacing c then
      if rest.head?.any isSpacing then collapse rest else ' ' :: collapse rest
    else c :: collapse rest

/-- A label as labels are compared: without regard to case and to the amount of white space. -/
def normalizedLabel (label : Text) : Text := (Text.trim (collapse label)).map Text.foldedCase

/-! ## Destinations and titles -/

/-- The characters of a destination between angle brackets, and the text after it. -/
def enclosed? : Text → Option (Text × Text)
  | [] => none
  | '>' :: rest => some ([], rest)
  | '\\' :: c :: rest =>
    if c = '<' ∨ c = '>' ∨ c = '\\' then
      (enclosed? rest).map fun (text, rest) => ('\\' :: c :: text, rest)
    else (enclosed? (c :: rest)).map fun (text, rest) => ('\\' :: text, rest)
  | c :: rest =>
    if c = '<' ∨ c = '\n' then none else (enclosed? rest).map fun (text, rest) => (c :: text, rest)

/-- How deeply parentheses may be nested in a destination. -/
def parenthesesLimit : Nat := 32

/-- The characters of a destination without angle brackets, inside `depth` parentheses, and the text
after it. -/
def bare? (depth : Nat) : Text → Option (Text × Text)
  | [] => if depth = 0 then some ([], []) else none
  | '\\' :: c :: rest =>
    if c = '(' ∨ c = ')' ∨ c = '\\' then
      (bare? depth rest).map fun (text, rest) => ('\\' :: c :: text, rest)
    else (bare? depth (c :: rest)).map fun (text, rest) => ('\\' :: text, rest)
  | c :: rest =>
    if isSpacing c ∨ (c = ')' ∧ depth = 0) then
      if depth = 0 then some ([], c :: rest) else none
    else if c.toNat < 0x20 ∨ c.toNat = 0x7F then none
    else if c = '(' then
      if depth < parenthesesLimit then
        (bare? (depth + 1) rest).map fun (text, rest) => (c :: text, rest)
      else none
    else if c = ')' then (bare? (depth - 1) rest).map fun (text, rest) => (c :: text, rest)
    else (bare? depth rest).map fun (text, rest) => (c :: text, rest)

/-- The destination at the start of a text, and the text after it. -/
def destination? (text : Text) : Option (Text × Text) :=
  let found := match text with
    | '<' :: rest => enclosed? rest
    | text => (bare? 0 text).filter fun (destination, _) => destination != []
  found.map fun (destination, rest) => (unescape destination, rest)

/-- The characters of a title up to its closing mark, and the text after the mark. -/
def titleChars? (opening closing : Char) : Text → Option (Text × Text)
  | [] => none
  | '\\' :: c :: rest =>
    if c = closing ∨ c = opening ∨ c = '\\' then
      (titleChars? opening closing rest).map fun (title, rest) => ('\\' :: c :: title, rest)
    else (titleChars? opening closing (c :: rest)).map fun (title, rest) => ('\\' :: title, rest)
  | c :: rest =>
    if c = closing then some ([], rest)
    else if c = opening then none
    else (titleChars? opening closing rest).map fun (title, rest) => (c :: title, rest)

/-- The title at the start of a text, and the text after it. -/
def title? (text : Text) : Option (Text × Text) :=
  let found := match text with
    | '"' :: rest => titleChars? '"' '"' rest
    | '\'' :: rest => titleChars? '\'' '\'' rest
    | '(' :: rest => titleChars? '(' ')' rest
    | _ => none
  found.map fun (title, rest) => (unescape title, rest)

/-! ## Targets -/

/-- The target that follows a link in parentheses, after the opening one, and the text after it. -/
def target? (text : Text) : Option (Target × Text) :=
  let text := skipSpacing text
  let close (destination : Text) (title : Option Text) (text : Text) : Option (Target × Text) :=
    match skipSpacing text with
    | ')' :: rest => some (⟨destination, title⟩, rest)
    | _ => none
  match text with
  | ')' :: rest => some (⟨[], none⟩, rest)
  | text =>
    (destination? text).bind fun (destination, rest) =>
      if rest.head?.any isSpacing then
        match title? (skipSpacing rest) with
        | some (title, rest) => close destination (some title) rest
        | none => close destination none rest
      else close destination none rest

/-- The targets of labels, as labels are compared. -/
abbrev Targets := List (Text × Target)

/-- The text after the rest of a line that holds nothing but white space. -/
def skipBlankLine? (text : Text) : Option Text :=
  match Text.trimIndent text with
  | [] => some []
  | '\n' :: rest => some rest
  | _ => none

/-- The definition of a label at the start of a text, and the text after its last line. A title that
is not alone on its last line does not belong to it. -/
def definition? (text : Text) : Option ((Text × Target) × Text) :=
  match text with
  | '[' :: text =>
    match label? text with
    | some (label, ':' :: rest) =>
      (destination? (skipWithinLine rest)).bind fun (destination, rest) =>
        let plain := (skipBlankLine? rest).map fun rest => (⟨destination, none⟩, rest)
        let titled : Option (Target × Text) :=
          if rest.head?.any isSpacing then
            (title? (skipWithinLine rest)).bind fun (title, rest) =>
              (skipBlankLine? rest).map fun rest => (⟨destination, some title⟩, rest)
          else none
        (titled.or plain).map fun (target, rest) => ((normalizedLabel label, target), rest)
    | _ => none
  | _ => none

/-- The definitions at the start of a paragraph, and the text after them. -/
def definitions : Nat → Text → Targets × Text
  | 0, text => ([], text)
  | steps + 1, text =>
    match definition? (Text.trimIndent text) with
    | none => ([], text)
    | some (definition, rest) =>
      let (more, rest) := definitions steps rest
      (definition :: more, rest)

end DocumentLayout.Markdown
