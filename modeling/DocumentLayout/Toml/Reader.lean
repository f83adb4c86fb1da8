import DocumentLayout.Toml.Scalar

/-!
# TOML documents

A document is a list of lines: keys with values, and headers of tables. Arrays and inline tables may
run over several lines and have a comma after the last item.
-/

namespace DocumentLayout.Toml

/-! ## Space between tokens -/

/-- The text after spaces and tabs. -/
def skipSpace (text : Text) : Text := text.dropWhile fun c => c == ' ' || c == '\t'

/-- The text after white space, line breaks and comments; nothing when one of them holds a
character that it must not. -/
def skipTrivia? (inComment : Bool) : Text → Option Text
  | [] => some []
  | '\r' :: '\n' :: rest => skipTrivia? false rest
  | c :: rest =>
    if c = '\n' then skipTrivia? false rest
    else if inComment then if isVisible c then skipTrivia? true rest else none
    else if c = ' ' ∨ c = '\t' then skipTrivia? false rest
    else if c = '#' then skipTrivia? true rest
    else some (c :: rest)

/-- The text after the rest of a line, which holds at most a comment. -/
def endLine? (inComment : Bool) : Text → Option Text
  | [] => some []
  | '\r' :: '\n' :: rest => some rest
  | c :: rest =>
    if c = '\n' then some rest
    else if inComment then if isVisible c then endLine? true rest else none
    else if c = ' ' ∨ c = '\t' then endLine? false rest
    else if c = '#' then endLine? true rest
    else none

/-! ## Keys -/

/-- The characters of a key without quotes. -/
def isKeyChar (c : Char) : Bool := c.isAlphanum || c == '_' || c == '-'

/-- The simple key at the start of a text, and the text after it. -/
def key? (text : Text) : Option (Text × Text) :=
  match text with
  | '"' :: rest => basic? (rest.length + 1) rest
  | '\'' :: rest => raw? rest
  | text =>
    let name := text.takeWhile isKeyChar
    if name = [] then none else some (name, text.drop name.length)

/-- The dotted key at the start of a text: the simple keys but the last, the last one, and the text
after them and the space that follows. -/
def path? : Nat → Text → Option (List Text × Text × Text)
  | 0, _ => none
  | fuel + 1, text => do
    let (name, rest) ← key? (skipSpace text)
    match skipSpace rest with
    | '.' :: rest => do
      let (path, last, rest) ← path? fuel rest
      some (name :: path, last, rest)
    | rest => some ([], name, rest)

/-! ## Values -/

/-- How deeply arrays and inline tables may be nested. -/
def depthLimit : Nat := 80

/-- Whether a character ends a scalar without quotes. -/
def endsScalar (c : Char) : Bool := " \t\r\n#,=[]\x7b\x7d\"'".toList.contains c

/-- The scalar without quotes at the start of a text, and the text after it. A date and a time may
have a space between them. -/
def cutScalar (text : Text) : Text × Text :=
  let first := text.takeWhile (!endsScalar ·)
  let rest := text.drop first.length
  match date? first, rest with
  | some (_, []), ' ' :: c :: _ =>
    if c.isDigit then
      let second := (rest.drop 1).takeWhile (!endsScalar ·)
      (first ++ ' ' :: second, rest.drop (second.length + 1))
    else (first, rest)
  | _, _ => (first, rest)

mutual

/-- The value at the start of a text, below which `depth` containers may be nested, and the text
after it. -/
def value? : Nat → Nat → Text → Option (Toml × Text)
  | 0, _, _ => none
  | fuel + 1, depth, text =>
    match text with
    | '[' :: rest =>
      if depth = 0 then none
      else (items? fuel (depth - 1) rest).map fun (items, rest) => (.array items, rest)
    | '\x7b' :: rest =>
      if depth = 0 then none
      else
        (members? fuel (depth - 1) [] rest).map fun (members, rest) =>
          (.table .inline members, rest)
    | text =>
      if text.head? = some '"' ∨ text.head? = some '\'' then
        (string? text).map fun (text, rest) => (.string text, rest)
      else
        let (scalar, rest) := cutScalar text
        (scalar? scalar).map fun value => (value, rest)

/-- The items of an array up to its end, and the text after it. -/
def items? : Nat → Nat → Text → Option (List Toml × Text)
  | 0, _, _ => none
  | fuel + 1, depth, text => do
    match ← skipTrivia? false text with
    | ']' :: rest => some ([], rest)
    | text =>
      let (item, rest) ← value? fuel depth text
      match ← skipTrivia? false rest with
      | ',' :: rest => (items? fuel depth rest).map fun (items, rest) => (item :: items, rest)
      | ']' :: rest => some ([item], rest)
      | _ => none

/-- The members of an inline table up to its end, with those in `known`, and the text after it. -/
def members? : Nat → Nat → Named Toml → Text → Option (Named Toml × Text)
  | 0, _, _, _ => none
  | fuel + 1, depth, known, text => do
    match ← skipTrivia? false text with
    | '\x7d' :: rest => some (known, rest)
    | text =>
      let (path, name, rest) ← path? (text.length + 1) text
      let rest ← Text.dropPrefix? ['='] rest
      let (value, rest) ← value? fuel depth (skipSpace rest)
      let (_, known) ← insertAt? path name value .inline known
      match ← skipTrivia? false rest with
      | ',' :: rest => members? fuel depth known rest
      | '\x7d' :: rest => some (known, rest)
      | _ => none

end

/-! ## Documents -/

/-- What is known in the middle of a document: all members so far, and the path of the table whose
header came last. -/
structure Progress where
  members : Named Toml
  path : List Text
  deriving Inhabited

/-- The start of a document. -/
def Progress.start : Progress := ⟨[], []⟩

/-- The progress after a header with the given way to open its table. -/
def Progress.header? (progress : Progress) (opened : Text → Change) (path : List Text)
    (name : Text) : Option Progress :=
  (change? .implied (opened name) path .header progress.members).map fun (_, members) =>
    ⟨members, path ++ [name]⟩

/-- The progress after a key with its value. -/
def Progress.insert? (progress : Progress) (path : List Text) (name : Text) (value : Toml) :
    Option Progress :=
  (change? .implied (insertAt? path name value) progress.path .header progress.members).map
    fun (_, members) => { progress with members }

/-- The progress after the line at the start of a text, and the text after the line. -/
def line? (progress : Progress) (text : Text) : Option (Progress × Text) :=
  match text with
  | '[' :: '[' :: rest => do
    let (path, name, rest) ← path? (rest.length + 1) rest
    let rest ← Text.dropPrefix? [']', ']'] rest
    let rest ← endLine? false rest
    let progress ← progress.header? openNext? path name
    some (progress, rest)
  | '[' :: rest => do
    let (path, name, rest) ← path? (rest.length + 1) rest
    let rest ← Text.dropPrefix? [']'] rest
    let rest ← endLine? false rest
    let progress ← progress.header? open? path name
    some (progress, rest)
  | text => do
    let (path, name, rest) ← path? (text.length + 1) text
    let rest ← Text.dropPrefix? ['='] rest
    let (value, rest) ← value? (2 * rest.length + 2) depthLimit (skipSpace rest)
    let rest ← endLine? false rest
    let progress ← progress.insert? path name value
    some (progress, rest)

/-- The members of a document whose first lines have been read. -/
def lines : Nat → Progress → Text → Option (Named Toml)
  | 0, _, _ => none
  | fuel + 1, progress, text => do
    match ← skipTrivia? false text with
    | [] => some progress.members
    | text =>
      let (progress, rest) ← line? progress text
      lines fuel progress rest

/-- The members of the table that a TOML text stands for; nothing when it is not well formed. -/
def document? (text : Text) : Option (Named Toml) :=
  let text := match text with
    | '\ufeff' :: text => text
    | text => text
  lines (text.length + 1) .start text

/-- The metadata that a TOML text stands for; nothing when it is not well formed or holds a number
that is too large. -/
def read? (text : Text) : Option Value :=
  (document? text).bind fun members => (membersToEntries? members).map .mapping

end DocumentLayout.Toml
