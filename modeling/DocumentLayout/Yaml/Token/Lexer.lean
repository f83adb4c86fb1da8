import DocumentLayout.Yaml.Token.Scalar
import DocumentLayout.Yaml.Token.Tag

/-!
# The YAML lexer

Reads the tokens of a stream. Two things need memory. The columns of the open blocks tell where
blocks open and close. And whatever may turn out to be a key is remembered until a colon follows
it; then the token that marks a key is put in front of it, and a block mapping is opened there if
need be.
-/

namespace DocumentLayout.Yaml

/-- A token that may turn out to start a key: its place among the tokens, where it stands, and
whether it has to be a key because it stands where only an entry of a mapping can. -/
structure KeyCandidate where
  place : Nat
  line : Nat
  column : Nat
  index : Nat
  required : Bool
  deriving Repr, Inhabited

/-- The state of the lexer. -/
structure Lexer where
  input : Input
  /-- The tokens read so far, last first. -/
  tokens : List Token
  /-- The column of the innermost open block, and those of the blocks around it. -/
  indent : Int
  indents : List Int
  /-- Whether a key may start at the next token. -/
  keyAllowed : Bool
  /-- The last candidate for a key, and those outside the brackets that are open. -/
  candidate : Option KeyCandidate
  outer : List (Option KeyCandidate)
  deriving Repr, Inhabited

namespace Lexer

/-- The lexer at the start of a text. -/
def ofText (text : Text) : Lexer := ⟨.ofText text, [], -1, [], true, none, []⟩

/-- Whether brackets or braces are open. -/
def inFlow (lexer : Lexer) : Bool := !lexer.outer.isEmpty

/-- Adds a token. -/
def push (lexer : Lexer) (token : Token) : Lexer := { lexer with tokens := token :: lexer.tokens }

/-- Adds a token that stands at the place `place` among all tokens. -/
def insertAt (lexer : Lexer) (place : Nat) (token : Token) : Lexer :=
  let later := lexer.tokens.length - place
  { lexer with tokens := lexer.tokens.take later ++ token :: lexer.tokens.drop later }

/-- Moves on by characters of the same line. -/
def advance (lexer : Lexer) (count : Nat) : Lexer :=
  { lexer with input := lexer.input.advance count }

/-! ## Blocks -/

/-- Opens a block at a column when it lies to the right of the innermost block, with its token at
the place `place` or after all others. Brackets have no block structure. -/
def openBlock (lexer : Lexer) (column : Nat) (place : Option Nat) (token : Token) : Lexer :=
  if !lexer.inFlow && lexer.indent < column then
    let lexer := match place with
      | some place => lexer.insertAt place token
      | none => lexer.push token
    { lexer with indent := column, indents := lexer.indent :: lexer.indents }
  else lexer

/-- Closes the blocks to the right of a column, given the columns of all open blocks. -/
def closeBlocks (column : Int) : List Int → Lexer → Lexer
  | [], lexer => lexer
  | parent :: parents, lexer =>
    if column < lexer.indent then
      closeBlocks column parents { lexer.push .blockEnd with indent := parent, indents := parents }
    else lexer

/-- Closes the blocks to the right of a column. Brackets have no block structure. -/
def unindent (lexer : Lexer) (column : Int) : Lexer :=
  if lexer.inFlow then lexer else closeBlocks column lexer.indents lexer

/-! ## Keys -/

/-- Whether a candidate can still be a key: a key stands on one line and starts at most 1024
characters before its colon. Fails when it had to be one and cannot. -/
def candidate? (lexer : Lexer) : Option (Option KeyCandidate) :=
  match lexer.candidate with
  | none => some none
  | some candidate =>
    if candidate.line < lexer.input.line ∨ candidate.index + 1024 < lexer.input.index then
      if candidate.required then none else some none
    else some (some candidate)

/-- Gives up the last candidate. Fails when it had to be a key. -/
def dropCandidate? (lexer : Lexer) : Option Lexer :=
  if lexer.candidate.any (·.required) then none else some { lexer with candidate := none }

/-- Remembers that the next token may start a key. -/
def saveCandidate? (lexer : Lexer) : Option Lexer :=
  if lexer.keyAllowed then
    let required := !lexer.inFlow && lexer.indent == lexer.input.column
    lexer.dropCandidate?.map fun lexer =>
      { lexer with
        candidate := some ⟨lexer.tokens.length, lexer.input.line, lexer.input.column,
          lexer.input.index, required⟩ }
  else some lexer

/-! ## White space -/

/-- Skips white space, comments and line breaks. A tab is skipped only where it cannot be taken for
indentation. After a line break outside brackets a key may start. -/
def skipSpace : Nat → Lexer → Lexer
  | 0, lexer => lexer
  | fuel + 1, lexer =>
    let input := lexer.input
    let input := if input.column = 0 ∧ input.peek? = some '\ufeff' then input.advance 1 else input
    let tabs := lexer.inFlow || !lexer.keyAllowed
    let input := (input.skipWhile fun c => c == ' ' || (tabs && c == '\t')).skipComment
    if input.peek?.any isBreak then
      skipSpace fuel
        { lexer with input := input.takeBreak.2, keyAllowed := lexer.keyAllowed || !lexer.inFlow }
    else { lexer with input }

/-! ## Tokens -/

/-- Ends all blocks and takes a line that stands outside them. -/
def atTopLevel? (lexer : Lexer) : Option Lexer :=
  (lexer.unindent (-1)).dropCandidate?.map fun lexer => { lexer with keyAllowed := false }

/-- An indicator of a width that is a token of its own. -/
def mark (lexer : Lexer) (width : Nat) (token : Token) (keyAllowed : Bool) : Lexer :=
  { (lexer.advance width).push token with keyAllowed }

/-- An opening bracket or brace. -/
def openFlow? (lexer : Lexer) (token : Token) : Option Lexer :=
  lexer.saveCandidate?.map fun lexer =>
    { lexer.mark 1 token true with outer := lexer.candidate :: lexer.outer, candidate := none }

/-- A closing bracket or brace. -/
def closeFlow? (lexer : Lexer) (token : Token) : Option Lexer :=
  lexer.dropCandidate?.map fun lexer =>
    match lexer.outer with
    | [] => lexer.mark 1 token false
    | candidate :: outer => { lexer.mark 1 token false with candidate, outer }

/-- A dash in front of an entry. -/
def blockEntry? (lexer : Lexer) : Option Lexer :=
  if !lexer.inFlow && !lexer.keyAllowed then none
  else
    ((lexer.openBlock lexer.input.column none .blockSequenceStart).dropCandidate?).map
      (·.mark 1 .blockEntry true)

/-- A question mark in front of a key. -/
def keyMark? (lexer : Lexer) : Option Lexer :=
  if !lexer.inFlow && !lexer.keyAllowed then none
  else
    ((lexer.openBlock lexer.input.column none .blockMappingStart).dropCandidate?).map
      fun lexer => lexer.mark 1 .key (!lexer.inFlow)

/-- A colon in front of a value. Either a key stands before it, which is now marked, or the key is
empty. -/
def valueMark? (lexer : Lexer) : Option Lexer :=
  lexer.candidate?.bind fun found =>
    match found with
    | some key =>
      let lexer := (lexer.insertAt key.place .key).openBlock key.column (some key.place)
        .blockMappingStart
      some ({ lexer with candidate := none }.mark 1 .value false)
    | none =>
      if lexer.inFlow then some ({ lexer with candidate := none }.mark 1 .value false)
      else if !lexer.keyAllowed then none
      else
        let lexer := { lexer with candidate := none }.openBlock lexer.input.column none
          .blockMappingStart
        some (lexer.mark 1 .value true)

/-- A token that may be a key or start one, read by `read?`. -/
def keyLike? (lexer : Lexer) (read? : Input → Option (Token × Input)) : Option Lexer :=
  lexer.saveCandidate?.bind fun lexer =>
    (read? lexer.input).map fun (token, input) =>
      { lexer.push token with input, keyAllowed := false }

/-- A scalar as a block of lines. -/
def blockScalar? (lexer : Lexer) (literal : Bool) : Option Lexer :=
  lexer.dropCandidate?.bind fun lexer =>
    (Yaml.blockScalar? literal lexer.indent lexer.input).map fun (text, input) =>
      { lexer.push (.scalar text false) with input, keyAllowed := true }

/-- A plain scalar. A line break behind it allows a key to follow. -/
def plainScalar? (lexer : Lexer) : Option Lexer :=
  lexer.saveCandidate?.bind fun lexer =>
    (Yaml.plainScalar? lexer.inFlow (lexer.indent + 1).toNat lexer.input).map fun scalar =>
      { lexer.push (.scalar scalar.text true) with
        input := scalar.input
        keyAllowed := scalar.endsLine }

/-- Whether a plain scalar may start here. -/
def startsPlain (inFlow : Bool) (c : Char) (rest : Text) : Bool :=
  !(isBlankOrBreak c || "-?:,[]\x7b\x7d#&*!|>'\"%@\x60".toList.contains c) ||
  (c == '-' && !rest.head?.any isBlank) ||
  (!inFlow && (c == '?' || c == ':') && !endsOrBlank rest)

/-- The tokens at the next character, which is no white space. -/
def token? (lexer : Lexer) (c : Char) (rest : Text) : Option Lexer :=
  let input := lexer.input
  let inFlow := lexer.inFlow
  if input.column = 0 ∧ c = '%' then
    lexer.atTopLevel?.bind fun lexer =>
      (directive? lexer.input).map fun (token, input) => { lexer.push token with input }
  else if input.startsMarker "---".toList then lexer.atTopLevel?.map (·.mark 3 .documentStart false)
  else if input.startsMarker "...".toList then lexer.atTopLevel?.map (·.mark 3 .documentEnd false)
  else if c = '[' then lexer.openFlow? .flowSequenceStart
  else if c = '\x7b' then lexer.openFlow? .flowMappingStart
  else if c = ']' then lexer.closeFlow? .flowSequenceEnd
  else if c = '\x7d' then lexer.closeFlow? .flowMappingEnd
  else if c = ',' then lexer.dropCandidate?.map (·.mark 1 .flowEntry true)
  else if c = '-' ∧ endsOrBlank rest then lexer.blockEntry?
  else if c = '?' ∧ (inFlow ∨ endsOrBlank rest) then lexer.keyMark?
  else if c = ':' ∧ (inFlow ∨ endsOrBlank rest) then lexer.valueMark?
  else if c = '*' then
    lexer.keyLike? fun input => (anchorName? input).map fun (name, input) => (.alias name, input)
  else if c = '&' then
    lexer.keyLike? fun input => (anchorName? input).map fun (name, input) => (.anchor name, input)
  else if c = '!' then lexer.keyLike? (tag? inFlow)
  else if c = '|' ∧ !inFlow then lexer.blockScalar? true
  else if c = '>' ∧ !inFlow then lexer.blockScalar? false
  else if c = '\'' then
    lexer.keyLike? fun input =>
      (quotedScalar? false input).map fun (text, input) => (.scalar text false, input)
  else if c = '"' then
    lexer.keyLike? fun input =>
      (quotedScalar? true input).map fun (text, input) => (.scalar text false, input)
  else if startsPlain inFlow c rest then lexer.plainScalar?
  else none

/-- The end of the stream, which ends all blocks. -/
def finish? (lexer : Lexer) : Option Lexer :=
  let input := lexer.input
  let input :=
    if input.column = 0 then input else { input with line := input.line + 1, column := 0 }
  { lexer with input }.atTopLevel?

/-- Reads to the end of the stream. Every token takes at least one character. -/
def run? : Nat → Lexer → Option Lexer
  | 0, _ => none
  | fuel + 1, lexer =>
    let lexer := skipSpace (lexer.input.rest.length + 1) lexer
    let lexer := lexer.unindent lexer.input.column
    match lexer.input.rest with
    | [] => lexer.finish?
    | c :: rest => (lexer.token? c rest).bind (run? fuel)

end Lexer

/-- The tokens of a stream; nothing when it is not well formed. A byte order mark at its start
belongs to the encoding and not to the text. -/
def tokens? (text : Text) : Option (List Token) :=
  let text := (Text.dropPrefix? ['\ufeff'] text).getD text
  if text.all isAllowed then
    (Lexer.run? (text.length + 1) (.ofText text)).map (·.tokens.reverse)
  else none

end DocumentLayout.Yaml
