import DocumentLayout.Statement.Basic
import DocumentLayout.Statement.Token

/-!
# Reading statement blocks

A block is the text up to the first empty line. It is read as lexemes, cut into candidates at
every line that opens with a statement keyword, and each candidate is checked for the shape of a
module statement. The first candidate has to be a statement; a later one that is none goes on with
the statement before it.
-/

namespace DocumentLayout

namespace Statement

/-! ## The shape of a statement -/

/-- What the tokens of a statement say about it. -/
structure Shape where
  kind : StatementKind
  isDefaultExport : Bool
  deriving DecidableEq, Repr, Inhabited

/-- Whether the tokens `a` and `b` stand side by side. -/
def hasPair (a b : Token) : List (Option Token) → Bool
  | x :: y :: rest => (x == some a && y == some b) || hasPair a b (y :: rest)
  | _ => false

/-- Whether the tokens name a module: `from` and then a string. -/
def hasSource (tokens : List (Option Token)) : Bool := hasPair .from .string tokens

/-- The tokens up to the first closing brace, that brace included. -/
def throughBrace? : List (Option Token) → Option (List (Option Token))
  | [] => none
  | some .braceClose :: _ => some [some .braceClose]
  | token :: rest => (throughBrace? rest).map (token :: ·)

/-- Whether `default` stands alone between two separators of a brace list. -/
def listsDefault : List (Option Token) → Bool
  | x :: y :: z :: rest =>
    ((x == some .braceOpen || x == some .comma) && y == some .default &&
      (z == some .braceClose || z == some .comma)) || listsDefault (y :: z :: rest)
  | _ => false

/-- Whether a brace list exports something under the name `default`. -/
def exportsDefault (specifiers : List (Option Token)) : Bool :=
  hasPair .as .default specifiers || listsDefault specifiers

/-- The shape of a statement with these tokens, line breaks left out; nothing when they are no
module statement. Only the least is asked for: an import names a module, and an export goes on
with `default`, a declaration, a brace list that is closed, or a star that names a module. -/
def shape? : List (Option Token) → Option Shape
  | some .import :: rest =>
    if rest.head? = some (some .string) || hasSource rest then some ⟨.import, false⟩ else none
  | some .export :: some .default :: _ :: _ => some ⟨.export, true⟩
  | some .export :: some .declaration :: _ :: _ => some ⟨.export, false⟩
  | some .export :: some .braceOpen :: rest =>
    (throughBrace? rest).map fun specifiers =>
      ⟨.export, exportsDefault (some .braceOpen :: specifiers)⟩
  | some .export :: some .star :: rest =>
    if hasSource rest then some ⟨.export, false⟩ else none
  | _ => none

/-! ## Candidates -/

/-- Whether white space follows a lexeme directly, given the lexemes after it. -/
def Lexeme.isSpaced (lexeme : Lexeme) (following : List Lexeme) : Bool :=
  match lexeme.gap, following with
  | _ :: _, _ => true
  | [], next :: _ => next.text.head?.any Text.isSpace
  | [], [] => false

/-- Whether a lexeme at the start of a line opens a candidate: a statement keyword with white
space after it. -/
def Lexeme.opens (lexeme : Lexeme) (following : List Lexeme) : Bool :=
  (lexeme.is .import || lexeme.is .export) && lexeme.isSpaced following

/-- The lexemes in front of the first candidate, and the candidates. A candidate runs up to the
next one. -/
def candidates (atLineStart : Bool) : List Lexeme → List Lexeme × List (List Lexeme)
  | [] => ([], [])
  | lexeme :: rest =>
    let (front, groups) := candidates (lexeme.is .newline) rest
    if atLineStart && lexeme.opens rest then ([], (lexeme :: front) :: groups)
    else (lexeme :: front, groups)

/-- The shape of a candidate. -/
def candidateShape? (group : List Lexeme) : Option Shape :=
  shape? ((group.filter fun lexeme => !lexeme.is .newline).map (·.token))

/-- A statement of a shape with this text. -/
def ofShape (shape : Shape) (text : Text) : Statement :=
  ⟨shape.kind, shape.isDefaultExport, Text.trimEnd text⟩

/-- The statements that remain when `text` of shape `shape` has been read so far: a candidate
that is no statement adds its text to the one before it. -/
def settle (shape : Shape) (text : Text) : List (List Lexeme) → List Statement
  | [] => [ofShape shape text]
  | group :: groups =>
    match candidateShape? group with
    | some next => ofShape shape text :: settle next (Lexeme.spans group) groups
    | none => settle shape (text ++ Lexeme.spans group) groups

/-- The statements of a text: nothing when it does not open with a statement, empty lines apart. -/
def split? (text : Text) : Option (List Statement) :=
  let (front, groups) := candidates true (Lexeme.ofText text)
  if front.all (·.is .newline) then
    match groups with
    | [] => none
    | group :: groups =>
      (candidateShape? group).map fun shape => settle shape (Lexeme.spans group) groups
  else none

end Statement

/-! ## Blocks -/

/-- A statement block ends at an empty line. -/
def StatementBlock.separator : Text := ['\n', '\n']

/-- The statement block at the start of a text. Without an empty line after it there is none,
since the block would take the rest of the document with it. -/
def StatementBlock.read? (text : Text) : Option StatementBlock :=
  (Text.cutAt? separator text).bind fun (raw, _) =>
    (Statement.split? raw).map fun statements => ⟨raw, statements⟩

/-! ## Where blocks may start -/

namespace Statement

/-- Whether a text opens, after spaces and tabs, with a statement keyword and white space. -/
def opensLine (text : Text) : Bool :=
  let start := Text.trimIndent text
  [StatementKind.import, StatementKind.export].any fun kind =>
    ((Text.dropPrefix? kind.keyword start).bind List.head?).any Text.isSpace

/-- The offset of the first line that opens with a statement keyword, when the text starts at
`offset` and, if `atLineStart`, at the start of a line. -/
def locateFrom (offset : Nat) (atLineStart : Bool) : Text → Option Nat
  | [] => none
  | c :: rest =>
    if atLineStart && opensLine (c :: rest) then some offset
    else locateFrom (offset + c.utf8Size) (c == '\n') rest

/-- The offset of the first line of a text that opens with a statement keyword. -/
def locate? (text : Text) : Option Nat := locateFrom 0 true text

end Statement

end DocumentLayout
