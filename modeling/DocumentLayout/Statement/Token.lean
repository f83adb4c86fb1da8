import DocumentLayout.Text.Basic

/-!
# Tokens of module statements

The tokens that tell a module statement from prose that starts with the same word. Anything else
(operators, numbers, a string that is never closed) is a lexeme without a token, so a text of any
kind can be read.
-/

namespace DocumentLayout.Statement

/-- The tokens of the statement grammar. -/
inductive Token where
  | «import»
  | «export»
  | default
  | «from»
  | «as»
  /-- A word that starts a declaration, such as `const` or `class`. -/
  | declaration
  | braceOpen
  | braceClose
  | star
  | comma
  | semicolon
  | newline
  | string
  | identifier
  deriving DecidableEq, Repr, Inhabited

/-- A stretch of the text: the token it is, if it is one, its own characters, and the skipped
characters after it. -/
structure Lexeme where
  token : Option Token
  text : Text
  gap : Text
  deriving DecidableEq, Repr, Inhabited

namespace Token

/-- The words that start a declaration. -/
def declarations : List Text :=
  ["const", "let", "var", "function", "class", "async", "type", "interface", "enum", "declare",
    "abstract"].map String.toList

/-- A whole word is a keyword or an identifier. -/
def ofWord (word : Text) : Token :=
  if word = "import".toList then .import
  else if word = "export".toList then .export
  else if word = "default".toList then .default
  else if word = "from".toList then .from
  else if word = "as".toList then .as
  else if word ∈ declarations then .declaration
  else .identifier

/-- The token that a single character stands for. -/
def ofMark? : Char → Option Token
  | '{' => some .braceOpen
  | '}' => some .braceClose
  | '*' => some .star
  | ',' => some .comma
  | ';' => some .semicolon
  | '\n' => some .newline
  | _ => none

/-- The characters between tokens that carry no meaning. -/
def isGap (c : Char) : Bool := c == ' ' || c == '\t' || c == '\r' || c == '\x0c'

/-- The characters that may start a word. -/
def isWordStart (c : Char) : Bool := c.isAlpha || c == '_' || c == '$'

/-- The characters that may go on with a word. -/
def isWordRest (c : Char) : Bool := c.isAlphanum || c == '_' || c == '$'

/-- The two characters that open a string, which the same character closes. -/
def isQuote (c : Char) : Bool := c == '"' || c == '\''

/-- The inside of a string up to its closing quote, and whether there is one. A backslash takes
the next character with it, and a string does not run over the end of a line. -/
def stringBody (quote : Char) : Text → Text × Bool
  | [] => ([], false)
  | '\\' :: '\n' :: _ => (['\\'], false)
  | '\\' :: c :: rest =>
    let (body, closed) := stringBody quote rest
    ('\\' :: c :: body, closed)
  | c :: rest =>
    if c = quote then ([c], true)
    else if c = '\n' then ([], false)
    else
      let (body, closed) := stringBody quote rest
      (c :: body, closed)

/-- The longest lexeme at a character that is no gap. A string that is not closed is one lexeme
without a token, as is any other character that starts no token. -/
def longest (c : Char) (rest : Text) : Option Token × Text :=
  if isWordStart c then
    let word := c :: rest.takeWhile isWordRest
    (some (ofWord word), word)
  else if isQuote c then
    let (body, closed) := stringBody c rest
    (if closed then some .string else none, c :: body)
  else (ofMark? c, [c])

/-- A lexeme has at least one character. -/
theorem longest_ne_nil (c : Char) (rest : Text) : (longest c rest).2 ≠ [] := by
  unfold longest
  split
  · simp
  · split <;> simp

end Token

namespace Lexeme

/-- The characters of a lexeme and of the gap after it. -/
def span (lexeme : Lexeme) : Text := lexeme.text ++ lexeme.gap

/-- The characters of consecutive lexemes. -/
def spans (lexemes : List Lexeme) : Text := lexemes.flatMap span

/-- Whether a lexeme is the token `token`. -/
def is (token : Token) (lexeme : Lexeme) : Bool := lexeme.token == some token

/-- The lexeme that starts with the character `c`, and the text after its gap. -/
def cut (c : Char) (rest : Text) : Lexeme × Text :=
  let (token, text) := Token.longest c rest
  let after := (c :: rest).drop text.length
  (⟨token, text, after.takeWhile Token.isGap⟩, after.dropWhile Token.isGap)

/-- What is left after a lexeme is shorter. -/
theorem length_cut_lt (c : Char) (rest : Text) : (cut c rest).2.length < (c :: rest).length := by
  have pos := List.length_pos_iff.2 (Token.longest_ne_nil c rest)
  have le := (List.dropWhile_suffix Token.isGap
    (l := (c :: rest).drop (Token.longest c rest).2.length)).length_le
  simp only [cut, List.length_drop, List.length_cons] at le ⊢
  omega

/-- The lexemes of a text that does not start in a gap. -/
def ofTrimmed : Text → List Lexeme
  | [] => []
  | c :: rest => (cut c rest).1 :: ofTrimmed (cut c rest).2
termination_by text => text.length
decreasing_by exact length_cut_lt c rest

/-- The lexemes of a text in order, after the gap that it may start with. -/
def ofText (text : Text) : List Lexeme := ofTrimmed (text.dropWhile Token.isGap)

end Lexeme

end DocumentLayout.Statement
