import DocumentLayout.Block.Container
import DocumentLayout.Block.Leaf
import DocumentLayout.Text.Quoted

/-!
# Block parsers

A parser is an ordered list of tokenizers, no two of the same name. At each position of a text the
first tokenizer that claims something wins, and the text goes on after its claim. The content of
containers is parsed by the same list, to a limited depth.
-/

namespace DocumentLayout

/-- An ordered list of tokenizers. -/
structure Parser where
  tokenizers : List Tokenizer

namespace Parser

/-! ## The list of tokenizers -/

/-- The tokenizers for prose, code and containers, in the order in which they are tried. -/
def standardTokenizers : List Tokenizer := [
  .ofLines "blank_line" Block.blankLines,
  .ofLines "indented_code" Block.indentedCode,
  .ofLines "fenced_code" Block.fencedCode,
  .always "block_quote" Block.blockQuote,
  .ofLines "atx_heading" Block.atxHeading,
  .ofLines "thematic_break" Block.thematicBreak,
  .always "list" Block.list,
  .ofLines "setext_heading" Block.setextHeading,
  .ofLines "html" Block.html,
  .ofLines "table" Block.table,
  .ofLines "paragraph" Block.paragraph]

/-- The tokenizer of statement blocks. -/
def statementTokenizer : Tokenizer where
  name := "statement".toList
  locate := Block.locateStatement
  tryConsume := fun _ text => .ok (Block.statement text)

/-- The parser without a tokenizer. It parses the empty text only. -/
def empty : Parser := ⟨[]⟩

/-- The parser for prose, code and containers. -/
def standard : Parser := ⟨standardTokenizers⟩

instance : Inhabited Parser := ⟨standard⟩

/-- The names of the tokenizers in the order in which they are tried. -/
def names (parser : Parser) : List Text := parser.tokenizers.map (·.name)

/-- The place of a name in the list. -/
def position? (parser : Parser) (name : Text) : Option Nat :=
  parser.names.findIdx? (· == name)

/-- Whether a tokenizer of this name is in the list. -/
def contains (parser : Parser) (name : Text) : Bool := (parser.position? name).isSome

/-- The names as a list in brackets, each in quotes. -/
def describe (parser : Parser) : Text :=
  '[' :: ", ".toList.intercalate (parser.names.map Text.quoted) ++ [']']

/-! ## Edits -/

/-- The list with a tokenizer after all others; nothing when its name is taken. -/
def push? (parser : Parser) (tokenizer : Tokenizer) : Option Parser :=
  if parser.contains tokenizer.name then none
  else some ⟨parser.tokenizers ++ [tokenizer]⟩

/-- The list with a tokenizer directly before the one named `anchor`, or after all others when
there is none of that name; nothing when its own name is taken. -/
def insertBefore? (parser : Parser) (anchor : Text) (tokenizer : Tokenizer) : Option Parser :=
  if parser.contains tokenizer.name then none
  else
    let index := (parser.position? anchor).getD parser.tokenizers.length
    some ⟨parser.tokenizers.take index ++ tokenizer :: parser.tokenizers.drop index⟩

/-- The list without the tokenizer of this name; nothing when there is none. -/
def remove? (parser : Parser) (name : Text) : Option Parser :=
  (parser.position? name).map fun index => ⟨parser.tokenizers.eraseIdx index⟩

/-- The list with the tokenizer of statement blocks directly before that of paragraphs; nothing
when it is there already. -/
def install? (parser : Parser) : Option Parser :=
  parser.insertBefore? "paragraph".toList statementTokenizer

/-- A change to the list of tokenizers. -/
inductive Edit where
  | push (tokenizer : Tokenizer)
  | insertBefore (anchor : Text) (tokenizer : Tokenizer)
  | remove (name : Text)
  | install

/-- The list after an edit; nothing when the edit does not apply. -/
def Edit.run? : Edit → Parser → Option Parser
  | .push tokenizer, parser => parser.push? tokenizer
  | .insertBefore anchor tokenizer, parser => parser.insertBefore? anchor tokenizer
  | .remove name, parser => parser.remove? name
  | .install, parser => parser.install?

/-- The list after an edit, which stays as it is when the edit does not apply. -/
def edit (parser : Parser) (edit : Edit) : Parser := (edit.run? parser).getD parser

/-- A caller's way to change a parser: edits made one after another. -/
abbrev Extension := List Edit

/-- The list after the edits of an extension. -/
def extend (parser : Parser) (extension : Extension) : Parser := extension.foldl edit parser

/-! ## Parsing -/

/-- Added to every text, so that its end is also the end of a block. -/
def terminator : Text := ['\n', '\n']

/-- The first claim on the start of a text, with the name of the tokenizer that made it. -/
def claimAt? (cursor : Cursor) (text : Text) :
    List Tokenizer → Except Error (Option (Text × Claim))
  | [] => .ok none
  | tokenizer :: tokenizers =>
    if (tokenizer.locate text).allowsAttempt then
      match tokenizer.tryConsume cursor text with
      | .error error => .error error
      | .ok (some claim) => .ok (some (tokenizer.name, claim))
      | .ok none => claimAt? cursor text tokenizers
    else claimAt? cursor text tokenizers

/-- Whether a claim is at least one byte, within the text and not a part of a character. -/
def isValidLength (length : Nat) (text : Text) : Bool :=
  length != 0 && (Text.dropBytes? length text).isSome

/-- The node of a claim at `offset` of a text that has `left` bytes from there on, without those
that the parser added. -/
def place (offset left : Nat) (claim : Claim) : List Node :=
  match claim.block with
  | none => []
  | some (kind, children) => [⟨kind, ⟨offset, offset + min claim.length left⟩, children⟩]

/-- The text after a claim of `length` bytes, which is empty when the claim runs into the line
breaks that the parser added. -/
def after (length : Nat) (text : Text) : Text := (Text.dropBytes? length text).getD []

theorem length_after_lt {length : Nat} {text : Text} (hlength : length ≠ 0) (htext : text ≠ []) :
    (after length text).length < text.length := by
  unfold after
  cases h : Text.dropBytes? length text with
  | none => exact List.length_pos_iff.2 htext
  | some rest => exact Text.length_lt_of_dropBytes? hlength h

/-- The nodes of the text `text` that is left at `offset`, at nesting depth `depth`, where `nested`
parses the content of containers. -/
def blocksFrom (tokenizers : List Tokenizer) (depth : Nat)
    (nested : Text → Except Error (List Node)) (offset : Nat) (text : Text) :
    Except Error (List Node) :=
  if _htext : text = [] then .ok []
  else
    let cursor : Cursor :=
      ⟨offset, depth, fun content => (nested content).mapError (.within offset)⟩
    let value := text ++ terminator
    match claimAt? cursor value tokenizers with
    | .error error => .error error
    | .ok none => .error (.parse offset .unclaimed)
    | .ok (some (name, claim)) =>
      if _hclaim : isValidLength claim.length value then
        match blocksFrom tokenizers depth nested (offset + claim.length)
            (after claim.length text) with
        | .error error => .error error
        | .ok nodes => .ok (place offset (Text.byteLength text) claim ++ nodes)
      else .error (.parse offset (.badLength name claim.length))
termination_by text.length
decreasing_by
  simp only [isValidLength, Bool.and_eq_true, bne_iff_ne, ne_eq] at _hclaim
  exact length_after_lt _hclaim.1 _htext

/-- The nodes of a text at nesting depth `depth`, below which `room` levels are left; without one
the text is refused. -/
def blocksWithin (tokenizers : List Tokenizer) : Nat → Nat → Text → Except Error (List Node)
  | 0, _, _ => .error (.parse 0 .tooDeep)
  | room + 1, depth, text =>
    blocksFrom tokenizers depth (blocksWithin tokenizers room (depth + 1)) 0 text

/-- The nodes of a text that is not inside any container. -/
def blocks (parser : Parser) (text : Text) : Except Error (List Node) :=
  blocksWithin parser.tokenizers (nestingLimit + 1) 0 text

/-- The tree of a document. Its line breaks are unified first. -/
def parse (parser : Parser) (text : Text) : Except Error Node :=
  let text := Text.unifyBreaks text
  (parser.blocks text).map fun nodes => ⟨.root, ⟨0, Text.byteLength text⟩, nodes⟩

/-! ## Documents with statements -/

/-- The parser for documents: the standard one, changed by the extensions in order, and then with
the tokenizer of statement blocks, so that this one stands directly before that of paragraphs. -/
def document (extensions : List Extension) : Parser :=
  (extensions.foldl extend standard).edit .install

end Parser

/-- The tree of a document, in which statement blocks are recognised. -/
def parseDocument (extensions : List Parser.Extension) (text : Text) : Except Error Node :=
  (Parser.document extensions).parse text

/-- Whether a document holds a default export anywhere, also inside quotes and lists. -/
def hasDefaultExport (extensions : List Parser.Extension) (text : Text) : Except Error Bool :=
  (parseDocument extensions text).map fun tree => tree.statements.any (·.isDefaultExport)

end DocumentLayout
