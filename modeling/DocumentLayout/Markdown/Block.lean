import DocumentLayout.Markdown.Link

/-!
# Blocks of prose

Prose is a sequence of blocks. Text inside a block is still as written: it is read once all
definitions are known.
-/

namespace DocumentLayout.Markdown

/-- Where the cells of a column stand. -/
inductive Alignment where
  | unset
  | left
  | center
  | right
  deriving DecidableEq, Repr, Inhabited

/-- What marks the items of a list. -/
inductive ListMark where
  | bullet (mark : Char)
  /-- A number, and the character after it. -/
  | number (start : Nat) (mark : Char)
  deriving DecidableEq, Repr, Inhabited

/-- Whether an item with one mark goes on with a list of another. Numbers need not follow one
another. -/
def ListMark.continues : ListMark → ListMark → Bool
  | .bullet mark, .bullet other => mark == other
  | .number _ mark, .number _ other => mark == other
  | _, _ => false

/-- A block of prose. -/
inductive Block where
  | paragraph (text : Text)
  | heading (level : Nat) (text : Text)
  | rule
  /-- Code with the word that names its language; `closed` is false when a fence is missing. -/
  | code (language : Option Text) (text : Text) (closed : Bool)
  | tags (text : Text)
  | table (columns : List Alignment) (header : List Text) (rows : List (List Text))
  | quote (content : List Block)
  /-- A list of items. The paragraphs of a list that is not loose stand without tags. -/
  | list (mark : ListMark) (loose : Bool) (items : List (List Block))
  /-- The targets that labels stand for. -/
  | definitions (targets : Targets)
  /-- What a note with a label says. -/
  | note (label : Text) (content : List Block)
  deriving Repr, Inhabited

mutual

/-- The targets defined in a block, in the order of the document. -/
def Block.targets : Block → Targets
  | .definitions targets => targets
  | .quote content | .note _ content => Block.allTargets content
  | .list _ _ items => Block.itemTargets items
  | _ => []

/-- The targets defined in several blocks. -/
def Block.allTargets : List Block → Targets
  | [] => []
  | block :: rest => block.targets ++ Block.allTargets rest

/-- The targets defined in the items of a list. -/
def Block.itemTargets : List (List Block) → Targets
  | [] => []
  | item :: rest => Block.allTargets item ++ Block.itemTargets rest

end

/-- What the notes of a document say, by their labels as labels are compared. -/
abbrev Notes := List (Text × List Block)

mutual

/-- The notes in a block, in the order of the document. -/
def Block.notes : Block → Notes
  | .note label content => (label, content) :: Block.allNotes content
  | .quote content => Block.allNotes content
  | .list _ _ items => Block.itemNotes items
  | _ => []

/-- The notes in several blocks. -/
def Block.allNotes : List Block → Notes
  | [] => []
  | block :: rest => block.notes ++ Block.allNotes rest

/-- The notes in the items of a list. -/
def Block.itemNotes : List (List Block) → Notes
  | [] => []
  | item :: rest => Block.allNotes item ++ Block.itemNotes rest

end

end DocumentLayout.Markdown
