import DocumentLayout.Markdown.Link

/-!
# Inline content

The text of a paragraph, a heading or a cell is a sequence of words, marked stretches, links and the
like.
-/

namespace DocumentLayout.Markdown

/-- What marks around a stretch of text mean. -/
inductive Style where
  | emphasis
  | strong
  | deleted
  deriving DecidableEq, Repr, Inhabited

/-- A piece of inline content. -/
inductive Inline where
  /-- Characters that stand for themselves. -/
  | text (text : Text)
  /-- Characters that an escape or a reference stands for. -/
  | escaped (text : Text)
  | softBreak
  | hardBreak
  | code (text : Text)
  /-- A tag as it is written. -/
  | tag (text : Text)
  | styled (style : Style) (content : List Inline)
  | link (target : Target) (content : List Inline)
  | image (target : Target) (description : List Inline)
  /-- An address that is a link without marks, and the text that shows it. -/
  | address (destination shown : Text)
  /-- A reference to the note with a label. -/
  | call (label : Text)
  /-- The box at the start of an item that is a task. -/
  | checkbox (done : Bool)
  deriving Repr, Inhabited

mutual

/-- The characters of a piece, without what they mean. -/
def Inline.plain : Inline → Text
  | .text shown | .escaped shown | .code shown | .tag shown => shown
  | .softBreak | .hardBreak => ['\n']
  | .styled _ content | .link _ content | .image _ content => Inline.plainAll content
  | .address _ shown => shown
  | .call _ | .checkbox _ => []

/-- The characters of several pieces. -/
def Inline.plainAll : List Inline → Text
  | [] => []
  | inline :: rest => inline.plain ++ Inline.plainAll rest

end

/-- Pieces with neighbouring texts made one. -/
def Inline.merge : List Inline → List Inline
  | [] => []
  | .text shown :: rest =>
    match merge rest with
    | .text more :: rest => .text (shown ++ more) :: rest
    | rest => if shown = [] then rest else .text shown :: rest
  | inline :: rest => inline :: merge rest

end DocumentLayout.Markdown
