import DocumentLayout.Text.Blank
import DocumentLayout.Text.Basic

/-!
# Tags in prose

What looks like a piece of HTML: tags, comments, declarations and the like. Such a piece is kept
as it is and not read as prose.
-/

namespace DocumentLayout.Markdown

/-- White space inside a tag. -/
def isTagSpace (c : Char) : Bool := c == ' ' || c == '\t' || c == '\n'

/-- The text after white space inside a tag. -/
def skipTagSpace (text : Text) : Text := text.dropWhile isTagSpace

/-- The text after the name of a tag. -/
def afterTagName? (text : Text) : Option Text :=
  match text with
  | c :: rest =>
    if c.isAlpha then some (rest.dropWhile fun c => c.isAlphanum || c == '-') else none
  | [] => none

/-- The text after the value of an attribute. -/
def afterAttributeValue? (text : Text) : Option Text :=
  match text with
  | '"' :: rest => (Text.cutAt? ['"'] rest).map (·.2)
  | '\'' :: rest => (Text.cutAt? ['\''] rest).map (·.2)
  | text =>
    let value := text.takeWhile fun c => !isTagSpace c && !"\"'=<>\x60".toList.contains c
    if value = [] then none else some (text.drop value.length)

/-- The text after an attribute, which white space has to precede. -/
def afterAttribute? (text : Text) : Option Text :=
  match text with
  | c :: rest =>
    if isTagSpace c then
      match skipTagSpace rest with
      | d :: rest =>
        if d.isAlpha || d == '_' || d == ':' then
          let rest := rest.dropWhile fun c => c.isAlphanum || "_.:-".toList.contains c
          match skipTagSpace rest with
          | '=' :: value => afterAttributeValue? (skipTagSpace value)
          | _ => some rest
        else none
      | [] => none
    else none
  | [] => none

/-- The text after all attributes of a tag. -/
def afterAttributes : Nat → Text → Text
  | 0, text => text
  | steps + 1, text =>
    match afterAttribute? text with
    | some rest => afterAttributes steps rest
    | none => text

/-- The text after an opening tag, after its `<`. -/
def afterOpenTag? (text : Text) : Option Text :=
  (afterTagName? text).bind fun rest =>
    match skipTagSpace (afterAttributes rest.length rest) with
    | '>' :: rest => some rest
    | '/' :: '>' :: rest => some rest
    | _ => none

/-- The text after a closing tag, after its `</`. -/
def afterCloseTag? (text : Text) : Option Text :=
  (afterTagName? text).bind fun rest =>
    match skipTagSpace rest with
    | '>' :: rest => some rest
    | _ => none

/-- The text after the first occurrence of a mark. -/
def afterMark? (mark : String) (text : Text) : Option Text :=
  (Text.cutAt? mark.toList text).map (·.2)

/-- The text after the piece that starts after a `<`. -/
def afterTag? (text : Text) : Option Text :=
  match text with
  | '/' :: rest => afterCloseTag? rest
  | '?' :: rest => afterMark? "?>" rest
  | '!' :: '-' :: '-' :: '>' :: rest => some rest
  | '!' :: '-' :: '-' :: '-' :: '>' :: rest => some rest
  | '!' :: '-' :: '-' :: rest => afterMark? "-->" rest
  | '!' :: '[' :: 'C' :: 'D' :: 'A' :: 'T' :: 'A' :: '[' :: rest => afterMark? "]]>" rest
  | '!' :: c :: rest => if c.isAlpha then afterMark? ">" rest else none
  | text => afterOpenTag? text

/-! ## Blocks -/

/-- The names of tags that start a block. -/
def blockTags : List String := [
  "address", "article", "aside", "base", "basefont", "blockquote", "body", "caption", "center",
  "col", "colgroup", "dd", "details", "dialog", "dir", "div", "dl", "dt", "fieldset", "figcaption",
  "figure", "footer", "form", "frame", "frameset", "h1", "h2", "h3", "h4", "h5", "h6", "head",
  "header", "hr", "html", "iframe", "legend", "li", "link", "main", "menu", "menuitem", "nav",
  "noframes", "ol", "optgroup", "option", "p", "param", "search", "section", "summary", "table",
  "tbody", "td", "tfoot", "th", "thead", "title", "tr", "track", "ul"]

/-- The names of tags whose content is not read at all. -/
def rawTags : List String := ["pre", "script", "style", "textarea"]

/-- How a block of tags ends. -/
inductive TagBlock where
  /-- After the line that holds one of these marks, whatever their case. -/
  | until (marks : List String)
  /-- Before a blank line. -/
  | blankLine
  deriving DecidableEq, Repr, Inhabited

namespace TagBlock

/-- Whether a line ends a block that only a mark ends. -/
def endsAfter (block : TagBlock) (line : Text) : Bool :=
  match block with
  | .until marks => marks.any fun mark => Text.includes mark.toList (Text.lowerAscii line)
  | .blankLine => false

end TagBlock

/-- The block that starts with a line, given without its indentation. `inProse` says that the line
could go on with a paragraph, which only some tags interrupt. -/
def tagBlock? (inProse : Bool) (line : Text) : Option TagBlock :=
  match line with
  | '<' :: rest =>
    let closing := rest.head? = some '/'
    let inside := if closing then rest.drop 1 else rest
    let name := inside.takeWhile fun c => c.isAlphanum || c == '-'
    let after := inside.drop name.length
    let lower := String.ofList (Text.lowerAscii name)
    let ends := after.head?.all isTagSpace || after.head? == some '>'
    if !closing ∧ rawTags.contains lower ∧ ends then
      some (.until (rawTags.map fun tag => "</" ++ tag ++ ">"))
    else if List.isPrefixOf "!--".toList rest then some (.until ["-->"])
    else if rest.head? = some '?' then some (.until ["?>"])
    else if List.isPrefixOf "![CDATA[".toList rest then some (.until ["]]>"])
    else if rest.head? = some '!' ∧ (rest.drop 1).head?.any Char.isAlpha then some (.until [">"])
    else if blockTags.contains lower ∧ (ends ∨ List.isPrefixOf "/>".toList after) then
      some .blankLine
    else if inProse then none
    else
      let rest := if closing then afterCloseTag? inside
        else if rawTags.contains lower then none else afterOpenTag? inside
      if rest.any (·.all Text.isIndent) then some .blankLine else none
  | _ => none

end DocumentLayout.Markdown
