import DocumentLayout.FrontMatter.Fence
import DocumentLayout.Markdown.Block.Reader
import DocumentLayout.Markdown.Inline.Reader

/-!
# Prose as HTML

Blocks and inline content written as HTML. Tags in the prose are shown as text, and addresses with
unknown protocols are left out.
-/

namespace DocumentLayout.Markdown

/-! ## Text and addresses -/

/-- A character of a text between tags. -/
def escapedChar (c : Char) : Text :=
  if c = '&' then "&amp;".toList
  else if c = '<' then "&lt;".toList
  else if c = '>' then "&gt;".toList
  else if c = '"' then "&quot;".toList
  else if c.toNat = 0 then [replacementChar]
  else [c]

/-- A text between tags. -/
def escape (text : Text) : Text := text.flatMap escapedChar

/-- The bytes of a character, each written as a percent sign and two digits. -/
def percentEncoded (c : Char) : Text :=
  (String.utf8EncodeChar c).flatMap fun byte =>
    '%' :: Text.upperAscii (Text.paddedHex 2 byte.toNat)

/-- Whether a character may stand in an address. -/
def isAddressChar (c : Char) : Bool := c.isAlphanum || "!#$&'()*+,-./:;=?@_~".toList.contains c

/-- An address with all other characters encoded, apart from those that are encoded already. -/
def encodedAddress : Text → Text
  | [] => []
  | '%' :: a :: b :: rest =>
    if a.isAlphanum && b.isAlphanum then '%' :: a :: b :: encodedAddress rest
    else percentEncoded '%' ++ encodedAddress (a :: b :: rest)
  | c :: rest => (if isAddressChar c then [c] else percentEncoded c) ++ encodedAddress rest

/-- Whether an address has no protocol or one of those that are known. A colon after a slash, a
question mark or a number sign ends no protocol. -/
def isHarmless (protocols : List String) (address : Text) : Bool :=
  let front := address.takeWhile fun c => !":/?#".toList.contains c
  (address.drop front.length).head? != some ':' ||
    protocols.contains (String.ofList (Text.lowerAscii front))

/-- The protocols of links. -/
def linkProtocols : List String := ["http", "https", "irc", "ircs", "mailto", "xmpp"]

/-- The protocols of images. -/
def imageProtocols : List String := ["http", "https"]

/-- An address in an attribute: nothing when its protocol is unknown. -/
def addressAttribute (protocols : List String) (address : Text) : Text :=
  let encoded := escape (encodedAddress address)
  if isHarmless protocols encoded then encoded else []

/-- The attribute of a title. -/
def titleAttribute : Option Text → Text
  | none => []
  | some title => " title=\"".toList ++ escape title ++ ['"']

/-! ## Calls of notes -/

/-- How often each note was called so far, in the order of the first calls. -/
abbrev Calls := List (Text × Nat)

/-- The calls with one more of a note. -/
def Calls.add (label : Text) : Calls → Calls
  | [] => [(label, 1)]
  | (other, count) :: rest =>
    if other = label then (other, count + 1) :: rest else (other, count) :: add label rest

/-- The name of a note in addresses within the page. -/
def noteName (label : Text) : Text := escape (encodedAddress label)

/-- The name of a call of a note: all but the first are numbered. -/
def callName (label : Text) (count : Nat) : Text :=
  noteName label ++ if count = 1 then [] else '-' :: Text.ofNat count

/-- The call of a note that leads to it. -/
def callHtml (label : Text) (calls : Calls) : Text :=
  let index := calls.findIdx fun (other, _) => other == label
  let count := (calls.lookup label).getD 1
  "<sup><a href=\"#user-content-fn-".toList ++ noteName label ++
    "\" id=\"user-content-fnref-".toList ++ callName label count ++
    "\" data-footnote-ref=\"\" aria-describedby=\"footnote-label\">".toList ++
    Text.ofNat (index + 1) ++ "</a></sup>".toList

/-- The way back from a note to one of its calls. -/
def backReference (label : Text) (count : Nat) : Text :=
  "<a href=\"#user-content-fnref-".toList ++ callName label count ++
    "\" data-footnote-backref=\"\" aria-label=\"Back to content\"".toList ++
    " class=\"data-footnote-backref\">↩".toList ++
    (if count = 1 then [] else "<sup>".toList ++ Text.ofNat count ++ "</sup>".toList) ++
    "</a>".toList

/-! ## Inline content -/

/-- The name of the tag of a style. -/
def Style.tagName : Style → Text
  | .emphasis => "em".toList
  | .strong => "strong".toList
  | .deleted => "del".toList

/-- A text between an opening and a closing tag. -/
def element (name content : Text) : Text :=
  '<' :: name ++ '>' :: content ++ "</".toList ++ name ++ ['>']

/-- A link to an address. -/
def anchor (address : Text) (title : Option Text) (content : Text) : Text :=
  "<a href=\"".toList ++ addressAttribute linkProtocols address ++ ['"'] ++ titleAttribute title ++
    '>' :: content ++ "</a>".toList

mutual

/-- A piece of inline content, inside a link or not. -/
def Inline.html (inLink : Bool) : Inline → StateM Calls Text
  | .text shown | .escaped shown | .tag shown => return escape shown
  | .softBreak => return ['\n']
  | .hardBreak => return "<br />\n".toList
  | .code shown => return element "code".toList (escape shown)
  | .styled style content => return element style.tagName (← Inline.htmlAll inLink content)
  | .link target content =>
    return anchor target.destination target.title (← Inline.htmlAll true content)
  | .image target description =>
    return "<img src=\"".toList ++ addressAttribute imageProtocols target.destination ++
      "\" alt=\"".toList ++ escape (Inline.plainAll description) ++ ['"'] ++
      titleAttribute target.title ++ " />".toList
  | .address destination shown =>
    return if inLink then escape shown else anchor destination none (escape shown)
  | .call label => do
    modify (Calls.add label)
    return callHtml label (← get)
  | .checkbox done =>
    return "<input type=\"checkbox\" disabled=\"\" ".toList ++
      (if done then "checked=\"\" ".toList else []) ++ "/>".toList

/-- Several pieces of inline content. -/
def Inline.htmlAll (inLink : Bool) : List Inline → StateM Calls Text
  | [] => return []
  | inline :: rest => return (← inline.html inLink) ++ (← Inline.htmlAll inLink rest)

end

/-- The content of a text. -/
def textHtml (references : References) (text : Text) : StateM Calls Text :=
  Inline.htmlAll false (inlinesOf references text)

/-! ## Blocks -/

/-- A text with a line break at its end, unless it is empty. -/
def endLine (text : Text) : Text :=
  if text = [] ∨ text.getLast? = some '\n' then text else text ++ ['\n']

/-- Pieces one after another, each at the start of a line. -/
def onLines : List Text → Text
  | [] => []
  | piece :: rest =>
    match onLines rest with
    | [] => piece
    | more => endLine piece ++ more

/-- The lines of a row of a table. -/
def rowHtml (cell : Text) (columns : List Alignment) (cells : List Text) : Text :=
  let align : Alignment → Text
    | .unset => []
    | .left => " align=\"left\"".toList
    | .center => " align=\"center\"".toList
    | .right => " align=\"right\"".toList
  let line := fun (alignment, content) =>
    '<' :: cell ++ align alignment ++ '>' :: content ++ "</".toList ++ cell ++ ['>']
  onLines ("<tr>".toList :: (columns.zip cells).map line ++ ["</tr>".toList])

/-- A table. -/
def tableHtml (references : References) (columns : List Alignment) (header : List Text)
    (rows : List (List Text)) : StateM Calls Text := do
  let header ← header.mapM (textHtml references)
  let rows ← rows.mapM (·.mapM (textHtml references))
  let body := if rows = [] then [] else
    "<tbody>".toList :: rows.map (rowHtml "td".toList columns) ++ ["</tbody>".toList]
  return onLines (["<table>".toList, "<thead>".toList, rowHtml "th".toList columns header,
    "</thead>".toList] ++ body ++ ["</table>".toList])

/-- Code. A line break follows it when its closing fence is missing. -/
def codeHtml (language : Option Text) (text : Text) (closed : Bool) : Text :=
  let named := match language with
    | none => []
    | some language => " class=\"language-".toList ++ escape language ++ ['"']
  "<pre><code".toList ++ named ++ '>' :: escape text ++ "</code></pre>".toList ++
    if closed then [] else ['\n']

/-- Whether a block is shown where it stands. -/
def Block.isShown : Block → Bool
  | .definitions _ | .note .. => false
  | _ => true

/-- Whether a block is a paragraph. -/
def Block.isParagraph : Block → Bool
  | .paragraph _ => true
  | _ => false

/-- An item with its content. The paragraphs of a tight item stand without tags on the lines of
those of the item. -/
def itemHtml (tight : Bool) (blocks : List Block) (content : Text) : Text :=
  let isBare (block : Option Block) : Bool := tight && block.any Block.isParagraph
  let front :=
    if isBare (blocks.find? Block.isShown) then "<li>".toList ++ content
    else onLines ["<li>".toList, content]
  if blocks.isEmpty || isBare blocks.getLast? then front ++ "</li>".toList
  else onLines [front, "</li>".toList]

/-- The opening tag of a list. -/
def ListMark.openTag : ListMark → Text
  | .bullet _ => "<ul>".toList
  | .number start _ =>
    if start = 1 then "<ol>".toList else "<ol start=\"".toList ++ Text.ofNat start ++ "\">".toList

/-- The closing tag of a list. -/
def ListMark.closeTag : ListMark → Text
  | .bullet _ => "</ul>".toList
  | .number .. => "</ol>".toList

mutual

/-- A block. The paragraphs of a tight item have no tags, and its first paragraph may be a task. -/
def Block.html (references : References) (tight task : Bool) : Block → StateM Calls Text
  | .paragraph text => do
    let content ← Inline.htmlAll false ((if task then taskOf else inlinesOf) references text)
    return if tight then content else element ['p'] content
  | .heading level text =>
    return element ('h' :: Text.ofNat level) (← textHtml references text)
  | .rule => return "<hr />".toList
  | .code language text closed => return codeHtml language text closed
  | .tags text => return escape text
  | .table columns header rows => tableHtml references columns header rows
  | .quote content =>
    return onLines ["<blockquote>".toList, ← Block.htmlAll references false false content,
      "</blockquote>".toList]
  | .list mark loose items =>
    return onLines [mark.openTag, ← Block.htmlItems references (!loose) items, mark.closeTag]
  | .definitions _ | .note .. => return []

/-- Several blocks, each at the start of a line. The first one that is shown may be a task. -/
def Block.htmlAll (references : References) (tight task : Bool) : List Block → StateM Calls Text
  | [] => return []
  | block :: rest => do
    let first ← block.html references tight task
    let more ← Block.htmlAll references tight (task && !block.isShown) rest
    return onLines [first, more]

/-- The items of a list, each at the start of a line. -/
def Block.htmlItems (references : References) (tight : Bool) :
    List (List Block) → StateM Calls Text
  | [] => return []
  | item :: rest => do
    let first := itemHtml tight item (← Block.htmlAll references tight true item)
    return onLines [first, ← Block.htmlItems references tight rest]

end

/-! ## Notes -/

/-- A note with the ways back to its calls, which end its last paragraph if it ends in one. -/
def noteHtml (label : Text) (count : Nat) (content : Text) : Text :=
  let back :=
    [' '].intercalate ((List.range count).map fun index => backReference label (index + 1))
  let paragraphEnd := "</p>".toList
  let body := match Text.dropPrefix? paragraphEnd.reverse content.reverse with
    | some front => front.reverse ++ ' ' :: back ++ paragraphEnd
    | none => onLines [content, back]
  onLines ["<li id=\"user-content-fn-".toList ++ noteName label ++ "\">".toList, body,
    "</li>".toList]

/-- The notes that were called, from a place in the order of their first calls on, by a count of
steps that is more than there are notes. A note may call notes of its own. -/
def notesHtml (references : References) (notes : Notes) : Nat → Nat → StateM Calls (List Text)
  | 0, _ => return []
  | steps + 1, index => do
    match (← get)[index]? with
    | none => return []
    | some (label, _) =>
      let content ← Block.htmlAll references false false ((notes.lookup label).getD [])
      let count := ((← get).lookup label).getD 1
      return noteHtml label count content :: (← notesHtml references notes steps (index + 1))

/-- The section of the notes that were called. -/
def notesSection (references : References) (notes : Notes) : StateM Calls Text := do
  let items ← notesHtml references notes (notes.length + 1) 0
  if items = [] then return []
  else
    let heading := "<h2 id=\"footnote-label\" class=\"sr-only\">Footnotes</h2>".toList
    return onLines (["<section data-footnotes=\"\" class=\"footnotes\">".toList ++ heading,
      "<ol>".toList] ++ items ++ ["</ol>".toList, endLine "</section>".toList])

/-! ## Documents -/

/-- The text after the front matter of a document. Its fences are lines of three dashes or three
plus signs. -/
def withoutMatter (text : Text) : Text :=
  let cut? (mark : Char) : Option Text :=
    let fence := List.replicate 3 mark
    let isFence (line : Line) : Bool :=
      (Text.dropPrefix? fence line.text).any (·.all Text.isIndent)
    match Line.ofText text with
    | first :: lines =>
      if isFence first && first.broken then
        match lines.dropWhile (!isFence ·) with
        | _ :: body => some (Line.toText body)
        | [] => none
      else none
    | [] => none
  ((cut? '-').or (cut? '+')).getD text

/-- Prose as HTML. A line break at its end stays. -/
def html (prose : Text) : Text :=
  let text := withoutMatter (FrontMatter.cutMark prose).2
  let blocks := blocksOf text
  let notes := Block.allNotes blocks
  let references : References := ⟨Block.allTargets blocks, notes.map (·.1)⟩
  let page : StateM Calls Text := do
    let body ← Block.htmlAll references false false blocks
    let body := if text.getLast? = some '\n' then endLine body else body
    return onLines [body, ← notesSection references notes]
  (page.run []).1

end DocumentLayout.Markdown
