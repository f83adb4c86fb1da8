import DocumentLayout.Markdown.Block.Start
import DocumentLayout.Markdown.Tag

/-!
# Reading blocks

Prose is read line by line. At any time some containers are open, one inside the other, and
perhaps a block of lines in the innermost one. A line goes on with the containers whose marks it
bears, may open new ones, and then belongs to a block.
-/

namespace DocumentLayout.Markdown

/-- A container that is open, with its blocks so far, the last one first. A list holds items, and
all else stands in an item. -/
inductive Frame where
  | quote (blocks : List Block)
  | list (mark : ListMark) (loose : Bool) (items : List (List Block))
  /-- An item, and the columns by which its lines are indented. -/
  | item (width : Nat) (blocks : List Block)
  | note (label : Text) (blocks : List Block)
  deriving Repr, Inhabited

/-- A block of lines that is open, with its lines so far, the last one first. -/
inductive Leaf where
  | none
  | paragraph (lines : List Text)
  | fenced (fence : Fence) (lines : List Text)
  | indented (lines : List Text)
  | tags (ending : TagBlock) (lines : List Text)
  | table (columns : List Alignment) (header : List Text) (rows : List (List Text))
  deriving Repr, Inhabited

/-- The lines of a leaf joined by line breaks. -/
def joinedLines (lines : List Text) : Text := ['\n'].intercalate lines.reverse

/-- The lines of code, each with its line break. -/
def codeLines (lines : List Text) : Text := lines.reverse.flatMap (· ++ ['\n'])

/-- The blocks that a paragraph makes: the definitions it starts with, and the text after them. -/
def paragraphBlocks (text : Text) : List Block :=
  match definitions text.length text with
  | ([], _) => [.paragraph text]
  | (targets, rest) =>
    .definitions targets :: if Text.isBlank rest then [] else [.paragraph (Text.trimIndent rest)]

/-- The blocks that a leaf makes. -/
def Leaf.blocks : Leaf → List Block
  | .none => []
  | .paragraph lines => paragraphBlocks (joinedLines lines)
  | .fenced fence lines => [.code fence.language (codeLines lines) false]
  | .indented lines =>
    [.code Option.none (codeLines (lines.dropWhile (·.all Text.isIndent))) true]
  | .tags _ lines => [.tags (joinedLines lines)]
  | .table columns header rows => [.table columns header rows.reverse]

/-- Whether a leaf is a paragraph. -/
def Leaf.isParagraph : Leaf → Bool
  | .paragraph _ => true
  | _ => false

/-- What is known of a document after some of its lines: the blocks outside of all containers, the
containers from the innermost one out, the leaf, and whether the last line was blank for the
innermost container. -/
structure State where
  blocks : List Block
  frames : List Frame
  leaf : Leaf
  afterBlank : Bool
  deriving Repr, Inhabited

namespace State

/-- Nothing read yet. -/
def initial : State := ⟨[], [], .none, false⟩

/-! ## Opening and closing -/

/-- The state with one more block in the innermost container. -/
def add (block : Block) (state : State) : State :=
  match state.frames with
  | [] => { state with blocks := block :: state.blocks }
  | .quote blocks :: outer => { state with frames := .quote (block :: blocks) :: outer }
  | .item width blocks :: outer => { state with frames := .item width (block :: blocks) :: outer }
  | .note label blocks :: outer => { state with frames := .note label (block :: blocks) :: outer }
  | .list mark loose items :: outer =>
    { state with frames := .list mark loose ([block] :: items) :: outer }

/-- The state with more blocks in the innermost container. -/
def addAll (blocks : List Block) (state : State) : State :=
  blocks.foldl (fun state block => state.add block) state

/-- The state after the end of the leaf. -/
def closeLeaf (state : State) : State :=
  { state with leaf := .none }.addAll state.leaf.blocks

/-- The state after the end of the leaf and of the innermost container. A blank line in a quote
means nothing to what is around the quote. -/
def closeFrame (state : State) : State :=
  let state := state.closeLeaf
  match state.frames with
  | [] => state
  | .quote blocks :: outer =>
    { state with frames := outer, afterBlank := false }.add (.quote blocks.reverse)
  | .note label blocks :: outer => { state with frames := outer }.add (.note label blocks.reverse)
  | .list mark loose items :: outer =>
    { state with frames := outer }.add (.list mark loose items.reverse)
  | .item _ blocks :: .list mark loose items :: outer =>
    { state with frames := .list mark loose (blocks.reverse :: items) :: outer }
  | .item _ blocks :: outer => { state with frames := outer }.addAll blocks.reverse

/-- The state after the end of some containers. -/
def closeFrames : Nat → State → State
  | 0, state => state
  | count + 1, state => closeFrames count state.closeFrame

/-- The state after the end of the leaf and of all but the outermost `kept` containers. -/
def closeTo (kept : Nat) (state : State) : State :=
  closeFrames (state.frames.length - kept) state.closeLeaf

/-- The state after the innermost container is found to be loose if it is part of a list: something
follows a blank line in it. -/
def loosen (state : State) : State :=
  if state.afterBlank then
    match state.frames with
    | .list mark _ items :: outer => { state with frames := .list mark true items :: outer }
    | .item width blocks :: .list mark _ items :: outer =>
      { state with frames := .item width blocks :: .list mark true items :: outer }
    | _ => state
  else state

/-- The state in which a block can be added inside the outermost `kept` containers. A list ends
where something else than an item follows. -/
def prepare (kept : Nat) (state : State) : State :=
  let state := state.closeTo kept
  let state := match state.frames with
    | .list .. :: _ => state.closeFrame
    | _ => state
  { state.loosen with afterBlank := false }

/-- The state in which an item with a mark can be opened inside the outermost `kept` containers. -/
def prepareItem (kept : Nat) (mark : ListMark) (state : State) : State :=
  let state := state.closeTo kept
  match state.frames with
  | .list other .. :: _ =>
    if other.continues mark then { state.loosen with afterBlank := false }
    else
      let state := state.prepare (kept - 1)
      { state with frames := .list mark false [] :: state.frames }
  | _ =>
    let state := state.prepare kept
    { state with frames := .list mark false [] :: state.frames }

/-- The state with a new innermost container. -/
def push (frame : Frame) (state : State) : State := { state with frames := frame :: state.frames }

/-- The state with a new leaf inside the outermost `kept` containers. -/
def startLeaf (kept : Nat) (leaf : Leaf) (state : State) : State :=
  { state.prepare kept with leaf }

/-! ## Containers -/

/-- The rest of a line that goes on with a container. `holds` says whether anything stands in the
container yet: an item that starts with a blank line ends at a second one. -/
def continues? (holds : Bool) (rest : Rest) : Frame → Option Rest
  | .quote _ => quoteMark? rest
  | .list .. => some rest
  | .item width blocks =>
    if rest.isBlank then if holds ∨ ¬ blocks.isEmpty then some rest.trim else none
    else if width ≤ rest.indent then some (rest.dropColumns width)
    else none
  | .note .. =>
    if rest.isBlank then some rest.trim
    else if Text.tabWidth ≤ rest.indent then some (rest.dropColumns Text.tabWidth)
    else none

/-- The number of containers, given from the outermost one in, that a line goes on with, and the
rest of the line. `holds` says whether a leaf is open. -/
def matched (holds : Bool) : List Frame → Rest → Nat × Rest
  | [], rest => (0, rest)
  | frame :: inner, rest =>
    match continues? (holds || !inner.isEmpty) rest frame with
    | some rest =>
      let (count, rest) := matched holds inner rest
      (count + 1, rest)
    | none => (0, rest)

/-! ## The text of a line -/

/-- The state after a blank line inside the outermost `kept` containers. Nothing is blank where a
container starts. -/
def blank (kept : Nat) (opened : Bool) (state : State) : State :=
  { state.closeTo kept with afterBlank := !opened }

/-- The blocks that an underlined paragraph makes; none when it holds nothing but definitions. -/
def underlined? (level : Nat) (text : Text) : Option (List Block) :=
  let (targets, rest) := definitions text.length text
  let before := if targets = [] then [] else [.definitions targets]
  if Text.isBlank rest then none else some (before ++ [.heading level (Text.trimIndent rest)])

/-- The state after a line that makes a heading of the paragraph before it. -/
def underline? (rest : Rest) (state : State) : Option State :=
  match state.leaf with
  | .paragraph lines =>
    rest.start?.bind fun start =>
      (Markdown.underline? start.text).bind fun level =>
        (underlined? level (joinedLines lines)).map fun blocks =>
          { state with leaf := .none }.addAll blocks
  | _ => none

/-- The state after a line that makes a table of the last line of the paragraph before it. -/
def startTable? (rest : Rest) (state : State) : Option State :=
  match state.leaf with
  | .paragraph (last :: earlier) =>
    rest.start?.bind fun start =>
      (tableHead? last start.text).map fun (columns, header) =>
        let before := if earlier = [] then Leaf.none else .paragraph earlier
        { { state with leaf := before }.closeLeaf with leaf := .table columns header [] }
  | _ => none

/-- The state after the first line of a leaf that its first characters tell, inside the outermost
`kept` containers. -/
def startLeaf? (kept : Nat) (inParagraph : Bool) (rest : Rest) (state : State) : Option State :=
  rest.start?.bind fun start =>
    match heading? start.text with
    | some (level, text) => some ((state.prepare kept).add (.heading level text))
    | none =>
      match Fence.ofLine? rest.indent start.text with
      | some fence => some (state.startLeaf kept (.fenced fence []))
      | none =>
        (tagBlock? inParagraph start.text).map fun ending =>
          let state := state.startLeaf kept (.tags ending [rest.text])
          if ending.endsAfter start.text then state.closeLeaf else state

/-- The state after a line without a mark. It goes on with a paragraph even when it lacks the marks
of the containers around it. -/
def plainLine (kept : Nat) (rest : Rest) (state : State) : State :=
  let text := rest.trim.text
  match state.leaf with
  | .paragraph lines => { state with leaf := .paragraph (text :: lines) }
  | .table columns header rows =>
    if kept = state.frames.length then
      { state with leaf := .table columns header (rowOf columns.length text :: rows) }
    else state.startLeaf kept (.paragraph [text])
  | _ => state.startLeaf kept (.paragraph [text])

/-- The state after the rest of a line, by a count of steps that is more than the characters of the
rest. The line goes on with the outermost `kept` containers; `opened` says whether it has opened
one. -/
def readRest : Nat → Nat → Bool → Rest → State → State
  | 0, _, _, _, state => state
  | steps + 1, kept, opened, rest, state =>
    let inParagraph := kept = state.frames.length && state.leaf.isParagraph
    let enter (rest : Rest) (state : State) : State :=
      readRest steps state.frames.length true rest state
    if rest.isBlank then state.blank kept opened
    else if let some inner := quoteMark? rest then
      enter inner ((state.prepare kept).push (.quote []))
    else if let some state := state.startLeaf? kept inParagraph rest then state
    else if let some state := guard inParagraph *> state.underline? rest then state
    else if rest.start?.any (isRule ·.text) then (state.prepare kept).add .rule
    else if let some item := itemStart? inParagraph rest then
      enter item.rest ((state.prepareItem kept item.mark).push (.item item.width []))
    else if let some (label, inner) := noteStart? rest then
      enter inner ((state.prepare kept).push (.note label []))
    else if let some state := guard inParagraph *> state.startTable? rest then state
    else if rest.start?.isNone ∧ ¬ state.leaf.isParagraph then
      state.startLeaf kept (.indented [(rest.dropColumns Text.tabWidth).text])
    else state.plainLine kept rest

/-! ## Lines -/

/-- The state after a line that goes on with all containers and with a leaf in which marks mean
nothing. -/
def continueLeaf? (rest : Rest) (state : State) : Option State :=
  match state.leaf with
  | .fenced fence lines =>
    if fence.isClosedBy rest then
      some ({ state with leaf := .none }.add (.code fence.language (codeLines lines) true))
    else
      some { state with leaf := .fenced fence ((rest.dropColumns fence.indent).text :: lines) }
  | .indented lines =>
    if rest.isBlank ∨ Text.tabWidth ≤ rest.indent then
      some { state with
        leaf := .indented ((rest.dropColumns Text.tabWidth).text :: lines)
        afterBlank := rest.isBlank }
    else none
  | .tags ending lines =>
    if ending = .blankLine ∧ rest.isBlank then none
    else
      let state := { state with leaf := .tags ending (rest.text :: lines) }
      some (if ending.endsAfter rest.text then state.closeLeaf else state)
  | _ => none

/-- The state after one more line. -/
def readLine (state : State) (line : Text) : State :=
  let holds := match state.leaf with
    | .none => false
    | _ => true
  let (kept, rest) := matched holds state.frames.reverse (Rest.ofLine line)
  let further := if kept = state.frames.length then state.continueLeaf? rest else none
  further.getD (state.readRest (line.length + 1) kept false rest)

/-- The blocks of all that was read. -/
def finish (state : State) : List Block := (state.closeTo 0).blocks.reverse

end State

/-! ## Documents -/

/-- The blocks of prose. -/
def blocksOf (prose : Text) : List Block :=
  ((Line.ofText prose).foldl (fun state line => state.readLine line.text) State.initial).finish

end DocumentLayout.Markdown
