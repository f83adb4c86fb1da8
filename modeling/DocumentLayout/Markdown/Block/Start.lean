import DocumentLayout.Markdown.Block
import DocumentLayout.Markdown.Rest
import DocumentLayout.Markdown.Table

/-!
# How blocks start

A block is told by the first characters of its first line after the indentation. Nothing that is
indented by four columns or more starts one, code apart.
-/

namespace DocumentLayout.Markdown

/-! ## Lines of one mark -/

/-- Whether a line is a rule: three marks at least, with white space between them at most. -/
def isRule (line : Text) : Bool :=
  match line with
  | mark :: _ =>
    ['*', '-', '_'].contains mark && line.all (fun c => c == mark || Text.isIndent c) &&
      3 ≤ line.count mark
  | [] => false

/-- The level of the heading that a line under a paragraph makes of it. -/
def underline? (line : Text) : Option Nat :=
  match trimLine line with
  | [] => none
  | mark :: rest =>
    if rest.any (· != mark) then none
    else if mark = '=' then some 1
    else if mark = '-' then some 2
    else none

/-! ## Headings -/

/-- The text of a heading without the marks that may close it, which white space precedes. -/
def withoutClosing (text : Text) : Text :=
  let front := (text.reverse.dropWhile (· == '#')).reverse
  if front.getLast?.all Text.isIndent then trimLine front else text

/-- The level and the text of the heading that a line is. -/
def heading? (line : Text) : Option (Nat × Text) :=
  let level := (line.takeWhile (· == '#')).length
  let text := line.drop level
  if level = 0 ∨ 6 < level ∨ text.head?.any (!Text.isIndent ·) then none
  else some (level, withoutClosing (trimLine text))

/-! ## Fences -/

/-- The line that opens a block of code: its indentation, its mark and how often it stands there,
and the words after it. -/
structure Fence where
  indent : Nat
  mark : Char
  count : Nat
  words : Text
  deriving DecidableEq, Repr, Inhabited

namespace Fence

/-- The fence that a line is, given without its indentation. -/
def ofLine? (indent : Nat) (line : Text) : Option Fence :=
  match line with
  | mark :: _ =>
    let count := (line.takeWhile (· == mark)).length
    let words := trimLine (line.drop count)
    if (mark = '\x60' ∧ ¬ words.contains mark ∨ mark = '~') ∧ 3 ≤ count then
      some ⟨indent, mark, count, words⟩
    else none
  | [] => none

/-- Whether a line ends the code. -/
def isClosedBy (fence : Fence) (rest : Rest) : Bool :=
  match rest.start? with
  | some start =>
    let line := trimLine start.text
    fence.count ≤ line.length && line.all (· == fence.mark)
  | none => false

/-- The word that names the language of the code. -/
def language (fence : Fence) : Option Text :=
  match fence.words.takeWhile (!Text.isIndent ·) with
  | [] => none
  | word => some (unescape word)

end Fence

/-! ## Containers -/

/-- The rest of a line after the mark of a quote, with which one column of white space goes. -/
def quoteMark? (rest : Rest) : Option Rest :=
  match rest.start? with
  | some start =>
    if start.text.head? = some '>' then some ((start.dropChars 1).dropColumns 1) else none
  | none => none

/-- The mark of an item at the start of a line, and the number of its characters. -/
def listMark? (line : Text) : Option (ListMark × Nat) :=
  match line with
  | c :: rest =>
    if ['-', '+', '*'].contains c then
      if rest.head?.all Text.isIndent then some (.bullet c, 1) else none
    else
      let digits := line.takeWhile Char.isDigit
      match line.drop digits.length with
      | mark :: after =>
        if digits ≠ [] ∧ digits.length ≤ 9 ∧ (mark = '.' ∨ mark = ')') ∧
            after.head?.all Text.isIndent then
          some (.number (Text.decimalValue digits) mark, digits.length + 1)
        else none
      | [] => none
  | [] => none

/-- Whether an item may start in the middle of a paragraph. -/
def ListMark.interrupts : ListMark → Bool
  | .bullet _ => true
  | .number start _ => start == 1

/-- The start of an item: its mark, the columns by which the further lines of the item are indented,
and the rest of the line. -/
structure ItemStart where
  mark : ListMark
  width : Nat
  rest : Rest
  deriving DecidableEq, Repr, Inhabited

/-- The item that a line starts. Its text stands one to four columns after the mark; what is
indented further is code. -/
def itemStart? (inParagraph : Bool) (rest : Rest) : Option ItemStart :=
  rest.start?.bind fun start =>
    (listMark? start.text).bind fun (mark, size) =>
      let after := start.dropChars size
      if inParagraph ∧ (after.isBlank ∨ ¬ mark.interrupts) then none
      else
        let padding := if after.isBlank ∨ Text.tabWidth < after.indent then 1 else after.indent
        some ⟨mark, rest.indent + size + padding, after.dropColumns padding⟩

/-- The label of a note that a line starts, and the rest of the line. -/
def noteStart? (rest : Rest) : Option (Text × Rest) :=
  rest.start?.bind fun start =>
    match start.text with
    | '[' :: '^' :: text =>
      let label := text.takeWhile fun c => !Text.isIndent c && c != '[' && c != ']'
      match text.drop label.length with
      | ']' :: ':' :: _ =>
        if label = [] ∨ labelLimit < label.length then none
        else some (normalizedLabel label, (start.dropChars (label.length + 4)).trim)
      | _ => none
    | _ => none

end DocumentLayout.Markdown
