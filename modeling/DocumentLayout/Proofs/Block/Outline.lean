import DocumentLayout.Block.Parser
import DocumentLayout.Proofs.Text.Lines
import Mathlib.Data.List.Forall2

/-!
# Outlines

What the tokenizers of documents find at the start of a text, before the content of a container is
parsed. An outline depends on the text alone: the cursor comes in only when the contents are parsed
and their nodes are put into place.
-/

namespace DocumentLayout

/-- What stands at the start of a text: a block without blocks inside it, the lines of a quote
with their contents, or the items of a list. -/
inductive Outline where
  | leaf (claim : Claim)
  | quote (claimed : List (Line × Text))
  | list (marker : Marker.ListMarker) (items : List Block.Item)

namespace Outline

/-! ## From an outline to a claim -/

/-- The bytes of the items of a list with the blank lines in front of them. -/
def itemsSize : List Block.Item → Nat
  | [] => 0
  | item :: items => Line.totalSize item.before + Line.totalSize item.lines + itemsSize items

/-- The bytes that an outline claims. -/
def length : Outline → Nat
  | leaf claim => claim.length
  | quote claimed => Line.totalSize (claimed.map (·.1))
  | list _ items => itemsSize items

/-- The texts that are parsed one level deeper, in order. -/
def contents : Outline → List Text
  | leaf _ => []
  | quote claimed => [Block.content (claimed.map (·.2))]
  | list _ items => items.map fun item => Block.content item.content

/-- The nodes of the items of a list that starts at `start`, given the nodes of their contents. -/
def placeItems (start : Nat) : List Block.Item → List (List Node) → List Node
  | item :: items, children :: parts =>
    let first := start + Line.totalSize item.before
    let stop := first + Line.totalSize item.lines
    ⟨.listItem, ⟨first, stop⟩, children⟩ :: placeItems stop items parts
  | _, _ => []

/-- The block of an outline at `offset`, given the nodes of its contents. -/
def block? (offset : Nat) : Outline → List (List Node) → Option (NodeKind × List Node)
  | leaf claim, _ => claim.block
  | quote _, parts => some (.blockQuote, parts.flatten)
  | list marker items, parts => some (.list marker.ordered, placeItems offset items parts)

/-- The claim of an outline at `offset`, given the nodes of its contents. -/
def claim (outline : Outline) (offset : Nat) (parts : List (List Node)) : Claim :=
  ⟨outline.length, outline.block? offset parts⟩

/-- The claim of an outline whose contents are parsed by the cursor. -/
def consume (outline : Outline) (cursor : Cursor) : Except Error Claim :=
  (outline.contents.mapM cursor.tokenize).map (outline.claim cursor.offset)

/-! ## Readers of outlines -/

/-- What a tokenizer of lines finds. -/
def ofLines? (claim? : List Line → Option Claim) (text : Text) : Option Outline :=
  (claim? (Line.ofText text)).map leaf

/-- A block quote at the start of a text. -/
def quote? (text : Text) : Option Outline :=
  match Block.quoteLines (Line.ofText text) with
  | [] => none
  | claimed => some (quote claimed)

/-- A list at the start of a text. -/
def list? (text : Text) : Option Outline :=
  (Block.listLines? (Line.ofText text)).map fun (marker, items) => list marker items

/-- A statement block at the start of a text. -/
def statement? (text : Text) : Option Outline :=
  if (Block.locateStatement text).allowsAttempt then (Block.statement text).map leaf else none

/-- The readers in the order of the tokenizers of a document. -/
def readers : List (Text → Option Outline) := [
  ofLines? Block.blankLines,
  ofLines? Block.indentedCode,
  ofLines? Block.fencedCode,
  quote?,
  ofLines? Block.atxHeading,
  ofLines? Block.thematicBreak,
  list?,
  ofLines? Block.setextHeading,
  ofLines? Block.html,
  ofLines? Block.table,
  statement?,
  ofLines? Block.paragraph]

-- The reader of statement blocks is the last one but one.
theorem readers_eq_append :
    readers = readers.dropLast.dropLast ++ [statement?, ofLines? Block.paragraph] :=
  rfl

/-- The outline at the start of a text of a document. -/
def read? (text : Text) : Option Outline := readers.findSome? (· text)

end Outline

/-! ## Tokenizers as readers -/

/-- A tokenizer claims what a reader of outlines finds, with the contents parsed by the cursor. -/
def Tokenizer.Reads (tokenizer : Tokenizer) (read? : Text → Option Outline) : Prop :=
  ∀ cursor text,
    (if (tokenizer.locate text).allowsAttempt then tokenizer.tryConsume cursor text
      else .ok none) =
    (read? text).elim (.ok none) fun outline => (outline.consume cursor).map some

namespace Tokenizer

theorem reads_ofLines (name : String) (claim? : List Line → Option Claim) :
    (ofLines name claim?).Reads (Outline.ofLines? claim?) := by
  intro cursor text
  cases h : claim? (Line.ofText text) <;>
    simp [ofLines, always, Locate.allowsAttempt, Outline.ofLines?, h, Outline.consume,
      Outline.contents, Outline.claim, Outline.block?, Outline.length, pure, Except.pure,
      Except.map]

theorem reads_statement : Parser.statementTokenizer.Reads Outline.statement? := by
  intro cursor text
  unfold Parser.statementTokenizer Outline.statement?
  split
  · cases h : Block.statement text <;>
      simp [h, Outline.consume, Outline.contents, Outline.claim, Outline.block?, Outline.length,
        pure, Except.pure, Except.map]
  · rfl

theorem reads_blockQuote (name : String) : (always name Block.blockQuote).Reads Outline.quote? := by
  intro cursor text
  simp only [always, Locate.allowsAttempt, ↓reduceIte, Block.blockQuote, Outline.quote?]
  cases Block.quoteLines (Line.ofText text) with
  | nil => rfl
  | cons first claimed =>
    cases h : cursor.tokenize (Block.content (first.2 :: claimed.map (·.2))) <;>
      simp [h, Outline.consume, Outline.contents, Outline.claim, Outline.block?, Outline.length,
        Claim.container, bind, Except.bind, pure, Except.pure, Except.map]

/-- The nodes of the items of a list are those of their contents, put into place. -/
theorem itemNodes_eq (cursor : Cursor) (start : Nat) (items : List Block.Item) :
    Block.itemNodes cursor start items =
      ((items.map fun item => Block.content item.content).mapM cursor.tokenize).map fun parts =>
        (Outline.placeItems start items parts, start + Outline.itemsSize items) := by
  induction items generalizing start with
  | nil => rfl
  | cons item items ih =>
    -- The first content that cannot be parsed ends both sides with its error.
    rw [Block.itemNodes, List.map_cons, List.mapM_cons]
    cases hfirst : cursor.tokenize (Block.content item.content) with
    | error error => rfl
    | ok children =>
      simp only [ih, bind, Except.bind]
      cases (items.map fun item => Block.content item.content).mapM cursor.tokenize with
      | error error => rfl
      | ok parts =>
        simp [pure, Except.pure, Except.map, Outline.placeItems, Outline.itemsSize, Nat.add_assoc]

theorem reads_list (name : String) : (always name Block.list).Reads Outline.list? := by
  intro cursor text
  simp only [always, Locate.allowsAttempt, ↓reduceIte, Block.list, Outline.list?]
  cases h : Block.listLines? (Line.ofText text) with
  | none => rfl
  | some found =>
    obtain ⟨marker, items⟩ := found
    simp only [itemNodes_eq, Option.map_some, Option.elim_some, Outline.consume, Outline.contents]
    cases (items.map fun item => Block.content item.content).mapM cursor.tokenize <;>
      simp [bind, Except.bind, pure, Except.pure, Except.map, Claim.container, Outline.claim,
        Outline.block?, Outline.length]

end Tokenizer

namespace Parser

-- The tokenizers of a document without extensions are the standard ones with that of statement
-- blocks directly before that of paragraphs.
theorem document_nil_tokenizers :
    (document []).tokenizers =
      standardTokenizers.dropLast ++ [statementTokenizer, .ofLines "paragraph" Block.paragraph] :=
  rfl

theorem document_reads :
    List.Forall₂ Tokenizer.Reads (document []).tokenizers Outline.readers := by
  rw [document_nil_tokenizers]
  simp only [standardTokenizers, Outline.readers, List.dropLast_cons_cons, List.dropLast_singleton,
    List.cons_append, List.nil_append, List.forall₂_cons, Tokenizer.reads_ofLines,
    Tokenizer.reads_blockQuote, Tokenizer.reads_list, Tokenizer.reads_statement, true_and,
    List.Forall₂.nil]

theorem claimAt?_of_forall₂ {tokenizers : List Tokenizer} {readers : List (Text → Option Outline)}
    (h : List.Forall₂ Tokenizer.Reads tokenizers readers) {text : Text} {outline : Outline}
    (hread : readers.findSome? (· text) = some outline) :
    ∃ name, ∀ cursor, claimAt? cursor text tokenizers =
      (outline.consume cursor).map fun claim => some (name, claim) := by
  induction h with
  | nil => simp at hread
  | @cons tokenizer read? tokenizers readers hreads _ ih =>
    have hstep := fun cursor => hreads cursor text
    rw [List.findSome?_cons] at hread
    cases hfirst : read? text with
    | none =>
      -- The tokenizer turns the text down, whether it is attempted here or not.
      rw [hfirst] at hread hstep
      obtain ⟨name, hname⟩ := ih hread
      refine ⟨name, fun cursor => ?_⟩
      have hnone := hstep cursor
      rw [claimAt?]
      split at hnone
      · rw [if_pos ‹_›, hnone]
        exact hname cursor
      · rw [if_neg ‹_›]
        exact hname cursor
    | some found =>
      -- The reader finds something, so the tokenizer must be attempted here.
      rw [hfirst] at hread hstep
      obtain rfl : found = outline := by simpa using hread
      refine ⟨tokenizer.name, fun cursor => ?_⟩
      have hsome := hstep cursor
      rw [claimAt?]
      split at hsome
      · rw [if_pos ‹_›, hsome, Option.elim_some]
        cases found.consume cursor <;> rfl
      · rw [Option.elim_some] at hsome
        cases hconsume : found.consume cursor <;> simp [hconsume, Except.map] at hsome

/-- Of these tokenizers always the same one claims what the outline at the start of the text takes,
with the contents parsed by the cursor. -/
def Outlines (tokenizers : List Tokenizer) (text : Text) : Prop :=
  ∀ outline, Outline.read? text = some outline → ∃ name, ∀ cursor,
    claimAt? cursor text tokenizers = (outline.consume cursor).map fun claim => some (name, claim)

/-- The first claim on the start of a text of a document is that of its outline, always made by the
same tokenizer. -/
theorem claimAt?_document {text : Text} {outline : Outline}
    (h : Outline.read? text = some outline) :
    ∃ name, ∀ cursor, claimAt? cursor text (document []).tokenizers =
      (outline.consume cursor).map fun claim => some (name, claim) :=
  claimAt?_of_forall₂ document_reads h

end Parser

end DocumentLayout
