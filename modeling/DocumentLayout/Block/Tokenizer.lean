import DocumentLayout.Block.Node
import DocumentLayout.Error
import DocumentLayout.Text.Line

/-!
# Block tokenizers

A tokenizer recognises one sort of block at the start of the text that is left. It is handed a
cursor, which knows where that text starts and can parse the content of a container.
-/

namespace DocumentLayout

/-- What a tokenizer says about a text before it is asked to read it. -/
inductive Locate where
  /-- The tokenizer has to be asked at every position. -/
  | always
  /-- The first block may start at this offset, and none before it. -/
  | at (offset : Nat)
  /-- There is no block anywhere in the text. -/
  | never
  deriving DecidableEq, Repr, Inhabited

/-- Whether the tokenizer is asked at the start of the text. -/
def Locate.allowsAttempt : Locate → Bool
  | .always => true
  | .at offset => offset == 0
  | .never => false

/-- What a tokenizer takes: a number of bytes, and the block they make, if any. The parser gives
the block its span. -/
structure Claim where
  length : Nat
  block : Option (NodeKind × List Node)
  deriving Repr, Inhabited

namespace Claim

/-- Bytes that make no block. -/
def skip (length : Nat) : Claim := ⟨length, none⟩

/-- Bytes that make a block without blocks inside it. -/
def leaf (length : Nat) (kind : NodeKind) : Claim := ⟨length, some (kind, [])⟩

/-- Bytes that make a block with blocks inside it. -/
def container (length : Nat) (kind : NodeKind) (children : List Node) : Claim :=
  ⟨length, some (kind, children)⟩

end Claim

/-- The position of a tokenizer in a parse: the offset of the text that is left, the number of
containers around it, and the parser for the content of a container one level deeper. -/
structure Cursor where
  offset : Nat
  depth : Nat
  tokenize : Text → Except Error (List Node)

/-- A recogniser of blocks with a name of its own. -/
structure Tokenizer where
  name : Text
  /-- A cheap look at the text that is left. A tokenizer that is asked checks everything itself,
  so this only saves work. -/
  locate : Text → Locate
  /-- The claim on the start of the text that is left; nothing leaves it to the tokenizers after
  this one. -/
  tryConsume : Cursor → Text → Except Error (Option Claim)

namespace Tokenizer

/-- A tokenizer that is asked everywhere. -/
def always (name : String) (tryConsume : Cursor → Text → Except Error (Option Claim)) :
    Tokenizer :=
  ⟨name.toList, fun _ => .always, tryConsume⟩

/-- A tokenizer that depends on the lines of the text alone. -/
def ofLines (name : String) (claim? : List Line → Option Claim) : Tokenizer :=
  always name fun _ text => .ok (claim? (Line.ofText text))

end Tokenizer

end DocumentLayout
