import DocumentLayout.Statement.Basic

/-!
# Block trees

The result of a parse: a tree of blocks. A span is a range of bytes of the text that the container
of the block handed to the parser, which for the children of the root is the document with its
line breaks unified.
-/

namespace DocumentLayout

/-- A range of bytes. -/
structure Span where
  start : Nat
  stop : Nat
  deriving DecidableEq, Repr, Inhabited

namespace Span

/-- The span that lies `offset` bytes further on. -/
def shift (span : Span) (offset : Nat) : Span := ⟨span.start + offset, span.stop + offset⟩

end Span

/-- What a block is. -/
inductive NodeKind where
  | root
  | heading (depth : Nat)
  | paragraph
  /-- Fenced or indented code, with the words after an opening fence. -/
  | code (fenced : Bool) (info : Option Text)
  | blockQuote
  | list (ordered : Bool)
  | listItem
  | thematicBreak
  | html
  | table
  | statement (block : StatementBlock)
  /-- A block of a caller's own tokenizer. -/
  | custom (name : Text)
  deriving DecidableEq, Repr, Inhabited

/-- A block, where it lies and the blocks inside it. -/
inductive Node where
  | mk (kind : NodeKind) (span : Span) (children : List Node)
  deriving Repr, Inhabited

namespace Node

def kind : Node → NodeKind
  | mk kind _ _ => kind

def span : Node → Span
  | mk _ span _ => span

def children : Node → List Node
  | mk _ _ children => children

/-- The statement block that a node is, if it is one. -/
def statement? (node : Node) : Option StatementBlock :=
  match node.kind with
  | .statement block => some block
  | _ => none

/-! ## Walking -/

mutual

/-- The number of nodes of a tree. -/
def size : Node → Nat
  | mk _ _ children => 1 + sizeAll children

/-- The number of nodes of several trees. -/
def sizeAll : List Node → Nat
  | [] => 0
  | node :: rest => node.size + sizeAll rest

end

mutual

/-- A node before the nodes below it, and those child by child. -/
def preorder : Node → List Node
  | mk kind span children => mk kind span children :: preorderAll children

/-- The nodes of several trees, tree by tree. -/
def preorderAll : List Node → List Node
  | [] => []
  | node :: rest => node.preorder ++ preorderAll rest

end

theorem sizeAll_append (a b : List Node) : sizeAll (a ++ b) = sizeAll a + sizeAll b := by
  induction a with
  | nil => simp [sizeAll]
  | cons node rest ih => simp [sizeAll, ih, Nat.add_assoc]

/-- The nodes met by taking one node after another off a stack, whose children take its place on
top of the stack. -/
def walk : List Node → List Node
  | [] => []
  | mk kind span children :: stack => mk kind span children :: walk (children ++ stack)
termination_by stack => sizeAll stack
decreasing_by simp [sizeAll, size, sizeAll_append]

/-- A node and all nodes below it, each before the nodes below it. -/
def descendants (node : Node) : List Node := walk [node]

/-- The statement blocks anywhere in a tree, in the order of the document. -/
def statements (node : Node) : List StatementBlock := node.descendants.filterMap statement?

mutual

/-- Whether a node is a default export or holds one anywhere below it. -/
def holdsDefaultExport : Node → Bool
  | mk kind _ children =>
    (match kind with
      | .statement block => block.isDefaultExport
      | _ => false) || anyHoldsDefaultExport children

/-- Whether one of several trees holds a default export. -/
def anyHoldsDefaultExport : List Node → Bool
  | [] => false
  | node :: rest => node.holdsDefaultExport || anyHoldsDefaultExport rest

end

end Node

end DocumentLayout
