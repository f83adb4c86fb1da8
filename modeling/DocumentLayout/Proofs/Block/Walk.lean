import DocumentLayout.Block.Parser

/-!
# Statement blocks of a tree

The statement blocks of a tree are met on a walk through it. A node that is none itself has those
of the nodes below it, so a container around a document changes nothing.
-/

namespace DocumentLayout

namespace Node

/-- The statement blocks of several trees, in order. -/
def statementsAll (nodes : List Node) : List StatementBlock := (walk nodes).filterMap statement?

theorem statementsAll_leaf (block : StatementBlock) (span : Span) (nodes : List Node) :
    statementsAll (mk (.statement block) span [] :: nodes) = block :: statementsAll nodes := by
  rw [statementsAll, walk, List.nil_append]
  exact List.filterMap_cons_some rfl

theorem statementsAll_singleton (node : Node) : statementsAll [node] = node.statements := rfl

/-- The walk through several trees is done with one of them before it comes to the next. -/
theorem walk_append (nodes more : List Node) : walk (nodes ++ more) = walk nodes ++ walk more := by
  fun_induction walk nodes with
  | case1 => rfl
  | case2 kind span children stack ih =>
    rw [List.cons_append, walk, ← List.append_assoc, ih, List.cons_append]

theorem statementsAll_append (nodes more : List Node) :
    statementsAll (nodes ++ more) = statementsAll nodes ++ statementsAll more := by
  rw [statementsAll, walk_append, List.filterMap_append, statementsAll, statementsAll]

theorem mem_statementsAll {block : StatementBlock} {nodes : List Node} :
    block ∈ statementsAll nodes ↔ ∃ node ∈ nodes, block ∈ node.statements := by
  induction nodes with
  | nil => simp [statementsAll, walk]
  | cons node nodes ih =>
    rw [← List.singleton_append, statementsAll_append, List.mem_append, ih,
      statementsAll_singleton]
    simp

/-- A node that is no statement block has the statement blocks below it. -/
theorem statements_mk {kind : NodeKind} (h : ∀ block, kind ≠ .statement block) (span : Span)
    (children : List Node) : (mk kind span children).statements = statementsAll children := by
  have hnone : (mk kind span children).statement? = none := by
    cases kind <;> simp_all [statement?, Node.kind]
  rw [← statementsAll_singleton, statementsAll, walk, List.append_nil,
    List.filterMap_cons_none hnone, statementsAll]

end Node

/-- A document that has a tree exports a default when one of its statement blocks does. -/
theorem hasDefaultExport_eq_ok {extensions : List Parser.Extension} {text : Text} {tree : Node}
    (h : parseDocument extensions text = .ok tree) :
    hasDefaultExport extensions text = .ok (tree.statements.any (·.isDefaultExport)) := by
  rw [hasDefaultExport, h]
  rfl

end DocumentLayout
