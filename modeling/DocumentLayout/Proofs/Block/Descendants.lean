import DocumentLayout.Proofs.Block.Walk

/-!
# Walking with a stack

The walk through a tree keeps the nodes that are still to come on a stack. It comes to an end, and
what it has met by then is the tree in preorder: the root, and then what the walks through its
children meet, child by child. So the statement blocks come in the order of the document, and a
document has a default export exactly when its root is one or holds one somewhere below it.
-/

namespace DocumentLayout

namespace Node

/-! ## The stack -/

/-- One step of a walk whose stack has its top at the end: the top comes off, and its children are
put on the stack in reverse, so that the first child lies on top. -/
def next? (stack : List Node) : Option (Node × List Node) :=
  stack.getLast?.map fun node => (node, stack.dropLast ++ node.children.reverse)

/-- The nodes that the steps from a stack on yield, up to the step that yields none. -/
inductive Yields : List Node → List Node → Prop
  | done {stack : List Node} (hnext : next? stack = none) : Yields stack []
  | step {stack rest nodes : List Node} {node : Node} (hnext : next? stack = some (node, rest))
      (hrest : Yields rest nodes) : Yields stack (node :: nodes)

theorem Yields.unique {stack nodes nodes' : List Node} (h : Yields stack nodes)
    (h' : Yields stack nodes') : nodes' = nodes := by
  induction h generalizing nodes' with
  | done hnext =>
    cases h' with
    | done => rfl
    | step hnext' => simp [hnext] at hnext'
  | step hnext _ ih =>
    cases h' with
    | done hnext' => simp [hnext] at hnext'
    | step hnext' hrest' =>
      obtain ⟨rfl, rfl⟩ := Prod.mk.inj (Option.some.inj (hnext.symm.trans hnext'))
      rw [ih hrest']

theorem next?_concat (stack : List Node) (node : Node) :
    next? (stack ++ [node]) = some (node, stack ++ node.children.reverse) := by
  rw [next?, List.getLast?_concat, Option.map_some, List.dropLast_concat]

/-- The stack holds the trees that are still to be walked through, the next one on top. -/
theorem yields_walk (nodes : List Node) : Yields nodes.reverse (walk nodes) := by
  fun_induction walk nodes with
  | case1 => exact .done rfl
  | case2 kind span children stack ih =>
    rw [List.reverse_append] at ih
    refine .step ?_ ih
    rw [List.reverse_cons]
    exact next?_concat stack.reverse ⟨kind, span, children⟩

/-! ## The recursive walk -/

theorem preorderAll_append (nodes more : List Node) :
    preorderAll (nodes ++ more) = preorderAll nodes ++ preorderAll more := by
  induction nodes with
  | nil => rfl
  | cons node nodes ih => rw [List.cons_append, preorderAll, ih, preorderAll, List.append_assoc]

theorem walk_eq_preorderAll (nodes : List Node) : walk nodes = preorderAll nodes := by
  fun_induction walk nodes with
  | case1 => rfl
  | case2 kind span children stack ih =>
    rw [ih, preorderAll_append, preorderAll, preorder, List.cons_append]

theorem descendants_eq_preorder (node : Node) : node.descendants = node.preorder := by
  rw [descendants, walk_eq_preorderAll, preorderAll, preorderAll, List.append_nil]

theorem walk_eq_flatMap (nodes : List Node) : walk nodes = nodes.flatMap descendants := by
  induction nodes with
  | nil => rw [walk]; rfl
  | cons node nodes ih =>
    rw [← List.singleton_append, walk_append, ih, List.flatMap_append, List.flatMap_singleton]
    rfl

theorem descendants_eq_cons (node : Node) :
    node.descendants = node :: node.children.flatMap descendants := by
  obtain ⟨kind, span, children⟩ := node
  rw [descendants, walk, List.append_nil, walk_eq_flatMap]
  rfl

theorem length_walk (nodes : List Node) : (walk nodes).length = sizeAll nodes := by
  fun_induction walk nodes with
  | case1 => rfl
  | case2 kind span children stack ih =>
    rw [List.length_cons, ih, sizeAll_append, sizeAll, size]
    omega

theorem anyHoldsDefaultExport_append (nodes more : List Node) :
    anyHoldsDefaultExport (nodes ++ more) =
      (anyHoldsDefaultExport nodes || anyHoldsDefaultExport more) := by
  induction nodes with
  | nil => rfl
  | cons node nodes ih =>
    rw [List.cons_append, anyHoldsDefaultExport, ih, anyHoldsDefaultExport, Bool.or_assoc]

theorem holdsDefaultExport_eq (node : Node) :
    node.holdsDefaultExport =
      (node.statement?.any (·.isDefaultExport) || anyHoldsDefaultExport node.children) := by
  obtain ⟨kind, span, children⟩ := node
  cases kind <;> rfl

theorem any_statementsAll (nodes : List Node) :
    (statementsAll nodes).any (·.isDefaultExport) = anyHoldsDefaultExport nodes := by
  unfold statementsAll
  fun_induction walk nodes with
  | case1 => rfl
  | case2 kind span children stack ih =>
    -- The children come before what is left of the stack, as they do in the recursion.
    rw [anyHoldsDefaultExport_append] at ih
    rw [anyHoldsDefaultExport, holdsDefaultExport_eq, Bool.or_assoc]
    show _ = (_ || (anyHoldsDefaultExport children || anyHoldsDefaultExport stack))
    rw [← ih, List.filterMap_cons]
    cases statement? (mk kind span children) <;> rfl

theorem any_statements (node : Node) :
    node.statements.any (·.isDefaultExport) = node.holdsDefaultExport := by
  rw [← statementsAll_singleton, any_statementsAll, anyHoldsDefaultExport, anyHoldsDefaultExport,
    Bool.or_false]

/-! ## Both walks -/

/-- The walk with a stack from the root of a tree ends, and in one way only. It meets the root and
then what it meets from each child, child by child, which is the preorder of the tree and as many
nodes as the tree has. The statement blocks of a tree are those of the preorder, one of them is a
default export exactly when the root is one or holds one, which is what is asked of a document. -/
theorem yields_descendants (tree : Node) :
    (∀ nodes, Yields [tree] nodes ↔ nodes = tree.descendants) ∧
    tree.descendants = tree :: tree.children.flatMap descendants ∧
    tree.descendants = tree.preorder ∧
    tree.descendants.length = tree.size ∧
    tree.statements = tree.preorder.filterMap statement? ∧
    tree.statements.any (·.isDefaultExport) = tree.holdsDefaultExport ∧
    ∀ extensions text, hasDefaultExport extensions text =
      (parseDocument extensions text).map holdsDefaultExport := by
  have hyields : Yields [tree] tree.descendants := yields_walk [tree]
  refine ⟨fun nodes => ⟨hyields.unique, fun h => h ▸ hyields⟩, descendants_eq_cons tree,
    descendants_eq_preorder tree, ?_, ?_, any_statements tree, fun extensions text => ?_⟩
  · rw [descendants, length_walk, sizeAll, sizeAll, Nat.add_zero]
  · rw [statements, descendants_eq_preorder]
  · rw [hasDefaultExport, funext any_statements]

end Node

end DocumentLayout
