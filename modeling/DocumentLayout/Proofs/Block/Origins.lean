import DocumentLayout.Proofs.Block.Cutting
import DocumentLayout.Proofs.Block.Tiling
import DocumentLayout.Proofs.Block.Nesting
import DocumentLayout.Proofs.Block.Walk

/-!
# Origins of statement blocks

Every statement block of a document stands in the document itself, however deep it lies: each of its
lines is a line of the document without the marks of the containers around it, and its lines follow
one another as they do there. The content of a container comes from lines of the text around it, and
one line may lose marks at each level.
-/

namespace DocumentLayout

open Marker (Leaves Marked)

/-! ## Lines of one text in another -/

-- Elements in a row are related to elements in a row.
theorem exists_infix_of_forall₂ {α β : Type} {r : α → β → Prop} {l : List α} {l' part : List β}
    (h : List.Forall₂ r l l') (hpart : part <:+: l') :
    ∃ other, other <:+: l ∧ List.Forall₂ r other part := by
  obtain ⟨front, back, rfl⟩ := hpart
  refine ⟨(l.drop front.length).take part.length,
    (List.take_prefix ..).isInfix.trans (List.drop_suffix ..).isInfix, ?_⟩
  simpa using List.forall₂_take part.length (List.forall₂_drop front.length h)

namespace Text

/-- The lines of a text are what marks leave of lines of `source` that follow one another. -/
def ComesFrom (source text : Text) : Prop :=
  ∃ lines, lines <:+: source.splitOn '\n' ∧ List.Forall₂ Leaves lines (text.splitOn '\n')

theorem leaves_forall₂_trans {lines rests lasts : List Text} (h : List.Forall₂ Leaves lines rests)
    (hrest : List.Forall₂ Leaves rests lasts) : List.Forall₂ Leaves lines lasts := by
  induction h generalizing lasts with
  | nil => exact hrest
  | cons hline _ ih =>
    obtain ⟨last, others, hlast, hothers, rfl⟩ := List.forall₂_cons_left_iff.1 hrest
    exact .cons (hline.trans hlast) (ih hothers)

theorem ComesFrom.trans {source text inner : Text} (h : ComesFrom source text)
    (hinner : ComesFrom text inner) : ComesFrom source inner := by
  obtain ⟨lines, hlines, hleaves⟩ := h
  obtain ⟨part, hpart, hrest⟩ := hinner
  obtain ⟨first, hfirst, hmore⟩ := exists_infix_of_forall₂ hleaves hpart
  exact ⟨first, hfirst.trans hlines, leaves_forall₂_trans hmore hrest⟩

theorem comesFrom_of_infix {source text : Text} (h : text.splitOn '\n' <:+: source.splitOn '\n') :
    ComesFrom source text :=
  ⟨_, h, List.forall₂_same.2 fun line _ => .all line⟩

theorem comesFrom_of_append {front rest : Text}
    (hfront : front = [] ∨ front.getLast? = some '\n') : ComesFrom (front ++ rest) rest := by
  refine comesFrom_of_infix ?_
  rcases hfront with rfl | hlast
  · exact List.infix_rfl
  · obtain ⟨before, rfl⟩ := List.getLast?_eq_some_iff.1 hlast
    rw [List.append_assoc, List.singleton_append, List.splitOn_append_cons_self]
    exact (List.suffix_append ..).isInfix

end Text

/-! ## One level -/

/-- No line of what a text opens with is empty: the first one has the keyword, and the text is cut
at the first empty line. -/
theorem Statement.OpensWith.nil_not_mem_splitOn {text raw rest : Text}
    (h : OpensWith text raw rest) : [] ∉ List.splitOn '\n' raw := by
  intro hempty
  obtain ⟨line, lines, hlines⟩ := List.exists_cons_of_ne_nil (List.splitOn_ne_nil '\n' raw)
  rw [hlines] at hempty
  rcases List.mem_cons.1 hempty with rfl | hmem
  · -- The text would start with a line feed, and not with a keyword.
    have hhead : text.head? = some '\n' := by
      rw [StatementBlock.eq_of_cutAt? h.cut]
      rcases Text.eq_nil_or_head?_of_splitOn_eq hlines with rfl | hhead
      · rfl
      · rw [List.head?_append, hhead]
        rfl
    obtain ⟨more, rfl⟩ := List.head?_eq_some_iff.1 hhead
    exact head?_ne_of_opensLine h.opens rfl
  · have hempty : [] ∈ (List.splitOn '\n' raw).tail := by
      rw [hlines]
      exact hmem
    exact Text.not_infix_of_cutAt? (by decide) h.cut (Text.infix_of_nil_mem_tail_splitOn hempty)

namespace Outline

/-- The content of a container comes from the text around it. -/
theorem comesFrom_of_mem_contents {text content : Text} {outline : Outline}
    (h : read? (text ++ Parser.terminator) = some outline) (hmem : content ∈ outline.contents) :
    Text.ComesFrom text content := by
  obtain ⟨lines, pieces, rfl, hpart, hlast, hleft, -⟩ := exists_lines_of_mem_contents h hmem
  obtain ⟨hwhole, -⟩ := Block.length_claimed_le hpart hlast
  have hclaimed := Block.claimed_infix hpart hlast
  have hends : Block.EndLines lines pieces := hleft.endLines (List.Subset.refl lines)
  have hne : pieces ≠ [] := by
    rintro rfl
    obtain ⟨line, hline, -⟩ := hlast
    obtain rfl := List.forall₂_nil_right_iff.1 hleft
    simp at hline
  -- A piece is an end of a line, so there is no line feed in it.
  have hfeed : ∀ piece ∈ pieces, '\n' ∉ piece := by
    intro piece hpiece hmem
    obtain ⟨line, hline, hsuffix⟩ := hends piece hpiece
    exact (hwhole line hline).2 (hsuffix.subset hmem)
  refine ⟨lines.map Line.text, ?_, ?_⟩
  · rw [← Line.map_text_ofText]
    exact hclaimed.map Line.text
  · rw [Block.content, List.splitOn_intercalate _ hfeed hne, List.forall₂_map_left_iff]
    exact hleft

/-- A statement block comes from the text that it opens. -/
theorem comesFrom_of_statement? {text : Text} {outline : Outline}
    (h : statement? (text ++ Parser.terminator) = some outline) :
    ∃ block, outline.kind? = some (.statement block) ∧ Text.ComesFrom text block.text ∧
      [] ∉ List.splitOn '\n' block.text := by
  obtain ⟨raw, rest, statements, hraw, -, rfl⟩ := exists_opensWith h
  refine ⟨_, rfl, Text.comesFrom_of_infix ?_, hraw.nil_not_mem_splitOn⟩
  dsimp only
  -- The block ends with the text, or in front of one of its line feeds.
  rcases List.append_eq_append_iff.1 (StatementBlock.eq_of_cutAt? hraw.cut) with
    ⟨extra, rfl, hextra⟩ | ⟨back, rfl, hback⟩
  · cases extra with
    | nil => rw [List.append_nil]
    | cons c extra =>
      have hlength := congrArg List.length hextra
      simp [Parser.terminator] at hlength
      omega
  · cases back with
    | nil => rw [List.append_nil]
    | cons c back =>
      obtain ⟨rfl, -⟩ := List.cons.inj hback
      rw [List.splitOn_append_cons_self]
      exact (List.prefix_append ..).isInfix

end Outline

/-! ## All levels -/

namespace Outline

theorem mem_placeItems {nodesOf : Text → List Node} {start : Nat} {items : List Block.Item}
    {node : Node}
    (h : node ∈ placeItems start items
      (items.map fun item => nodesOf (Block.content item.content))) :
    ∃ item ∈ items, ∃ span, node = ⟨.listItem, span, nodesOf (Block.content item.content)⟩ := by
  induction items generalizing start with
  | nil => simp [placeItems] at h
  | cons item items ih =>
    rcases List.mem_cons.1 h with rfl | h
    · exact ⟨item, List.mem_cons_self .., _, rfl⟩
    · obtain ⟨other, hother, hnode⟩ := ih h
      exact ⟨other, List.mem_cons_of_mem _ hother, hnode⟩

/-- The statement blocks of an outline are the outline itself or lie in one of its contents. -/
theorem mem_statements {text : Text} {outline : Outline}
    (hread : read? (text ++ Parser.terminator) = some outline) {offset : Nat}
    {nodesOf : Text → List Node} {kind : NodeKind} {children : List Node}
    (hblock : outline.block? offset (outline.contents.map nodesOf) = some (kind, children))
    {span : Span} {block : StatementBlock} (h : block ∈ (Node.mk kind span children).statements) :
    (statement? (text ++ Parser.terminator) = some outline ∧
        outline.kind? = some (.statement block)) ∨
      ∃ content ∈ outline.contents, block ∈ Node.statementsAll (nodesOf content) := by
  rcases read?_reader_cases hread with
    ⟨claim, rfl, taken, -, -, -, hclaim⟩ | hstatement | hquote | hlist
  · -- A claim on lines makes a plain block, if any.
    rcases hclaim with ⟨hnone, -⟩ | ⟨plain, hplain, hsome⟩
    · rw [block?, hnone] at hblock
      simp at hblock
    · obtain ⟨rfl, rfl⟩ : plain = kind ∧ [] = children := by simpa [block?, hsome] using hblock
      rw [Node.statements_mk (by rintro block rfl; simp [NodeKind.isPlain] at hplain)] at h
      simp [Node.statementsAll, Node.walk] at h
  · obtain ⟨raw, rest, statements, -, -, rfl⟩ := exists_opensWith hstatement
    obtain ⟨rfl, rfl⟩ : NodeKind.statement ⟨raw, statements⟩ = kind ∧ [] = children := by
      simpa [block?, Claim.leaf] using hblock
    rw [← Node.statementsAll_singleton, Node.statementsAll_leaf] at h
    obtain rfl : block = ⟨raw, statements⟩ := by
      simpa [Node.statementsAll, Node.walk] using h
    exact .inl ⟨hstatement, rfl⟩
  · obtain ⟨-, rfl⟩ := quote?_eq_some hquote
    obtain ⟨rfl, rfl⟩ := Prod.mk.inj (Option.some.inj hblock)
    rw [Node.statements_mk (by simp)] at h
    exact .inr ⟨_, List.mem_singleton_self _, by simpa [contents] using h⟩
  · obtain ⟨marker, items, -, rfl⟩ := list?_eq_some hlist
    obtain ⟨rfl, rfl⟩ := Prod.mk.inj (Option.some.inj hblock)
    rw [Node.statements_mk (by simp), Node.mem_statementsAll] at h
    obtain ⟨node, hnode, hmem⟩ := h
    rw [contents, List.map_map] at hnode
    obtain ⟨item, hitem, _, rfl⟩ := mem_placeItems hnode
    rw [Node.statements_mk (by simp)] at hmem
    exact .inr ⟨_, List.mem_map_of_mem hitem, hmem⟩

end Outline

namespace Parser

/-- The statement blocks of a text come from it, at whatever depth, and have no empty lines. -/
theorem comesFrom_of_mem_statementsAll {text : Text} {block : StatementBlock}
    (h : block ∈ Node.statementsAll (documentNodes text)) :
    text.ComesFrom block.text ∧ [] ∉ List.splitOn '\n' block.text := by
  -- By induction on the length, since contents are shorter.
  induction hn : text.length using Nat.strong_induction_on generalizing text with
  | h n ih =>
    obtain ⟨pieces, hpieces⟩ := Pieces.exists_pieces 0 text
    rw [hpieces.documentNodes_eq, Node.mem_statementsAll] at h
    obtain ⟨node, hnode, hmem⟩ := h
    obtain ⟨piece, hpiece, hnodes⟩ := List.mem_flatMap.1 hnode
    rcases piece.nodes_cases (piece.outline.contents.map documentNodes) with
      ⟨-, hnil⟩ | ⟨kind, children, hkind, hblock, hone⟩
    · rw [Piece.unlimitedNodes, hnil] at hnodes
      simp at hnodes
    · rw [Piece.unlimitedNodes, hone] at hnodes
      obtain rfl := List.mem_singleton.1 hnodes
      -- What makes a node starts at the start of a line.
      obtain ⟨front, rest, rfl, hfront, hread⟩ :=
        hpieces.exists_line (.inl rfl : Resumes [] text) hpiece hkind
      have hrest : (front ++ rest).ComesFrom rest := Text.comesFrom_of_append hfront
      rcases Outline.mem_statements hread hblock hmem with
        ⟨hstatement, hself⟩ | ⟨content, hcontent, hinner⟩
      · obtain ⟨found, hfound, hcomes, hempty⟩ := Outline.comesFrom_of_statement? hstatement
        rw [hself] at hfound
        obtain rfl : block = found := by simpa using hfound
        exact ⟨hrest.trans hcomes, hempty⟩
      · have hlt := hpieces.length_content_lt piece hpiece content hcontent
        have hcontents := Outline.comesFrom_of_mem_contents hread hcontent
        obtain ⟨hcomes, hempty⟩ := ih content.length (by omega) hinner rfl
        exact ⟨(hrest.trans hcontents).trans hcomes, hempty⟩

end Parser

/-! ## Documents -/

/-- Every statement block of a document, at whatever depth, comes from the document: its lines are,
in order, lines of the document that follow one another, each without the indentation, quote marks,
bullets and numbers at its front. -/
theorem parseDocument_statements_from_source {text : Text} {tree : Node}
    (h : parseDocument [] text = .ok tree) {block : StatementBlock}
    (hblock : block ∈ tree.statements) :
    ∃ before lines after,
      List.splitOn '\n' (Text.unifyBreaks text) = before ++ lines ++ after ∧
      List.Forall₂ Marked lines (List.splitOn '\n' block.text) := by
  obtain ⟨rfl, -⟩ := parseDocument_eq_ok_iff.1 h
  rw [documentTree, Node.statements_mk (by simp)] at hblock
  obtain ⟨⟨lines, ⟨before, after, hlines⟩, hleaves⟩, hempty⟩ :=
    Parser.comesFrom_of_mem_statementsAll hblock
  refine ⟨before, lines, after, hlines.symm, ?_⟩
  refine List.forall₂_iff_zip.2 ⟨hleaves.length_eq, fun hpair => ?_⟩
  -- No line of the block is empty, so none is what is left of a blank line.
  refine (List.forall₂_zip hleaves hpair).marked ?_
  rintro rfl
  exact hempty (List.of_mem_zip hpair).2

/-- A statement in an item of a list in a quote: its second line goes on without a mark, and its
third one has lost a quote mark and the indentation of the item. -/
theorem parseDocument_statements_from_source_quote_list :
    ∃ tree block, parseDocument [] "a\r\n\n> 12) import b\r\nfrom\n>     'c'".toList = .ok tree ∧
      block ∈ tree.statements ∧ block.text = "import b\nfrom\n'c'".toList ∧
      ∃ before lines after,
        List.splitOn '\n' (Text.unifyBreaks
          "a\r\n\n> 12) import b\r\nfrom\n>     'c'".toList) = before ++ lines ++ after ∧
        List.Forall₂ Marked lines (List.splitOn '\n' block.text) := by
  have h : (parseDocument [] "a\r\n\n> 12) import b\r\nfrom\n>     'c'".toList).toOption.any
      (fun tree => tree.statements.any
        fun block => block.text = "import b\nfrom\n'c'".toList) = true := by
    decide +kernel
  obtain ⟨tree, htree, hany⟩ := exists_ok_of_any h
  obtain ⟨block, hblock, htext⟩ := List.any_eq_true.1 hany
  exact ⟨tree, block, htree, hblock, of_decide_eq_true htext,
    parseDocument_statements_from_source htree hblock⟩

end DocumentLayout
