import DocumentLayout.Proofs.Block.Origins
import DocumentLayout.Proofs.Prose.Interleaving

/-!
# Blank lines of statement blocks

A statement block ends in front of the first empty line. A line that holds nothing but white space
does not end it, so the blank lines of a block are those of the document that are not empty. What is
no prose of a document stands in a statement block, so no other line is lost with the statements.
-/

namespace DocumentLayout

/-- All that is blank behind the marks of a line is nothing. So a blank line is empty, and so is
what a quote mark or a bullet leaves of one. -/
def Text.BlanksAreEmpty (text : Text) : Prop :=
  ∀ line ∈ text.splitOn '\n', ∀ rest, Marker.Marked line rest → isBlank rest = true → rest = []

/-- A text without white space at the ends of its lines is like that. -/
theorem Text.blanksAreEmpty_of_getLast? {text : Text}
    (h : ∀ line ∈ text.splitOn '\n', line.getLast?.any isSpace = false) : text.BlanksAreEmpty := by
  rintro line hline rest ⟨marks, -, rfl⟩ hblank
  rcases List.eq_nil_or_concat rest with rfl | ⟨front, c, rfl⟩
  · rfl
  · have hlast := h _ hline
    have hspace := List.all_eq_true.1 hblank c (by simp)
    rw [List.concat_eq_append, ← List.append_assoc, List.getLast?_concat] at hlast
    simp [hspace] at hlast

namespace Parser

/-- Every line of a statement block has something on it and stands on a line of the text. -/
theorem exists_marked_of_mem_splitOn {text : Text} {block : StatementBlock}
    (h : block ∈ Node.statementsAll (documentNodes text)) {line : Text}
    (hline : line ∈ List.splitOn '\n' block.text) :
    line ≠ [] ∧ ∃ source ∈ List.splitOn '\n' text, Marker.Marked source line := by
  obtain ⟨⟨lines, hlines, hleaves⟩, hempty⟩ := comesFrom_of_mem_statementsAll h
  have hne : line ≠ [] := by
    rintro rfl
    exact hempty hline
  obtain ⟨before, after, hsplit⟩ := List.append_of_mem hline
  obtain ⟨part, hpart, hlast⟩ :=
    exists_infix_of_forall₂ hleaves (hsplit ▸ ⟨before, after, by simp⟩ : [line] <:+: _)
  obtain ⟨source, more, hsource, -, rfl⟩ := List.forall₂_cons_right_iff.1 hlast
  exact ⟨hne, source, (hpart.trans hlines).subset (List.mem_cons_self ..), hsource.marked hne⟩

end Parser

theorem Node.mem_statements {node : Node} {block : StatementBlock}
    (h : node.statement? = some block) : block ∈ node.statements := by
  obtain ⟨kind, span, children⟩ := node
  rw [statements, descendants, walk]
  exact List.mem_filterMap.2 ⟨_, List.mem_cons_self .., h⟩

/-- A statement block never runs across an empty line: no line of it is empty, and one that is blank
holds white space that stands, behind the marks of containers, on a line of the document. So where
the blank lines of a document are empty, no statement block at any depth has a blank line. What is
dropped for the prose of a document are the texts of such blocks, so nothing behind an empty line is
dropped with the statement in front of it. -/
theorem parseDocument_blank_lines {text : Text} {tree : Node}
    (h : parseDocument [] text = .ok tree) :
    (∀ block ∈ tree.statements, ∀ line ∈ List.splitOn '\n' block.text,
      line ≠ [] ∧ ∃ source ∈ List.splitOn '\n' text.unifyBreaks, Marker.Marked source line) ∧
    (text.unifyBreaks.BlanksAreEmpty → ∀ block ∈ tree.statements,
      ∀ line ∈ List.splitOn '\n' block.text, Text.isBlank line = false) ∧
    (∀ node ∈ Node.statementNodes tree.children,
      ∃ block ∈ tree.statements, node.statement? = some block) ∧
    ∃ prose, stripStatements [] text = .ok prose ∧
      Interleaved 0 text.unifyBreaks (Node.statementNodes tree.children) prose := by
  obtain ⟨rfl, hlevels⟩ := parseDocument_eq_ok_iff.1 h
  have hstatements : (documentTree text).statements =
      Node.statementsAll (Parser.documentNodes text.unifyBreaks) := by
    rw [documentTree, Node.statements_mk (by simp)]
  rw [hstatements]
  have hlines : ∀ block ∈ Node.statementsAll (Parser.documentNodes text.unifyBreaks),
      ∀ line ∈ List.splitOn '\n' block.text,
        line ≠ [] ∧ ∃ source ∈ List.splitOn '\n' text.unifyBreaks, Marker.Marked source line :=
    fun block hblock line => Parser.exists_marked_of_mem_splitOn hblock
  refine ⟨hlines, fun hempty block hblock line hline => ?_, fun node hnode => ?_, _,
    stripStatements_eq_ok_iff.2 ⟨hlevels, rfl⟩, Parser.interleaved_prose text.unifyBreaks⟩
  · obtain ⟨hne, source, hsource, hmarked⟩ := hlines block hblock line hline
    cases hblank : Text.isBlank line with
    | false => rfl
    | true => exact absurd (hempty source hsource line hmarked hblank) hne
  · obtain ⟨hmem, hsome⟩ := List.mem_filter.1 hnode
    obtain ⟨block, hblock⟩ := Option.isSome_iff_exists.1 hsome
    exact ⟨block, Node.mem_statementsAll.2 ⟨node, hmem, Node.mem_statements hblock⟩, hblock⟩

/-- A statement in a quote over an empty line of the quote, and one in front of an empty line. -/
theorem parseDocument_blank_lines_quote :
    ∃ tree prose,
      parseDocument [] "> import \"a\"\n>\n> b\n\nexport default c\n\nd".toList = .ok tree ∧
      tree.statements.map StatementBlock.text =
        ["import \"a\"".toList, "export default c".toList] ∧
      (∀ block ∈ tree.statements, ∀ line ∈ List.splitOn '\n' block.text,
        Text.isBlank line = false) ∧
      Interleaved 0 "> import \"a\"\n>\n> b\n\nexport default c\n\nd".toList
        (Node.statementNodes tree.children) prose := by
  have hparse : (parseDocument []
      "> import \"a\"\n>\n> b\n\nexport default c\n\nd".toList).toOption.any (fun tree =>
        tree.statements.map StatementBlock.text =
          ["import \"a\"".toList, "export default c".toList]) = true := by
    decide +kernel
  obtain ⟨tree, htree, hshape⟩ := exists_ok_of_any hparse
  obtain ⟨-, hblank, -, prose, -, hprose⟩ := parseDocument_blank_lines htree
  exact ⟨tree, prose, htree, of_decide_eq_true hshape,
    hblank (Text.blanksAreEmpty_of_getLast? (by decide)), hprose⟩

/-- A line that holds a space does not end a statement block: the block goes on with the prose below
it, and that prose is dropped with the statement. -/
theorem parseDocument_line_of_space :
    (∃ tree, parseDocument [] "import \"a\"\n \nfoo\n".toList = .ok tree ∧
      ∃ block ∈ tree.statements, ∃ line ∈ List.splitOn '\n' block.text,
        Text.isBlank line = true) ∧
    stripStatements [] "import \"a\"\n \nfoo\n".toList = .ok ['\n'] := by
  have hparse : (parseDocument [] "import \"a\"\n \nfoo\n".toList).toOption.any (fun tree =>
      tree.statements.any fun block =>
        (List.splitOn '\n' block.text).any fun line => Text.isBlank line) = true := by
    decide +kernel
  obtain ⟨tree, htree, hstatements⟩ := exists_ok_of_any hparse
  obtain ⟨block, hblock, hlines⟩ := List.any_eq_true.1 hstatements
  exact ⟨⟨tree, htree, block, hblock, List.any_eq_true.1 hlines⟩, by decide +kernel⟩

end DocumentLayout
