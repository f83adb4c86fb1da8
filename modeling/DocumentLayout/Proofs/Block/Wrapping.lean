import DocumentLayout.Proofs.Block.Nesting
import DocumentLayout.Proofs.Block.Openings
import DocumentLayout.Proofs.Block.Walk

/-!
# Wrapping

Put into a quote or into an item of a list, a document is the content of that container: the marks
are taken off its lines again, and nothing that its own blocks depend on gets lost.
-/

namespace DocumentLayout

/-! ## Wrapped documents -/

namespace Text

/-- The text with `> ` in front of every line. -/
def inQuote (text : Text) : Text :=
  ['\n'].intercalate ((text.splitOn '\n').map ("> ".toList ++ ·))

/-- A line of an item below the first one. -/
def indentLine (line : Text) : Text := if isBlank line then line else "  ".toList ++ line

/-- The text with `- ` in front of its first line and two spaces in front of every other line that
is not blank. -/
def inItem (text : Text) : Text :=
  match text.splitOn '\n' with
  | [] => []
  | first :: others => ['\n'].intercalate (("- ".toList ++ first) :: others.map indentLine)

/-- A text that can stand in an item of a list as it is: it starts with something to read and ends
with a line that is not blank, its blank lines are empty and stand alone, and a dash in front of it
does not make a break of its first line. -/
structure FitsItem (text : Text) : Prop where
  first : ∃ c rest, text = c :: rest ∧ isSpace c = false
  last : ∀ line, (text.splitOn '\n').getLast? = some line → isBlank line = false
  empty : ∀ line ∈ text.splitOn '\n', isBlank line = true → line = []
  apart : (text.splitOn '\n').IsChain fun line next => isBlank line = false ∨ isBlank next = false
  unbroken : ∀ line, (text.splitOn '\n').head? = some line →
    Marker.isThematicBreak ("- ".toList ++ line) = false

theorem return_not_mem_inQuote {text : Text} (h : '\r' ∉ text) : '\r' ∉ text.inQuote := by
  refine return_not_mem_intercalate fun marked hmarked => ?_
  obtain ⟨line, hline, rfl⟩ := List.mem_map.1 hmarked
  have := fun hreturn => h (mem_of_mem_splitOn hline hreturn)
  simpa using this

theorem not_mem_indentLine {line : Text} {c : Char} (h : c ∉ line) (hspace : c ≠ ' ') :
    c ∉ indentLine line := by
  unfold indentLine
  split
  · exact h
  · simp [h, hspace]

theorem return_not_mem_inItem {text : Text} (h : '\r' ∉ text) : '\r' ∉ text.inItem := by
  obtain ⟨first, others, hsplit⟩ := List.exists_cons_of_ne_nil (List.splitOn_ne_nil '\n' text)
  have hpiece : ∀ line ∈ first :: others, '\r' ∉ line := fun line hline hreturn =>
    h (mem_of_mem_splitOn (hsplit ▸ hline) hreturn)
  rw [inItem, hsplit]
  refine return_not_mem_intercalate (List.forall_mem_cons.2 ⟨?_, fun indented hindented => ?_⟩)
  · have := hpiece first (List.mem_cons_self ..)
    simpa using this
  · obtain ⟨line, hline, rfl⟩ := List.mem_map.1 hindented
    exact not_mem_indentLine (hpiece line (List.mem_cons_of_mem _ hline)) (by decide)

end Text

/-! ## Quotes -/

namespace Block

theorem quoteContent?_mark (line : Text) (broken : Bool) :
    quoteContent? ⟨"> ".toList ++ line, broken⟩ = some line := by
  show (Marker.quoted? ('>' :: ' ' :: line)).map (Text.stripColumns · 1) = some line
  rw [Marker.quoted?_cons, Option.map_some, Text.stripColumns, Text.stripFrom, if_pos Nat.one_pos,
    Text.stripFrom_self]

theorem quoteRest_marked (lines : List Text) :
    quoteRest (lines.map (fun line => ⟨"> ".toList ++ line, true⟩) ++ [⟨[], true⟩]) =
      lines.map fun line => (⟨"> ".toList ++ line, true⟩, line) := by
  induction lines with
  | nil => rfl
  | cons line lines ih => rw [List.map_cons, List.cons_append, quoteRest, quoteContent?_mark, ih,
      List.map_cons]

/-- Marked lines are claimed up to the empty line behind them, with what follows the marks. -/
theorem quoteLines_marked {lines : List Text} (h : lines ≠ []) :
    quoteLines (lines.map (fun line => ⟨"> ".toList ++ line, true⟩) ++ [⟨[], true⟩]) =
      lines.map fun line => (⟨"> ".toList ++ line, true⟩, line) := by
  obtain ⟨first, others, rfl⟩ := List.exists_cons_of_ne_nil h
  rw [List.map_cons, List.cons_append, quoteLines, quoteContent?_mark, quoteRest_marked,
    List.map_cons]

end Block

/-! ## Items -/

namespace Text

theorem indentation_indent (line : Text) : 2 ≤ indentation ("  ".toList ++ line) :=
  le_indentFrom 2 line

theorem stripColumns_indent (line : Text) : stripColumns ("  ".toList ++ line) 2 = line := by
  show stripFrom 0 2 (' ' :: ' ' :: line) = line
  rw [stripFrom, if_pos (by decide), stripFrom, if_pos (by decide), stripFrom_self]

theorem isBlank_indent (line : Text) : isBlank ("  ".toList ++ line) = isBlank line := by
  simp [isBlank, show isSpace ' ' = true by decide]

end Text

namespace Marker

-- A dash in front of something to read opens an item whose content stands two columns behind.
theorem listItem?_dash {c : Char} (h : Text.isSpace c = false) (rest : Text) :
    ∃ marker, listItem? ("- ".toList ++ c :: rest) = some marker ∧ marker.ordered = false ∧
      marker.contentIndent = 2 ∧ marker.content = c :: rest := by
  have hindent : Text.isIndent c = false := by
    by_contra hc
    rw [Text.isSpace_of_isIndent (by simpa using hc)] at h
    exact absurd h (by decide)
  have hspacing : spacing (' ' :: c :: rest) = 1 := by
    have hblank : Text.isBlank (' ' :: c :: rest) = false := by simp [Text.isBlank, h]
    have hcolumns : Text.indentation (' ' :: c :: rest) = 1 := Text.indentFrom_cons hindent 1 rest
    rw [spacing, hblank, hcolumns]
    rfl
  have hbullet : bullet? ('-' :: ' ' :: c :: rest) = some (false, '-', 1, false) := by
    simp [bullet?, show Char.isDigit '-' = false by decide]
  show ∃ marker, listItem? ('-' :: ' ' :: c :: rest) = some marker ∧ _
  rw [listItem?, Text.blockStart?_cons (by decide), Option.bind_some, hbullet, Option.bind_some]
  refine ⟨_, if_pos rfl, rfl, ?_, ?_⟩
  · show 0 + 1 + spacing (' ' :: c :: rest) = 2
    rw [hspacing]
  · show Text.stripColumns (' ' :: c :: rest) (spacing (' ' :: c :: rest)) = c :: rest
    rw [hspacing, Text.stripColumns, Text.stripFrom, if_pos Nat.one_pos, Text.stripFrom_self]

end Marker

namespace Block

/-- Lines below the first one of an item: each blank line stands alone and in front of a line that
is not blank. -/
inductive ItemLines : List Text → Prop
  | done : ItemLines []
  | text {line : Text} {lines : List Text} (hline : Text.isBlank line = false)
      (hlines : ItemLines lines) : ItemLines (line :: lines)
  | blank {line : Text} {lines : List Text} (hline : Text.isBlank line = false)
      (hlines : ItemLines lines) : ItemLines ([] :: line :: lines)

theorem listItems_indented {list last : Marker.ListMarker} (hindent : last.contentIndent = 2)
    {line : Text} (hline : Text.isBlank line = false) (item : Item) (blank lines : List Line) :
    listItems list last item blank (⟨Text.indentLine line, true⟩ :: lines) =
      listItems list last { item with
        lines := item.lines ++ blank ++ [⟨Text.indentLine line, true⟩]
        content := item.content ++ blank.map (fun _ => []) ++ [line] } [] lines := by
  have hindented : Text.indentLine line = "  ".toList ++ line := if_neg (by simp [hline])
  have hblank : Line.isBlank ⟨Text.indentLine line, true⟩ = false := by
    rw [Line.isBlank, hindented, Text.isBlank_indent, hline]
  have hstep : listStep list last (blank != []) ⟨Text.indentLine line, true⟩ = .continues line := by
    rw [listStep, hindented, hindent, if_pos (Text.indentation_indent line),
      Text.stripColumns_indent]
  rw [listItems, hblank, hstep]
  rfl

-- A blank line goes on with the item when an indented line follows it.
theorem listItems_blank {list last : Marker.ListMarker} (hindent : last.contentIndent = 2)
    {line : Text} (hline : Text.isBlank line = false) (item : Item) (lines : List Line) :
    listItems list last item [] (⟨[], true⟩ :: ⟨Text.indentLine line, true⟩ :: lines) =
      listItems list last item [⟨[], true⟩] (⟨Text.indentLine line, true⟩ :: lines) := by
  have hindented : Text.indentLine line = "  ".toList ++ line := if_neg (by simp [hline])
  have hgoes : listGoesOn list last (⟨Text.indentLine line, true⟩ :: lines) = true := by
    rw [listGoesOn, Line.isBlank, hindented, Text.isBlank_indent, hline, hindent,
      decide_eq_true (Text.indentation_indent line)]
    rfl
  rw [listItems, Line.isBlank_empty, if_pos rfl, hgoes]
  rfl

/-- Such lines, up to an empty line at the end, all go on with the item above them. -/
theorem listItems_itemLines {list last : Marker.ListMarker} (hindent : last.contentIndent = 2)
    {lines : List Text} (h : ItemLines lines) (item : Item) :
    listItems list last item [] (lines.map (⟨Text.indentLine ·, true⟩) ++ [⟨[], true⟩]) =
      [{ item with
        lines := item.lines ++ lines.map (⟨Text.indentLine ·, true⟩)
        content := item.content ++ lines }] := by
  induction h generalizing item with
  | done => simp [listItems, Line.isBlank_empty, listGoesOn]
  | @text line lines hline _ ih =>
    rw [List.map_cons, List.cons_append, listItems_indented hindent hline, ih]
    simp
  | @blank line lines hline _ ih =>
    have hempty : Text.indentLine [] = [] := rfl
    rw [List.map_cons, List.map_cons, hempty, List.cons_append, List.cons_append,
      listItems_blank hindent hline, listItems_indented hindent hline, ih]
    simp

end Block

namespace Text

-- The first line of a text that fits an item starts with something to read.
theorem FitsItem.exists_splitOn {text : Text} (h : text.FitsItem) :
    ∃ c front others, isSpace c = false ∧ text.splitOn '\n' = (c :: front) :: others := by
  obtain ⟨c, rest, rfl, hc⟩ := h.first
  obtain ⟨front, others, hsplit⟩ := List.exists_cons_of_ne_nil (List.splitOn_ne_nil '\n' rest)
  have hfeed : c ≠ '\n' := by
    rintro rfl
    exact absurd hc (by decide)
  refine ⟨c, front, others, hc, ?_⟩
  rw [splitOn_cons_ne hfeed, hsplit, List.modifyHead_cons]

theorem itemLines_of_isChain {first : Text} {others : List Text}
    (hlast : ∀ line, (first :: others).getLast? = some line → isBlank line = false)
    (hempty : ∀ line ∈ others, isBlank line = true → line = [])
    (hapart : (first :: others).IsChain fun line next =>
      isBlank line = false ∨ isBlank next = false) :
    Block.ItemLines others := by
  induction hn : others.length using Nat.strong_induction_on generalizing first others with
  | h n ih =>
    cases others with
    | nil => exact .done
    | cons line others =>
      obtain ⟨-, hrest⟩ := List.isChain_cons_cons.1 hapart
      simp only [List.length_cons] at hn
      have hlast' : ∀ last, (line :: others).getLast? = some last → isBlank last = false :=
        fun last h => hlast last (by rw [List.getLast?_cons_cons, h])
      cases hblank : isBlank line with
      | false =>
        exact .text hblank (ih others.length (by omega) hlast'
          (fun other hother => hempty other (List.mem_cons_of_mem _ hother)) hrest rfl)
      | true =>
        -- The line is empty, and a line that is not blank follows it.
        obtain rfl := hempty line (List.mem_cons_self ..) hblank
        cases others with
        | nil => exact absurd (hlast' [] rfl) (by simp [hblank])
        | cons next others =>
          obtain ⟨hnext, hrest'⟩ := List.isChain_cons_cons.1 hrest
          simp only [List.length_cons] at hn
          refine .blank (by simpa [hblank] using hnext) (ih others.length (by omega)
            (fun last h => hlast' last (by rw [List.getLast?_cons_cons, h])) ?_ hrest' rfl)
          exact fun other hother =>
            hempty other (List.mem_cons_of_mem _ (List.mem_cons_of_mem _ hother))

end Text

/-! ## Nodes of wrapped documents -/

-- One outline may take all of a text.
theorem Pieces.single {text : Text} {outline : Outline} (hne : text ≠ [])
    (hread : Outline.read? (text ++ Parser.terminator) = some outline)
    (hlength : Text.byteLength text ≤ outline.length) :
    Pieces 0 text [⟨0, Text.byteLength text, outline⟩] := by
  refine .step hne hread ?_
  rw [Parser.after_eq_nil hlength]
  exact .done _

theorem Parser.ofText_intercalate {lines : List Text} (hne : lines ≠ [])
    (h : ∀ line ∈ lines, '\n' ∉ line) :
    Line.ofText (['\n'].intercalate lines ++ terminator) =
      lines.map (⟨·, true⟩) ++ [⟨[], true⟩] :=
  Text.ofText_intercalate hne h ['\n']

-- Lines that one outline takes are one node.
theorem Parser.documentNodes_intercalate {lines : List Text} {outline : Outline}
    (hsome : ∃ line ∈ lines, line ≠ [])
    (hread : Outline.read? (['\n'].intercalate lines ++ terminator) = some outline)
    (hlength : outline.length = Line.totalSize (lines.map (⟨·, true⟩))) {kind : NodeKind}
    {children : List Node}
    (hblock : outline.block? 0 (outline.contents.map documentNodes) = some (kind, children)) :
    documentNodes (['\n'].intercalate lines) =
      [⟨kind, ⟨0, Text.byteLength (['\n'].intercalate lines)⟩, children⟩] := by
  obtain ⟨line, hline, hnonempty⟩ := hsome
  obtain ⟨c, hc⟩ := List.exists_mem_of_ne_nil line hnonempty
  have htext : ['\n'].intercalate lines ≠ [] := List.ne_nil_of_mem (Text.mem_intercalate hline hc)
  rw [Text.totalSize_intercalate (List.ne_nil_of_mem hline)] at hlength
  rw [(Pieces.single htext hread (by omega)).documentNodes_eq, List.flatMap_singleton,
    Piece.unlimitedNodes, Piece.nodes, Outline.claim, hblock, hlength]
  simp [place]

namespace Parser

theorem documentNodes_inQuote (text : Text) :
    documentNodes text.inQuote =
      [⟨.blockQuote, ⟨0, Text.byteLength text.inQuote⟩, documentNodes text⟩] := by
  obtain ⟨first, others, hsplit⟩ := List.exists_cons_of_ne_nil (List.splitOn_ne_nil '\n' text)
  have hmarked : (List.splitOn '\n' text).map ("> ".toList ++ ·) ≠ [] := by simp [hsplit]
  have hlines : Line.ofText (text.inQuote ++ terminator) =
      (List.splitOn '\n' text).map (fun line => ⟨"> ".toList ++ line, true⟩) ++ [⟨[], true⟩] := by
    rw [Text.inQuote, ofText_intercalate hmarked, List.map_map]
    · rfl
    · intro line hline
      obtain ⟨piece, hpiece, rfl⟩ := List.mem_map.1 hline
      simpa using Text.not_mem_of_mem_splitOn hpiece
  have hfirst : Line.ofText (text.inQuote ++ terminator) = ⟨"> ".toList ++ first, true⟩ ::
      (others.map (fun line => ⟨"> ".toList ++ line, true⟩) ++ [⟨[], true⟩]) := by
    rw [hlines, hsplit]
    rfl
  have hmark : "> ".toList ++ first = '>' :: ' ' :: first := rfl
  have hread := Outline.read?_of_quoted hfirst hmark
  rw [hlines, Block.quoteLines_marked (List.splitOn_ne_nil '\n' text)] at hread
  refine documentNodes_intercalate ⟨"> ".toList ++ first, ?_, by simp⟩ hread ?_ ?_
  · rw [hsplit]
    exact List.mem_cons_self ..
  · rw [Outline.length, List.map_map, List.map_map]
    rfl
  · -- Without the marks the lines make up the text again.
    have hcontent : Block.content (((List.splitOn '\n' text).map fun line =>
        ((⟨"> ".toList ++ line, true⟩ : Line), line)).map (·.2)) = text := by
      rw [List.map_map]
      exact (congrArg _ (List.map_id _)).trans (List.intercalate_splitOn '\n')
    rw [Outline.contents, hcontent]
    simp [Outline.block?]

theorem documentNodes_inItem {text : Text} (h : text.FitsItem) :
    documentNodes text.inItem = [⟨.list false, ⟨0, Text.byteLength text.inItem⟩,
      [⟨.listItem, ⟨0, Text.byteLength text.inItem + 1⟩, documentNodes text⟩]⟩] := by
  obtain ⟨c, front, others, hc, hsplit⟩ := h.exists_splitOn
  obtain ⟨marker, hmarker, hordered, hindent, hcontent⟩ := Marker.listItem?_dash hc front
  have hitem : text.inItem =
      ['\n'].intercalate (("- ".toList ++ c :: front) :: others.map Text.indentLine) := by
    rw [Text.inItem, hsplit]
  have hfeed : ∀ line ∈ (c :: front) :: others, '\n' ∉ line := fun line hline =>
    Text.not_mem_of_mem_splitOn (hsplit ▸ hline)
  have hlines : Line.ofText (text.inItem ++ terminator) = ⟨"- ".toList ++ c :: front, true⟩ ::
      (others.map (⟨Text.indentLine ·, true⟩) ++ [⟨[], true⟩]) := by
    rw [hitem, ofText_intercalate (by simp)]
    · simp
    · intro line hline
      rw [List.mem_cons, List.mem_map] at hline
      rcases hline with rfl | ⟨other, hother, rfl⟩
      · have := hfeed (c :: front) (List.mem_cons_self ..)
        simpa using this
      · exact Text.not_mem_indentLine (hfeed other (List.mem_cons_of_mem _ hother)) (by decide)
  -- All lines below the first go on with the item, so the list has this one item.
  have hothers := Text.itemLines_of_isChain (hsplit ▸ h.last)
    (fun line hline => h.empty line (by simp [hsplit, hline])) (hsplit ▸ h.apart)
  have hlist : Block.listLines? (Line.ofText (text.inItem ++ terminator)) = some (marker,
      [⟨[], ⟨"- ".toList ++ c :: front, true⟩ :: others.map (⟨Text.indentLine ·, true⟩),
        (c :: front) :: others⟩]) := by
    rw [hlines, Block.listLines?, hmarker, Option.map_some,
      Block.listItems_itemLines hindent hothers, hcontent]
    rfl
  have hmark : "- ".toList ++ c :: front = '-' :: ' ' :: c :: front := rfl
  have hread := Outline.read?_of_dash hlines hmark (h.unbroken _ (by rw [hsplit]; rfl)) hlist
  have hsize : Line.totalSize (⟨"- ".toList ++ c :: front, true⟩ ::
      others.map (⟨Text.indentLine ·, true⟩)) = Text.byteLength text.inItem + 1 := by
    rw [hitem, ← Text.totalSize_intercalate (by simp), List.map_cons, List.map_map]
    rfl
  have htext : Block.content ((c :: front) :: others) = text := by
    rw [Block.content, ← hsplit, List.intercalate_splitOn]
  rw [hitem] at hread hsize ⊢
  refine documentNodes_intercalate ⟨_, List.mem_cons_self .., by simp⟩ hread ?_ ?_
  · simp [Outline.length, Outline.itemsSize, Line.totalSize, Function.comp_def]
  · rw [Outline.block?, Outline.contents, List.map_cons, List.map_cons, htext, hordered,
      Outline.placeItems, hsize]
    simp [Line.totalSize, Outline.placeItems]

end Parser

/-! ## Wrapped documents parsed -/

theorem parseDocument_of_nodes {text : Text} {nodes : List Node} (hreturn : '\r' ∉ text)
    (hnodes : Parser.documentNodes text = nodes) (hlevels : Node.levelsAll nodes ≤ nestingLimit) :
    parseDocument [] text = .ok ⟨.root, ⟨0, Text.byteLength text⟩, nodes⟩ := by
  subst hnodes
  have htree : documentTree text =
      ⟨.root, ⟨0, Text.byteLength text⟩, Parser.documentNodes text⟩ := by
    rw [documentTree, Text.unifyBreaks_of_not_mem hreturn]
  rw [← htree]
  refine parseDocument_of_levels_le ?_
  rw [levels_documentTree, Text.unifyBreaks_of_not_mem hreturn]
  exact hlevels

/-- A document whose nodes have the statement blocks of another one gives the same answers. -/
theorem exists_tree_of_nodes {text wrapped : Text} {tree : Node} {nodes : List Node}
    (htree : parseDocument [] text = .ok tree) (hreturn : '\r' ∉ wrapped)
    (hnodes : Parser.documentNodes wrapped = nodes) (hlevels : Node.levelsAll nodes ≤ nestingLimit)
    (hstatements : Node.statementsAll nodes = tree.statements) :
    ∃ whole, parseDocument [] wrapped = .ok whole ∧
      whole = ⟨.root, ⟨0, Text.byteLength wrapped⟩, nodes⟩ ∧
      whole.statements = tree.statements ∧
      hasDefaultExport [] wrapped = hasDefaultExport [] text := by
  have hparse := parseDocument_of_nodes hreturn hnodes hlevels
  have hsame : (Node.mk .root ⟨0, Text.byteLength wrapped⟩ nodes).statements =
      tree.statements := by
    rw [Node.statements_mk (by simp), hstatements]
  refine ⟨_, hparse, rfl, hsame, ?_⟩
  rw [hasDefaultExport_eq_ok hparse, hasDefaultExport_eq_ok htree, hsame]

/-- A document in a quote or in an item of a list has its own tree below the container, with the
spans that it has without it, and so the same statement blocks in the same order. The container is
one more level, so the document may have one level less than the limit allows. -/
theorem parseDocument_wrapped {text : Text} {tree : Node} (hreturn : '\r' ∉ text)
    (htree : parseDocument [] text = .ok tree) (hlevels : tree.levels < nestingLimit) :
    (∃ quoted, parseDocument [] text.inQuote = .ok quoted ∧
      quoted = ⟨.root, ⟨0, Text.byteLength text.inQuote⟩,
        [⟨.blockQuote, ⟨0, Text.byteLength text.inQuote⟩, tree.children⟩]⟩ ∧
      quoted.statements = tree.statements ∧
      hasDefaultExport [] text.inQuote = hasDefaultExport [] text) ∧
    (text.FitsItem → ∃ listed, parseDocument [] text.inItem = .ok listed ∧
      listed = ⟨.root, ⟨0, Text.byteLength text.inItem⟩,
        [⟨.list false, ⟨0, Text.byteLength text.inItem⟩,
          [⟨.listItem, ⟨0, Text.byteLength text.inItem + 1⟩, tree.children⟩]⟩]⟩ ∧
      listed.statements = tree.statements ∧
      hasDefaultExport [] text.inItem = hasDefaultExport [] text) := by
  obtain ⟨rfl, -⟩ := parseDocument_eq_ok_iff.1 htree
  have hunify := Text.unifyBreaks_of_not_mem hreturn
  have hchildren : (documentTree text).children = Parser.documentNodes text := by
    rw [documentTree, hunify, Node.children]
  have hstatements : (documentTree text).statements =
      Node.statementsAll (Parser.documentNodes text) := by
    rw [documentTree, hunify, Node.statements_mk (by simp)]
  rw [levels_documentTree, hunify] at hlevels
  -- There is room for one container more.
  have hroom : Node.levelsAll (Parser.documentNodes text) + 1 ≤ nestingLimit := hlevels
  rw [hchildren]
  constructor
  · refine exists_tree_of_nodes htree (Text.return_not_mem_inQuote hreturn)
      (Parser.documentNodes_inQuote text) ?_ ?_
    · simpa [Node.levels, Node.levelsAll, NodeKind.isContainer] using hroom
    · rw [hstatements, Node.statementsAll_singleton, Node.statements_mk (by simp)]
  · intro hfits
    refine exists_tree_of_nodes htree (Text.return_not_mem_inItem hreturn)
      (Parser.documentNodes_inItem hfits) ?_ ?_
    · simpa [Node.levels, Node.levelsAll, NodeKind.isContainer] using hroom
    · rw [hstatements, Node.statementsAll_singleton, Node.statements_mk (by simp),
        Node.statementsAll_singleton, Node.statements_mk (by simp)]

/-- A statement, a list with a quote in its item and a fenced block, with blank lines between. -/
theorem parseDocument_wrapped_statement_list_fence :
    ∃ tree, parseDocument [] "import \"a\"\n\n- b\n  > c\n\n```\nd\n```".toList = .ok tree ∧
      tree.levels = 2 ∧ tree.children.map Node.span = [⟨0, 10⟩, ⟨12, 22⟩, ⟨23, 32⟩] ∧
      (∃ quoted, parseDocument []
          "> import \"a\"\n> \n> - b\n>   > c\n> \n> ```\n> d\n> ```".toList = .ok quoted ∧
        quoted.children.map Node.children = [tree.children] ∧
        quoted.statements = tree.statements) ∧
      ∃ listed, parseDocument []
          "- import \"a\"\n\n  - b\n    > c\n\n  ```\n  d\n  ```".toList = .ok listed ∧
        (listed.children.flatMap Node.children).map Node.children = [tree.children] ∧
        listed.statements = tree.statements := by
  have h : (parseDocument []
      "import \"a\"\n\n- b\n  > c\n\n```\nd\n```".toList).toOption.any (fun tree =>
        tree.levels = 2 ∧ tree.children.map Node.span = [⟨0, 10⟩, ⟨12, 22⟩, ⟨23, 32⟩]) = true := by
    decide +kernel
  obtain ⟨tree, htree, hshape⟩ := exists_ok_of_any h
  obtain ⟨hlevels, hspans⟩ := of_decide_eq_true hshape
  have hfits : Text.FitsItem "import \"a\"\n\n- b\n  > c\n\n```\nd\n```".toList := {
    first := ⟨'i', _, rfl, by decide⟩
    last := fun line hline => by
      obtain rfl := Option.some.inj hline
      decide
    empty := by decide
    apart := by decide
    unbroken := fun line hline => by
      obtain rfl := Option.some.inj hline
      decide }
  obtain ⟨⟨quoted, hquoted, rfl, hquotedStatements, -⟩, hitem⟩ :=
    parseDocument_wrapped (by decide) htree (by rw [hlevels]; decide)
  obtain ⟨listed, hlisted, rfl, hlistedStatements, -⟩ := hitem hfits
  exact ⟨tree, htree, hlevels, hspans, ⟨_, hquoted, rfl, hquotedStatements⟩,
    ⟨_, hlisted, rfl, hlistedStatements⟩⟩

end DocumentLayout
