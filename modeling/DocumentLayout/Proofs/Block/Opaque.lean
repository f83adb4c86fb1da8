import DocumentLayout.Proofs.Block.Openings
import DocumentLayout.Proofs.Block.Resumption
import DocumentLayout.Proofs.Block.Walk

/-!
# Opaque blocks

What stands in fenced code or in raw HTML is never read as anything else. A document that opens
with such a block has one node for it, whatever its lines hold, and the rest of the document comes
to the same as it would alone.
-/

namespace DocumentLayout

/-! ## Statement blocks of nodes that move -/

namespace Node

theorem statementsAll_cons (node : Node) (nodes : List Node) :
    statementsAll (node :: nodes) = node.statements ++ statementsAll nodes := by
  rw [← List.singleton_append, statementsAll_append, statementsAll_singleton]

theorem statementsAll_map {f : Node → Node} (h : ∀ node, (f node).statements = node.statements)
    (nodes : List Node) : statementsAll (nodes.map f) = statementsAll nodes := by
  induction nodes with
  | nil => rfl
  | cons node nodes ih => rw [List.map_cons, statementsAll_cons, statementsAll_cons, h, ih]

theorem statementsAll_other {kind : NodeKind} (h : ∀ block, kind ≠ .statement block)
    (span : Span) : statementsAll [⟨kind, span, []⟩] = [] := by
  rw [statementsAll_singleton, statements_mk h, statementsAll, walk]
  rfl

theorem statements_moveSpan (n : Nat) (node : Node) :
    (moveSpan n node).statements = node.statements := by
  obtain ⟨kind, span, children⟩ := node
  simp only [moveSpan, statements, descendants, walk, List.filterMap_cons, statement?, Node.kind]

theorem statements_moved (n : Nat) (node : Node) : (moved n node).statements = node.statements := by
  obtain ⟨kind, span, children⟩ := node
  cases kind
  case list ordered =>
    -- The items move with their list.
    rw [moved, statements_mk (by simp), statements_mk (by simp)]
    exact statementsAll_map (statements_moveSpan n) children
  all_goals exact statements_moveSpan n (mk _ span children)

end Node

/-! ## Documents that open with a block -/

/-- What a document with the nodes `nodes` in its first `n` bytes comes to, given what the text
behind them comes to as a document of its own. -/
def behind (nodes : List Node) (n : Nat) (result : Except Error Node) : Except Error Node :=
  (result.map fun tree =>
    ⟨.root, ⟨0, n + tree.span.stop⟩, nodes ++ tree.children.map (Node.moved n)⟩).mapError (.moved n)

theorem behind_behind (nodes : List Node) (m n : Nat) (result : Except Error Node) :
    behind nodes n (behind [] m result) = behind nodes (m + n) result := by
  cases result with
  | error error => exact congrArg Except.error (Error.moved_moved m n error)
  | ok tree =>
    refine congrArg Except.ok ?_
    simp only [Node.span, Node.children, List.nil_append, Node.map_moved_map_moved]
    rw [Nat.add_comm m n, Nat.add_assoc]

/-- A leaf in front of a text leaves what the text comes to as it is. The leaf may also reach beyond
the end of the document, into the line breaks that the parser adds. -/
theorem parseDocument_of_leaf {front rest : Text} {length : Nat} {kind : NodeKind}
    (hne : front ≠ []) (hreturn : '\r' ∉ front)
    (hread : Outline.read? (front ++ (Text.unifyBreaks rest ++ Parser.terminator)) =
      some (.leaf (.leaf length kind)))
    (hlength : length = Text.byteLength front ∨ Text.byteLength front ≤ length ∧ rest = []) :
    parseDocument [] (front ++ rest) =
      behind [⟨kind, ⟨0, Text.byteLength front⟩, []⟩] (Text.byteLength front)
        (parseDocument [] rest) := by
  have hafter : Parser.after length (front ++ Text.unifyBreaks rest) = Text.unifyBreaks rest := by
    rcases hlength with rfl | ⟨hle, rfl⟩
    · exact Parser.after_append front _
    · exact Parser.after_eq_nil (by simpa [Text.unifyBreaks] using hle)
  have hstop : min length (Text.byteLength (front ++ Text.unifyBreaks rest)) =
      Text.byteLength front := by
    rcases hlength with rfl | ⟨hle, rfl⟩
    · rw [Text.byteLength_append]
      omega
    · simpa [Text.unifyBreaks] using hle
  have hpiece (nested : Text → Except Error (List Node)) :
      Piece.parse nested ⟨0, Text.byteLength (front ++ Text.unifyBreaks rest),
        .leaf (.leaf length kind)⟩ = .ok [⟨kind, ⟨0, Text.byteLength front⟩, []⟩] := by
    simp only [Piece.parse, Outline.contents, List.mapM_nil, pure, Except.pure, Except.map,
      Piece.nodes, Outline.claim, Outline.block?, Outline.length, Claim.leaf, Parser.place, hstop,
      Nat.zero_add]
  rw [← List.append_assoc] at hread
  rw [parseDocument_eq_map, parseDocument_eq_map, Text.unifyBreaks_append hreturn,
    Parser.blocksWithin, Parser.blocksFrom_eq_append _ _ (by simp [hne]) hread, hpiece,
    Text.byteLength_append]
  simp only [Outline.length, Claim.leaf, hafter]
  -- Where the leaf reaches beyond the end of the document, nothing is left to be moved.
  have hmoved (nested : Text → Except Error (List Node)) :
      Parser.moved length (Parser.blocksFrom (Parser.document []).tokenizers 0 nested 0
        (Text.unifyBreaks rest)) =
      Parser.moved (Text.byteLength front) (Parser.blocksFrom (Parser.document []).tokenizers 0
        nested 0 (Text.unifyBreaks rest)) := by
    rcases hlength with rfl | ⟨-, rfl⟩
    · rfl
    · simp [Text.unifyBreaks, Parser.blocksFrom, Parser.moved, Except.map, Except.mapError]
  rw [hmoved, Parser.blocksWithin]
  cases Parser.blocksFrom (Parser.document []).tokenizers 0
      (Parser.blocksWithin (Parser.document []).tokenizers nestingLimit (0 + 1)) 0
      (Text.unifyBreaks rest) with
  | error error => rfl
  | ok nodes => rfl

theorem parseDocument_of_lines {lines : List Text} {kind : NodeKind} (rest : Text)
    (hne : lines ≠ []) (hreturn : ∀ line ∈ lines, '\r' ∉ line)
    (hread : Outline.read? (['\n'].intercalate lines ++
      '\n' :: (Text.unifyBreaks rest ++ Parser.terminator)) =
      some (.leaf (.leaf (Line.totalSize (lines.map (⟨·, true⟩))) kind))) :
    parseDocument [] (['\n'].intercalate lines ++ '\n' :: rest) =
      behind [⟨kind, ⟨0, Text.byteLength (['\n'].intercalate lines) + 1⟩, []⟩]
        (Text.byteLength (['\n'].intercalate lines) + 1) (parseDocument [] rest) := by
  have hlength : Text.byteLength (['\n'].intercalate lines ++ ['\n']) =
      Text.byteLength (['\n'].intercalate lines) + 1 := Text.byteLength_append ..
  have hreturn : '\r' ∉ ['\n'].intercalate lines ++ ['\n'] := by
    simpa using Text.return_not_mem_intercalate hreturn
  rw [Text.totalSize_intercalate hne, List.append_cons] at hread
  rw [List.append_cons, ← hlength]
  exact parseDocument_of_leaf (by simp) hreturn hread (.inl hlength.symm)

theorem parseDocument_nil : parseDocument [] [] = .ok ⟨.root, ⟨0, 0⟩, []⟩ := by
  rw [parseDocument_eq_map, Parser.blocksWithin]
  simp [Text.unifyBreaks, Parser.blocksFrom, Except.map]

theorem parseDocument_of_allLines {lines : List Text} {length : Nat} {kind : NodeKind}
    (hsome : ∃ line ∈ lines, line ≠ []) (hreturn : ∀ line ∈ lines, '\r' ∉ line)
    (hread : Outline.read? (['\n'].intercalate lines ++ Parser.terminator) =
      some (.leaf (.leaf length kind)))
    (hlength : Text.byteLength (['\n'].intercalate lines) ≤ length) :
    parseDocument [] (['\n'].intercalate lines) =
      behind [⟨kind, ⟨0, Text.byteLength (['\n'].intercalate lines)⟩, []⟩]
        (Text.byteLength (['\n'].intercalate lines)) (parseDocument [] []) := by
  obtain ⟨line, hline, hnonempty⟩ := hsome
  obtain ⟨c, hc⟩ := List.exists_mem_of_ne_nil line hnonempty
  have hall := @parseDocument_of_leaf _ [] length kind
    (List.ne_nil_of_mem (Text.mem_intercalate hline hc))
    (Text.return_not_mem_intercalate hreturn) hread (.inr ⟨hlength, rfl⟩)
  rwa [List.append_nil] at hall

theorem parseDocument_feed (rest : Text) :
    parseDocument [] ('\n' :: rest) = behind [] 1 (parseDocument [] rest) := by
  rw [parseDocument_eq_map, parseDocument_eq_map, Text.unifyBreaks_feed, Parser.blocksWithin,
    Parser.blocksFrom_feed, Parser.blocksWithin]
  cases Parser.blocksFrom (Parser.document []).tokenizers 0
      (Parser.blocksWithin (Parser.document []).tokenizers nestingLimit (0 + 1)) 0
      (Text.unifyBreaks rest) with
  | error error => rfl
  | ok nodes => rfl

/-- Nodes without statement blocks in front of a text say nothing about its default export. -/
theorem hasDefaultExport_behind {text rest : Text} {nodes : List Node} {n : Nat}
    (h : parseDocument [] text = behind nodes n (parseDocument [] rest))
    (hnodes : Node.statementsAll nodes = []) :
    hasDefaultExport [] text = (hasDefaultExport [] rest).mapError (.moved n) := by
  rw [hasDefaultExport, hasDefaultExport, h]
  cases htree : parseDocument [] rest with
  | error error => rfl
  | ok tree =>
    obtain ⟨hroot, -⟩ := Parser.parse_eq_ok htree
    have hstatements : (Node.mk .root ⟨0, n + tree.span.stop⟩
        (nodes ++ tree.children.map (Node.moved n))).statements = tree.statements := by
      rw [hroot, Node.statements_mk (by simp), Node.statements_mk (by simp),
        Node.statementsAll_append, hnodes, Node.statementsAll_map (Node.statements_moved n)]
      rfl
    exact congrArg (fun blocks => Except.ok (blocks.any (·.isDefaultExport))) hstatements

/-! ## Fenced code -/

namespace Line

theorem through?_eq_some {p : Line → Bool} {before after : List Line} {line : Line}
    (hbefore : ∀ other ∈ before, p other = false) (hline : p line = true) :
    through? p (before ++ line :: after) = some (before ++ [line]) := by
  induction before with
  | nil => rw [List.nil_append, through?, if_pos hline, List.nil_append]
  | cons other before ih =>
    obtain ⟨hother, hbefore⟩ := List.forall_mem_cons.1 hbefore
    rw [List.cons_append, through?, hother, ih hbefore]
    rfl

theorem through?_eq_none {p : Line → Bool} {lines : List Line}
    (h : ∀ line ∈ lines, p line = false) : through? p lines = none := by
  induction lines with
  | nil => rfl
  | cons line lines ih =>
    obtain ⟨hline, hlines⟩ := List.forall_mem_cons.1 h
    rw [through?, hline, ih hlines]
    rfl

end Line

namespace Marker

-- A fence is closed by no less than three characters, so an empty line closes none.
theorem isClosedBy_nil {line : Text} {fence : Fence} (h : fence? line = some fence) :
    fence.isClosedBy [] = false := by
  obtain ⟨-, -, -, -, hlength⟩ := fence?_eq_some h
  have hnil : fence.isClosedBy [] = (decide (fence.length ≤ 0) && true) := rfl
  simp only [hnil, Bool.and_true, decide_eq_false_iff_not]
  omega

/-- What an opening fence makes of the lines of its code. -/
def Fence.kind (fence : Fence) : NodeKind :=
  .code true (if fence.info = [] then none else some fence.info)

end Marker

namespace Block

theorem fencedCode_of_closed {opening closing : Line} {contents after : List Line}
    {fence : Marker.Fence} (hopening : Marker.fence? opening.text = some fence)
    (hcontents : ∀ line ∈ contents, fence.isClosedBy line.text = false)
    (hclosing : fence.isClosedBy closing.text = true) :
    fencedCode (opening :: (contents ++ closing :: after)) =
      some (.leaf (Line.totalSize (opening :: (contents ++ [closing]))) fence.kind) := by
  rw [fencedCode, hopening, Option.map_some, Line.through?_eq_some hcontents hclosing]
  rfl

theorem fencedCode_of_unclosed {opening : Line} {contents : List Line} {fence : Marker.Fence}
    (hopening : Marker.fence? opening.text = some fence)
    (hcontents : ∀ line ∈ contents, fence.isClosedBy line.text = false) :
    fencedCode (opening :: contents) =
      some (.leaf (Line.totalSize (opening :: contents)) fence.kind) := by
  rw [fencedCode, hopening, Option.map_some, Line.through?_eq_none hcontents]
  rfl

end Block

/-- The lines of fenced code are never read as anything but code. A document that opens with it has
one node for the lines from the opening fence to the first one that closes it, whatever stands
between them, and behind that the rest of the document comes to the same nodes, the same error and
the same default export as alone. A fence that no line closes takes all of the document. -/
theorem parseDocument_fenced {opening : Text} {contents : List Text} {fence : Marker.Fence}
    (hopening : Marker.fence? opening = some fence)
    (hcontents : ∀ line ∈ contents, fence.isClosedBy line = false)
    (hbreaks : ∀ line ∈ opening :: contents, '\n' ∉ line ∧ '\r' ∉ line) :
    (∀ closing rest size, fence.isClosedBy closing = true → '\n' ∉ closing → '\r' ∉ closing →
      size = Text.byteLength (['\n'].intercalate (opening :: contents ++ [closing])) + 1 →
        parseDocument [] (['\n'].intercalate (opening :: contents ++ [closing, rest])) =
          behind [⟨fence.kind, ⟨0, size⟩, []⟩] size (parseDocument [] rest) ∧
        hasDefaultExport [] (['\n'].intercalate (opening :: contents ++ [closing, rest])) =
          (hasDefaultExport [] rest).mapError (.moved size)) ∧
    parseDocument [] (['\n'].intercalate (opening :: contents)) =
      .ok ⟨.root, ⟨0, Text.byteLength (['\n'].intercalate (opening :: contents))⟩,
        [⟨fence.kind, ⟨0, Text.byteLength (['\n'].intercalate (opening :: contents))⟩, []⟩]⟩ ∧
    hasDefaultExport [] (['\n'].intercalate (opening :: contents)) = .ok false := by
  have hleaf (span : Span) : Node.statementsAll [⟨fence.kind, span, []⟩] = [] :=
    Node.statementsAll_other (by simp [Marker.Fence.kind]) span
  constructor
  · intro closing rest size hclosing hfeed hreturn hsize
    have hne : opening :: contents ++ [closing] ≠ [] := by simp
    have hlines : ∀ line ∈ opening :: contents ++ [closing], '\n' ∉ line ∧ '\r' ∉ line := by
      rw [List.forall_mem_append, List.forall_mem_singleton]
      exact ⟨hbreaks, hfeed, hreturn⟩
    have hparse : parseDocument [] (['\n'].intercalate (opening :: contents ++ [closing, rest])) =
        behind [⟨fence.kind, ⟨0, size⟩, []⟩] size (parseDocument [] rest) := by
      rw [List.append_cons, Text.intercalate_concat _ hne, hsize]
      refine parseDocument_of_lines rest hne (fun line hline => (hlines line hline).2) ?_
      have htext := Text.ofText_intercalate hne (fun line hline => (hlines line hline).1)
        (Text.unifyBreaks rest ++ Parser.terminator)
      have hclaim := @Block.fencedCode_of_closed ⟨opening, true⟩ ⟨closing, true⟩
        (contents.map (⟨·, true⟩))
        (Line.ofText (Text.unifyBreaks rest ++ Parser.terminator)) fence hopening
        (List.forall_mem_map.2 hcontents) hclosing
      rw [List.map_append, List.append_assoc] at htext
      rw [List.map_append]
      exact Outline.read?_of_fence htext hopening hclaim
    exact ⟨hparse, hasDefaultExport_behind hparse (hleaf _)⟩
  · have hparse : parseDocument [] (['\n'].intercalate (opening :: contents)) =
        .ok ⟨.root, ⟨0, Text.byteLength (['\n'].intercalate (opening :: contents))⟩,
          [⟨fence.kind, ⟨0, Text.byteLength (['\n'].intercalate (opening :: contents))⟩, []⟩]⟩ := by
      -- The added line breaks end the last line and make one more, and neither closes the fence.
      have htext := Text.ofText_intercalate (List.cons_ne_nil opening contents)
        (fun line hline => (hbreaks line hline).1) ['\n']
      have hclaim := @Block.fencedCode_of_unclosed ⟨opening, true⟩
        (contents.map (⟨·, true⟩) ++ [⟨[], true⟩]) fence hopening (by
          rw [List.forall_mem_append, List.forall_mem_map, List.forall_mem_singleton]
          exact ⟨hcontents, Marker.isClosedBy_nil hopening⟩)
      refine (parseDocument_of_allLines ⟨opening, List.mem_cons_self .., ?_⟩
        (fun line hline => (hbreaks line hline).2)
        (Outline.read?_of_fence htext hopening hclaim) ?_).trans ?_
      · rintro rfl
        have hnone : Marker.fence? [] = none := by decide
        exact absurd (hnone.symm.trans hopening) (by simp)
      · have hsize := Text.totalSize_intercalate (List.cons_ne_nil opening contents)
        rw [List.map_cons] at hsize
        rw [← List.cons_append, Line.totalSize_append, hsize]
        omega
      · rw [parseDocument_nil]
        rfl
    refine ⟨hparse, ?_⟩
    rw [hasDefaultExport_eq_ok hparse, Node.statements_mk (by simp), hleaf]
    rfl

/-- Tildes around a default export, an empty line, a shorter fence, another one and an indented one,
in front of a default export. Without the last tildes all of the lines are code. -/
theorem parseDocument_fenced_tildes :
    parseDocument []
        "  ~~~~ js\nexport default a\n\n~~~\n```\n    ~~~~\n ~~~~~ \nexport default b".toList =
      behind [⟨.code true (some "js".toList), ⟨0, 53⟩, []⟩] 53
        (parseDocument [] "export default b".toList) ∧
    hasDefaultExport []
      "  ~~~~ js\nexport default a\n\n~~~\n```\n    ~~~~\n ~~~~~ \nexport default b".toList =
        .ok true ∧
    hasDefaultExport [] "  ~~~~ js\nexport default a\n\n~~~\n```\n    ~~~~".toList = .ok false := by
  obtain ⟨hclosed, -, hopen⟩ := @parseDocument_fenced "  ~~~~ js".toList
    ["export default a".toList, [], "~~~".toList, "```".toList, "    ~~~~".toList]
    ⟨'~', 4, "js".toList⟩ (by decide) (by decide) (by decide)
  obtain ⟨hparse, hdefault⟩ := hclosed " ~~~~~ ".toList "export default b".toList 53 (by decide)
    (by decide) (by decide) (by decide)
  have hrest : hasDefaultExport [] "export default b".toList = .ok true := by decide +kernel
  rw [hrest] at hdefault
  exact ⟨hparse, hdefault, hopen⟩

/-! ## Raw HTML -/

/-- The second line of a text, if it has one. -/
def Text.secondLine? (text : Text) : Option Text := ((unifyBreaks text).splitOn '\n').tail.head?

namespace Block

/-- The lines of raw HTML that opens with `first`, and the line breaks between them and the `rest`
of a text. A comment runs to the first line that closes it, which may be the one that opens it. All
else runs to an empty line or to the end of the text. -/
structure HtmlLines (first : Text) (lines : List Text) (gap rest : Text) : Prop where
  start : Marker.isHtmlStart first = true
  breaks : ∀ line ∈ first :: lines, '\n' ∉ line ∧ '\r' ∉ line
  comment : opensComment ⟨first, true⟩ = true → ∃ before last, first :: lines = before ++ [last] ∧
    (∀ line ∈ before, closesComment ⟨line, true⟩ = false) ∧ closesComment ⟨last, true⟩ = true
  element : opensComment ⟨first, true⟩ = false → ∀ line ∈ lines, Text.isBlank line = false
  ends : gap = (if opensComment ⟨first, true⟩ then ['\n'] else ['\n', '\n']) ∨
    (gap = [] ∨ gap = ['\n']) ∧ rest = []

theorem HtmlLines.html_eq_some {first gap rest : Text} {lines : List Text}
    (h : HtmlLines first lines gap rest) {after : List Line}
    (hafter : opensComment ⟨first, true⟩ = false → ∃ more, after = ⟨[], true⟩ :: more) :
    html (⟨first, true⟩ :: (lines.map (⟨·, true⟩) ++ after)) =
      some (.leaf (Line.totalSize ((first :: lines).map (⟨·, true⟩))) .html) := by
  rw [html, if_pos h.start]
  cases hopens : opensComment ⟨first, true⟩ with
  | true =>
    obtain ⟨before, last, hlines, hbefore, hlast⟩ := h.comment hopens
    cases before with
    | nil =>
      -- The line that opens the comment closes it.
      obtain ⟨rfl, rfl⟩ := List.cons.inj hlines
      simp only [if_true, hlast]
      rfl
    | cons opening before =>
      obtain ⟨rfl, rfl⟩ := List.cons.inj hlines
      obtain ⟨hfirst, hbefore⟩ := List.forall_mem_cons.1 hbefore
      have hthrough := @Line.through?_eq_some closesComment (before.map (⟨·, true⟩)) after
        ⟨last, true⟩ (List.forall_mem_map.2 hbefore) hlast
      rw [List.append_eq, List.map_append, List.map_singleton, List.append_assoc,
        List.singleton_append, hthrough]
      simp [hfirst, Line.totalSize]
  | false =>
    -- The lines go on up to the first blank one, which is the one behind them.
    obtain ⟨more, rfl⟩ := hafter hopens
    have hkeep : ∀ line ∈ lines.map (Line.mk · true), (!line.isBlank) = true :=
      List.forall_mem_map.2 fun line hline => by
        simpa [Line.isBlank] using h.element hopens line hline
    rw [List.takeWhile_append_of_pos hkeep,
      List.takeWhile_cons_of_neg (by simp [Line.isBlank_empty])]
    simp [Line.totalSize]

theorem HtmlLines.read?_eq_some {first gap rest : Text} {lines : List Text}
    (h : HtmlLines first lines gap rest) {after : Text}
    (hbelow : ∀ below ∈
      (Line.ofText (['\n'].intercalate (first :: lines) ++ '\n' :: after)).tail.head?,
        Marker.underlineDepth? below.text = none)
    (hafter : opensComment ⟨first, true⟩ = false → ∃ more, after = '\n' :: more) :
    Outline.read? (['\n'].intercalate (first :: lines) ++ '\n' :: after) =
      some (.leaf (.leaf (Line.totalSize ((first :: lines).map (⟨·, true⟩))) .html)) := by
  have htext := Text.ofText_intercalate (List.cons_ne_nil first lines)
    (fun line hline => (h.breaks line hline).1) after
  rw [htext] at hbelow
  refine Outline.read?_of_html htext h.start hbelow (h.html_eq_some fun hopens => ?_)
  obtain ⟨more, rfl⟩ := hafter hopens
  exact ⟨_, Line.ofText_feed more⟩

end Block

-- The line breaks that the parser adds underline nothing.
theorem Parser.underlineDepth?_of_secondLine? {text : Text}
    (h : ∀ below ∈ text.secondLine?, Marker.underlineDepth? below = none) :
    ∀ below ∈ (Line.ofText (Text.unifyBreaks text ++ terminator)).tail.head?,
      Marker.underlineDepth? below.text = none := by
  have hlines : Line.ofText (Text.unifyBreaks text ++ terminator) =
      Line.ofText (Text.unifyBreaks text ++ ['\n']) ++ [⟨[], true⟩] :=
    Line.ofText_append_feed (Text.unifyBreaks text) ['\n']
  rw [Text.secondLine?, ← Line.map_text_ofText] at h
  intro below hbelow
  rw [hlines] at hbelow
  rcases hparts : Line.ofText (Text.unifyBreaks text ++ ['\n']) with _ | ⟨line, _ | ⟨second, more⟩⟩
  · simp [hparts] at hbelow
  · obtain rfl : ⟨[], true⟩ = below := by simpa [hparts] using hbelow
    decide
  · obtain rfl : second = below := by simpa [hparts] using hbelow
    exact h second.text (by simp [hparts])

-- The lines of raw HTML and the line break behind them stand in front of what follows.
theorem Block.HtmlLines.parseDocument_append {first gap rest : Text} {lines : List Text}
    (h : HtmlLines first lines gap rest) (after : Text)
    (hbelow : ∀ below ∈ Text.secondLine? (['\n'].intercalate (first :: lines) ++ '\n' :: after),
      Marker.underlineDepth? below = none)
    (hafter : opensComment ⟨first, true⟩ = false → after = [] ∨ ∃ more, after = '\n' :: more) :
    parseDocument [] (['\n'].intercalate (first :: lines) ++ '\n' :: after) =
      behind [⟨.html, ⟨0, Text.byteLength (['\n'].intercalate (first :: lines)) + 1⟩, []⟩]
        (Text.byteLength (['\n'].intercalate (first :: lines)) + 1) (parseDocument [] after) := by
  have hreturn : ∀ line ∈ first :: lines, '\r' ∉ line := fun line hline => (h.breaks line hline).2
  have hsecond := Parser.underlineDepth?_of_secondLine? hbelow
  rw [Text.unifyBreaks_append (Text.return_not_mem_intercalate hreturn), Text.unifyBreaks_feed,
    List.append_assoc, List.cons_append] at hsecond
  refine parseDocument_of_lines after (List.cons_ne_nil first lines) hreturn
    (h.read?_eq_some hsecond fun hopens => ?_)
  rcases hafter hopens with rfl | ⟨more, rfl⟩
  · exact ⟨['\n'], rfl⟩
  · exact ⟨_, congrArg (· ++ Parser.terminator) (Text.unifyBreaks_feed more)⟩

theorem Block.HtmlLines.parseDocument_eq {first gap rest : Text} {lines : List Text}
    (h : HtmlLines first lines gap rest)
    (hbelow : ∀ below ∈ Text.secondLine? (['\n'].intercalate (first :: lines)),
      Marker.underlineDepth? below = none) :
    parseDocument [] (['\n'].intercalate (first :: lines)) =
      behind [⟨.html, ⟨0, Text.byteLength (['\n'].intercalate (first :: lines))⟩, []⟩]
        (Text.byteLength (['\n'].intercalate (first :: lines))) (parseDocument [] []) := by
  have hreturn : ∀ line ∈ first :: lines, '\r' ∉ line := fun line hline => (h.breaks line hline).2
  have hsecond := Parser.underlineDepth?_of_secondLine? hbelow
  rw [Text.unifyBreaks_of_not_mem (Text.return_not_mem_intercalate hreturn)] at hsecond
  refine parseDocument_of_allLines ⟨first, List.mem_cons_self .., ?_⟩ hreturn
    (h.read?_eq_some hsecond fun _ => ⟨[], rfl⟩) ?_
  · rintro rfl
    exact absurd h.start (by decide)
  · rw [Text.totalSize_intercalate (List.cons_ne_nil first lines)]
    omega

/-- What stands on the lines of raw HTML is never read as anything else, as long as the line below
the first one is no underline. -/
theorem parseDocument_html {first gap rest : Text} {lines : List Text}
    (h : Block.HtmlLines first lines gap rest)
    (hbelow : ∀ below ∈ Text.secondLine? (['\n'].intercalate (first :: lines) ++ (gap ++ rest)),
      Marker.underlineDepth? below = none) :
    parseDocument [] (['\n'].intercalate (first :: lines) ++ (gap ++ rest)) =
      behind [⟨.html, ⟨0, Text.byteLength (['\n'].intercalate (first :: lines) ++ gap.take 1)⟩, []⟩]
        (Text.byteLength (['\n'].intercalate (first :: lines) ++ gap)) (parseDocument [] rest) ∧
    hasDefaultExport [] (['\n'].intercalate (first :: lines) ++ (gap ++ rest)) =
      (hasDefaultExport [] rest).mapError
        (.moved (Text.byteLength (['\n'].intercalate (first :: lines) ++ gap))) := by
  have hfeed : Text.byteLength (['\n'].intercalate (first :: lines) ++ ['\n']) =
      Text.byteLength (['\n'].intercalate (first :: lines)) + 1 := Text.byteLength_append ..
  have hparse : parseDocument [] (['\n'].intercalate (first :: lines) ++ (gap ++ rest)) =
      behind [⟨.html, ⟨0, Text.byteLength (['\n'].intercalate (first :: lines) ++ gap.take 1)⟩, []⟩]
        (Text.byteLength (['\n'].intercalate (first :: lines) ++ gap)) (parseDocument [] rest) := by
    rcases h.ends with hgap | ⟨rfl | rfl, rfl⟩
    · cases hopens : Block.opensComment ⟨first, true⟩ with
      | true =>
        obtain rfl : gap = ['\n'] := by rw [hgap, if_pos hopens]
        have hlines := h.parseDocument_append rest hbelow (by simp [hopens])
        rwa [← hfeed] at hlines
      | false =>
        -- The empty line behind the block makes no node.
        obtain rfl : gap = ['\n', '\n'] := by rw [hgap, if_neg (by simp [hopens])]
        have hlines := h.parseDocument_append ('\n' :: rest) hbelow fun _ => .inr ⟨rest, rfl⟩
        have hgap : Text.byteLength (['\n'].intercalate (first :: lines) ++ ['\n', '\n']) =
            1 + Text.byteLength (['\n'].intercalate (first :: lines) ++ ['\n']) := by
          rw [hfeed, Text.byteLength_append, Nat.add_comm 1]
          rfl
        rw [parseDocument_feed, behind_behind, ← hfeed, ← hgap] at hlines
        exact hlines
    · -- Here the text ends without a line break.
      have hend := h.parseDocument_eq (by simpa using hbelow)
      simpa using hend
    · have hlines := h.parseDocument_append [] hbelow fun _ => .inl rfl
      rwa [← hfeed] at hlines
  exact ⟨hparse, hasDefaultExport_behind hparse (Node.statementsAll_other (by simp) _)⟩

/-- A comment over a default export and an empty line, and an element over a default export and a
line of dashes. -/
theorem parseDocument_html_comment_element :
    parseDocument [] "<!-- a\nexport default b\n\n c -->d\n```\ne".toList =
      behind [⟨.html, ⟨0, 33⟩, []⟩] 33 (parseDocument [] "```\ne".toList) ∧
    hasDefaultExport [] "  <p\nexport default a\n---\n\n```\nb".toList =
      (hasDefaultExport [] "```\nb".toList).mapError (.moved 27) := by
  have hcomment : Block.HtmlLines "<!-- a".toList
      ["export default b".toList, [], " c -->d".toList] ['\n'] "```\ne".toList := {
    start := by decide
    breaks := by decide
    comment := fun _ => ⟨["<!-- a".toList, "export default b".toList, []], " c -->d".toList,
      by decide, by decide, by decide⟩
    element := fun hopens => absurd hopens (by decide)
    ends := .inl (by decide) }
  have helement : Block.HtmlLines "  <p".toList ["export default a".toList, "---".toList]
      ['\n', '\n'] "```\nb".toList := {
    start := by decide
    breaks := by decide
    comment := fun hopens => absurd hopens (by decide)
    element := by decide
    ends := .inl (by decide) }
  exact ⟨(parseDocument_html hcomment (by decide)).1, (parseDocument_html helement (by decide)).2⟩

/-- With an underline below it the line that opens raw HTML is a heading, and what stands on the
lines below that is read. -/
theorem parseDocument_underlined {first below : Text} {depth : Nat}
    (hhtml : Marker.isHtmlStart first = true)
    (hunderline : Marker.underlineDepth? below = some depth)
    (hbreaks : ∀ line ∈ [first, below], '\n' ∉ line ∧ '\r' ∉ line) (rest : Text) :
    parseDocument [] (['\n'].intercalate [first, below] ++ '\n' :: rest) =
      behind [⟨.heading depth, ⟨0, Text.byteLength (['\n'].intercalate [first, below]) + 1⟩, []⟩]
        (Text.byteLength (['\n'].intercalate [first, below]) + 1) (parseDocument [] rest) := by
  have htext := Text.ofText_intercalate (List.cons_ne_nil first [below])
    (fun line hline => (hbreaks line hline).1) (Text.unifyBreaks rest ++ Parser.terminator)
  exact parseDocument_of_lines rest (List.cons_ne_nil first [below])
    (fun line hline => (hbreaks line hline).2) (Outline.read?_of_underlined htext hhtml hunderline)

/-- Under `<div>` a line of dashes makes a heading, and the default export below it is one. -/
theorem hasDefaultExport_html_underlined :
    Block.HtmlLines "<div>".toList ["---".toList, "export default x".toList] ['\n', '\n'] [] ∧
    hasDefaultExport [] "<div>\n---\nexport default x\n\n".toList = .ok true ∧
    hasDefaultExport [] [] = .ok false := by
  refine ⟨?_, by decide +kernel, by decide +kernel⟩
  exact {
    start := by decide
    breaks := by decide
    comment := fun hopens => absurd hopens (by decide)
    element := by decide
    ends := .inl (by decide) }

end DocumentLayout
