import DocumentLayout.Proofs.FrontMatter.Splitting
import DocumentLayout.Proofs.Prose.Interleaving

/-!
# Prose below front matter

The prose of a document is found in the whole text, front matter included, and the parser does not
know where the front matter stops. Where the blocks that start in the front matter are no statement
blocks and stop with it, the prose is the front matter and the prose of the body. A block that runs
on, such as code whose fence is never closed, takes statement blocks of the body with it.
-/

namespace DocumentLayout

/-! ## Blocks that stop with a front -/

/-- A block that starts in `front` is no statement block and holds nothing of what follows but white
space. -/
def Node.StaysIn (node : Node) (front rest : Text) : Prop :=
  node.span.start < Text.byteLength front → node.statement? = none ∧
    ∀ before c after, rest = before ++ c :: after →
      node.span.Holds (Text.byteLength front + Text.byteLength before) c → Text.isSpace c = true

-- A block that stops in a front holds nothing of what follows the front.
theorem Node.staysIn_of_stop_le {node : Node} {front : Text} (hstatement : node.statement? = none)
    (h : node.span.stop ≤ Text.byteLength front) (rest : Text) : node.StaysIn front rest := by
  refine fun _ => ⟨hstatement, fun before c after _ hholds => ?_⟩
  have hpos := Char.utf8Size_pos c
  have hstop := hholds.2
  omega

theorem Node.staysIn_of_le_start {node : Node} {front : Text}
    (h : Text.byteLength front ≤ node.span.start) (rest : Text) : node.StaysIn front rest :=
  fun hlt => absurd hlt (Nat.not_lt.2 h)

-- The block of the first outline is a node from the start of the text on.
theorem Outline.exists_node {text front back : Text} {outline : Outline} {kind : NodeKind}
    (hne : text ≠ []) (hread : read? (text ++ Parser.terminator) = some outline)
    (hcovers : outline.Covers text front back) (hkind : outline.kind? = some kind) :
    ∃ children, ⟨kind, ⟨0, Text.byteLength front⟩, children⟩ ∈ Parser.documentNodes text := by
  rcases Piece.nodes_cases ⟨0, Text.byteLength text, outline⟩
    (outline.contents.map Parser.documentNodes) with
    ⟨hnone, -⟩ | ⟨found, children, hfound, -, hnodes⟩
  · simp [hnone] at hkind
  · obtain rfl : found = kind := by simpa [hfound] using hkind
    rw [hcovers.size, Nat.zero_add] at hnodes
    refine ⟨children, ?_⟩
    rw [Parser.documentNodes_eq_append hne hread, Piece.unlimitedNodes, hnodes]
    exact List.mem_append_left _ (List.mem_singleton_self _)

-- A block behind a part of the front stays in what is left of the front.
theorem Node.StaysIn.of_moved {node : Node} {taken left rest : Text}
    (h : (node.moved (Text.byteLength taken)).StaysIn (taken ++ left) rest) :
    node.StaysIn left rest := by
  rw [Node.StaysIn, Node.statement?_moved, Node.span_moved, Text.byteLength_append] at h
  dsimp only [Span.shift] at h
  intro hstart
  obtain ⟨hstatement, hblank⟩ := h (by omega)
  refine ⟨hstatement, fun before c after hrest hholds => hblank before c after hrest ?_⟩
  obtain ⟨hfrom, hto⟩ := hholds
  exact ⟨by dsimp only; omega, by dsimp only; omega⟩

/-- Where the first outline runs over the end of a front in which all blocks stay, it runs over
white space only. -/
theorem Outline.Covers.isSpace_of_staysIn {front space back : Text} {outline : Outline}
    (hcovers : outline.Covers (front ++ (space ++ back)) (front ++ space) back)
    (hread : read? (front ++ (space ++ back) ++ Parser.terminator) = some outline)
    (hfront : front ≠ [])
    (h : ∀ node ∈ Parser.documentNodes (front ++ (space ++ back)),
      node.StaysIn front (space ++ back)) : ∀ c ∈ space, Text.isSpace c = true := by
  intro c hc
  cases hkind : outline.kind? with
  | none => exact hcovers.blank hkind c (List.mem_append_right _ hc)
  | some kind =>
    obtain ⟨children, hnode⟩ := Outline.exists_node (by simp [hfront]) hread hcovers hkind
    obtain ⟨before, after, rfl⟩ := List.append_of_mem hc
    obtain ⟨-, hblank⟩ := h _ hnode (Text.byteLength_pos hfront)
    refine hblank before c (after ++ back) (by simp) ⟨Nat.zero_le _, ?_⟩
    simp only [Node.span, Text.byteLength_append, Text.byteLength_cons]
    omega

namespace Parser

/-- A front in which all blocks stay that start there is prose, and what follows it has its own
prose and nests no deeper than the whole. -/
theorem prose_append_of_staysIn {front rest : Text}
    (h : ∀ node ∈ documentNodes (front ++ rest), node.StaysIn front rest) :
    prose (front ++ rest) = front ++ prose rest ∧
      Node.levelsAll (documentNodes rest) ≤ Node.levelsAll (documentNodes (front ++ rest)) := by
  -- By induction on the length of the front, one outline at a time.
  induction hn : front.length using Nat.strong_induction_on generalizing front with
  | h n ih =>
    by_cases hfront : front = []
    · subst hfront
      exact ⟨rfl, Nat.le_refl _⟩
    have hne : front ++ rest ≠ [] := by simp [hfront]
    obtain ⟨outline, hread⟩ := @Outline.exists_read? (front ++ rest ++ terminator)
      (List.append_ne_nil_of_left_ne_nil hne _)
    obtain ⟨taken, back, hcovers⟩ := Outline.exists_covers hne hread
    have hkind : ∀ block, outline.kind? ≠ some (.statement block) := by
      intro block hblock
      obtain ⟨children, hnode⟩ := Outline.exists_node hne hread hcovers hblock
      have hstatement := (h _ hnode (Text.byteLength_pos hfront)).1
      simp [Node.statement?, Node.kind] at hstatement
    have hprose := prose_eq_append hne hread hcovers
    have hnodes := documentNodes_eq_append hne hread
    rw [Outline.prose_of_not_statement hkind] at hprose
    rw [hcovers.after] at hnodes
    have hlevels : Node.levelsAll (documentNodes back) ≤
        Node.levelsAll (documentNodes (front ++ rest)) := by
      rw [hnodes, Node.levelsAll_append, Node.levelsAll_map (Node.levels_moved _)]
      exact le_max_right _ _
    rcases List.append_eq_append_iff.1 hcovers.split with
      ⟨space, rfl, rfl⟩ | ⟨left, rfl, hback⟩
    · -- The first block reaches the end of the front, and white space of the rest at most.
      have hspace := hcovers.isSpace_of_staysIn hread hfront h
      have hend : space = [] ∨ space.getLast? = some '\n' ∨ back = [] := by
        by_cases hnil : space = []
        · exact .inl hnil
        · have hlast := hcovers.lines hkind
          rw [List.getLast?_append_of_ne_nil _ hnil] at hlast
          exact .inr hlast.symm
      rw [hprose, prose_space hspace hend, List.append_assoc]
      refine ⟨rfl, ?_⟩
      rw [documentNodes_space hspace hend, Node.levelsAll_map (Node.levels_moved _)]
      exact hlevels
    · -- The first block lies in the front, and the blocks behind it stay in what is left.
      have hleft : ∀ node ∈ documentNodes (left ++ rest), node.StaysIn left rest := by
        intro node hnode
        have hne : back ≠ [] := by
          rintro rfl
          rw [← hback, documentNodes_nil] at hnode
          exact absurd hnode List.not_mem_nil
        have hmem : Node.moved outline.length node ∈ documentNodes (taken ++ left ++ rest) := by
          rw [hnodes, hback]
          exact List.mem_append_right _ (List.mem_map_of_mem hnode)
        rw [hcovers.length_eq hne] at hmem
        exact (h _ hmem).of_moved
      have hlength := List.length_pos_iff.2 hcovers.nonempty
      rw [List.length_append] at hn
      obtain ⟨hproseLeft, hlevelsLeft⟩ := ih left.length (by omega) hleft rfl
      rw [hprose, hback, hproseLeft, List.append_assoc]
      exact ⟨rfl, hlevelsLeft.trans (hback ▸ hlevels)⟩

end Parser

/-! ## Documents with front matter -/

/-- A document with front matter is its front, up to the break behind the block, and its body. Where
the blocks that start in the front stay in it, the prose of the document is the front as it is and
the prose of the body. -/
theorem stripStatements_frontMatter {text matter : Text} {front : FrontMatter} {tree : Node}
    (hfront : FrontMatter.extract FrontMatter.defaultDelimiter text = .ok front)
    (hmatter : front.matter = some matter)
    (htree : parseDocument [] (Text.unifyBreaks text) = .ok tree) :
    ∃ lineBreak, text = FrontMatter.leadingMark text ++ matter ++ lineBreak ++ front.body ∧
      FrontMatter.IsBreak lineBreak front.body ∧
      ((∀ node ∈ tree.children, node.StaysIn
          (Text.unifyBreaks (FrontMatter.leadingMark text ++ matter ++ lineBreak))
          (Text.unifyBreaks front.body)) →
        ∃ prose, stripStatements [] front.body = .ok prose ∧
          stripStatements [] text =
            .ok (Text.unifyBreaks (FrontMatter.leadingMark text ++ matter ++ lineBreak) ++
              prose)) := by
  obtain ⟨-, lineBreak, htext, hbreak⟩ := (FrontMatter.splits_of_extract hfront).present _ hmatter
  refine ⟨lineBreak, htext, hbreak, fun hstays => ?_⟩
  -- The break is there, or else the body is no longer than a carriage return.
  have hcut : (FrontMatter.leadingMark text ++ matter ++ lineBreak).getLast? ≠ some '\r' ∨
      front.body.head? ≠ some '\n' := by
    rcases hbreak with rfl | rfl | ⟨-, hbody | hbody⟩
    · exact .inl (by simp)
    · exact .inl (by simp)
    · exact .inr (by simp [hbody])
    · exact .inr (by simp [hbody])
  have hunified : Text.unifyBreaks text =
      Text.unifyBreaks (FrontMatter.leadingMark text ++ matter ++ lineBreak) ++
        Text.unifyBreaks front.body := by
    rw [← Text.unifyBreaks_append_of_ne hcut, ← htext]
  obtain ⟨rfl, hlevels⟩ := parseDocument_eq_ok_iff.1 htree
  rw [levels_documentTree, Text.unifyBreaks_unifyBreaks, hunified] at hlevels
  rw [documentTree, Node.children, Text.unifyBreaks_unifyBreaks, hunified] at hstays
  obtain ⟨hprose, hbody⟩ := Parser.prose_append_of_staysIn hstays
  refine ⟨_, stripStatements_eq_ok_iff.2 ⟨hbody.trans hlevels, rfl⟩, ?_⟩
  rw [stripStatements_eq_ok_iff, levels_documentTree, hunified]
  exact ⟨hlevels, hprose.symm⟩

/-- A byte order mark makes a paragraph of the line of the delimiter, and that paragraph goes on
with the metadata up to the closing line. -/
theorem stripStatements_frontMatter_mark :
    ∃ front, FrontMatter.extract FrontMatter.defaultDelimiter
        "\ufeff---json\r\n\x7b\"é\": 1\x7d\r\n---\r\nimport \"a\"\r\n\r\nfoo".toList = .ok front ∧
      front.matter = some "---json\r\n\x7b\"é\": 1\x7d\r\n---".toList ∧
      stripStatements [] front.body = .ok "\n\nfoo".toList ∧
      stripStatements []
          "\ufeff---json\r\n\x7b\"é\": 1\x7d\r\n---\r\nimport \"a\"\r\n\r\nfoo".toList =
        .ok "\ufeff---json\n\x7b\"é\": 1\x7d\n---\n\n\nfoo".toList := by
  have hextracts : (FrontMatter.extract FrontMatter.defaultDelimiter
      "\ufeff---json\r\n\x7b\"é\": 1\x7d\r\n---\r\nimport \"a\"\r\n\r\nfoo".toList).toOption.any
        (fun front => front.matter = some "---json\r\n\x7b\"é\": 1\x7d\r\n---".toList ∧
          front.body = "import \"a\"\r\n\r\nfoo".toList) = true := by
    decide +kernel
  have hparses : (parseDocument [] (Text.unifyBreaks
      "\ufeff---json\r\n\x7b\"é\": 1\x7d\r\n---\r\nimport \"a\"\r\n\r\nfoo".toList)).toOption.any
        (fun tree => tree.children.all fun node => 25 ≤ node.span.start ∨
          node.statement? = none ∧ node.span.stop ≤ 25) = true := by
    decide +kernel
  have hstrips : (stripStatements [] "import \"a\"\r\n\r\nfoo".toList).toOption.any
      (· = "\n\nfoo".toList) = true := by
    decide +kernel
  obtain ⟨front, hfront, hparts⟩ := exists_ok_of_any hextracts
  obtain ⟨hmatter, hbody⟩ := of_decide_eq_true hparts
  obtain ⟨tree, htree, hnodes⟩ := exists_ok_of_any hparses
  obtain ⟨body, hstrip, hsame⟩ := exists_ok_of_any hstrips
  obtain rfl := of_decide_eq_true hsame
  obtain ⟨lineBreak, htext, -, hprose⟩ := stripStatements_frontMatter hfront hmatter htree
  obtain rfl : lineBreak = ['\r', '\n'] := by
    refine List.append_cancel_left (List.append_cancel_right (htext.symm.trans ?_))
    rw [hbody]
    decide
  have hfrontText : Text.unifyBreaks (FrontMatter.leadingMark
      "\ufeff---json\r\n\x7b\"é\": 1\x7d\r\n---\r\nimport \"a\"\r\n\r\nfoo".toList ++
        "---json\r\n\x7b\"é\": 1\x7d\r\n---".toList ++ ['\r', '\n']) =
      "\ufeff---json\n\x7b\"é\": 1\x7d\n---\n".toList := by
    decide
  have hsize : Text.byteLength "\ufeff---json\n\x7b\"é\": 1\x7d\n---\n".toList = 25 := by decide
  rw [hfrontText] at hprose
  obtain ⟨prose, hproseBody, hproseText⟩ := hprose fun node hnode => by
    rcases of_decide_eq_true (List.all_eq_true.1 hnodes node hnode) with hstart | ⟨hnone, hstop⟩
    · exact Node.staysIn_of_le_start (hsize ▸ hstart) _
    · exact Node.staysIn_of_stop_le hnone (hsize ▸ hstop) _
  rw [hbody, hstrip] at hproseBody
  obtain rfl := Except.ok.inj hproseBody
  refine ⟨front, hfront, hmatter, hbody ▸ hstrip, hproseText.trans (congrArg Except.ok ?_)⟩
  decide

-- A literal scalar of one line, which would open a block of code.
theorem readMetadata_literal :
    FrontMatter.readMetadata [] "a: |\n  \x60\x60\x60\n".toList =
      .ok [(.string ['a'], .string "\x60\x60\x60\n".toList)] := by
  have hevents : (Yaml.tokens? "a: |\n  \x60\x60\x60\n".toList).bind Yaml.Event.ofTokens? =
      some [.mappingStart Yaml.Event.bare, .scalar Yaml.Event.bare ['a'] true,
        .scalar Yaml.Event.bare "\x60\x60\x60\n".toList false, .mappingEnd] := by
    decide +kernel
  have hkey : Yaml.plainValue? ['a'] = some (.string ['a']) := rfl
  have hread : Yaml.read? "a: |\n  \x60\x60\x60\n".toList =
      some (.mapping [(.string ['a'], .string "\x60\x60\x60\n".toList)]) := by
    rw [Yaml.read?, hevents]
    simp [Yaml.ofEvents?, Yaml.link?, Yaml.targets, Yaml.Event.bare, Yaml.depthLimit, Yaml.value?,
      Yaml.node?, Yaml.entries?, Yaml.taggedScalar?, Yaml.ownTag?, Yaml.scalarValue?, hkey,
      Yaml.withTag, Value.find?]
  have hblank : Text.isBlank "a: |\n  \x60\x60\x60\n".toList = false := by decide
  have htag : MetadataLanguage.ofTag? (Text.lowerAscii []) = some .yaml := rfl
  rw [FrontMatter.readMetadata, hblank, if_neg Bool.false_ne_true, htag]
  dsimp only [MetadataLanguage.read?]
  rw [hread]

/-- A fence in the metadata opens a block of code that takes the body with its import, which the
prose keeps. -/
theorem stripStatements_fence_in_frontMatter :
    ∃ front, FrontMatter.extract FrontMatter.defaultDelimiter
        "---\na: |\n  \x60\x60\x60\n---\nimport \"x\"\n\nfoo\n".toList = .ok front ∧
      front.matter = some "---\na: |\n  \x60\x60\x60\n---".toList ∧
      front.body = "import \"x\"\n\nfoo\n".toList ∧
      stripStatements [] front.body = .ok "\n\nfoo\n".toList ∧
      stripStatements [] "---\na: |\n  \x60\x60\x60\n---\nimport \"x\"\n\nfoo\n".toList =
        .ok "---\na: |\n  \x60\x60\x60\n---\nimport \"x\"\n\nfoo\n".toList := by
  have hopening : FrontMatter.opening FrontMatter.defaultDelimiter
      "---\na: |\n  \x60\x60\x60\n---\nimport \"x\"\n\nfoo\n".toList =
        .fenced ⟨[], "a: |\n  \x60\x60\x60\n".toList, "---\na: |\n  \x60\x60\x60\n---".toList,
          "import \"x\"\n\nfoo\n".toList⟩ := by
    decide +kernel
  have hmark : (FrontMatter.cutMark
      "---\na: |\n  \x60\x60\x60\n---\nimport \"x\"\n\nfoo\n".toList).2 =
        "---\na: |\n  \x60\x60\x60\n---\nimport \"x\"\n\nfoo\n".toList := by
    decide
  have hbody : (stripStatements [] "import \"x\"\n\nfoo\n".toList).toOption.any
      (· = "\n\nfoo\n".toList) = true := by
    decide +kernel
  have htext : (stripStatements []
      "---\na: |\n  \x60\x60\x60\n---\nimport \"x\"\n\nfoo\n".toList).toOption.any
        (· = "---\na: |\n  \x60\x60\x60\n---\nimport \"x\"\n\nfoo\n".toList) = true := by
    decide +kernel
  obtain ⟨body, hstripBody, hsameBody⟩ := exists_ok_of_any hbody
  obtain ⟨prose, hstripText, hsameText⟩ := exists_ok_of_any htext
  obtain rfl := of_decide_eq_true hsameBody
  obtain rfl := of_decide_eq_true hsameText
  refine ⟨⟨[(.string ['a'], .string "\x60\x60\x60\n".toList)], some _, none, _⟩, ?_, rfl, rfl,
    hstripBody, hstripText⟩
  rw [FrontMatter.extract, hmark, hopening]
  dsimp only
  rw [readMetadata_literal]
  rfl

end DocumentLayout
